import MailDock.Domain.Messages

/-!
# FETCH responses

`parse_fetch_response` of `imap_common.py`.  The metadata of a response is text
that the code searches with regular expressions, each for one attribute; the
searches are written out as scanners over characters.  What the email package
makes of a date and of a header block is taken as given.

## Main definitions

- `FetchItem` — one element of the list `imaplib` returns for a FETCH
- `parseFetchResponse` — the message reference of a response with a literal
-/

namespace MailDock

/-- `bytes.decode("ascii", errors="replace")`. -/
def decodeAscii (raw : Bytes) : List Char :=
  raw.map fun b => if b.toNat < 128 then Char.ofNat b.toNat else Char.ofNat 0xfffd

/-! Regular expressions on ASCII text. -/

/-- `\s` of a text pattern, restricted to ASCII. -/
def isSpaceChar (c : Char) : Bool :=
  (9 ≤ c.toNat && c.toNat ≤ 13) || (28 ≤ c.toNat && c.toNat ≤ 32)

def isWordChar (c : Char) : Bool := c.isAlphanum || c == '_'

/-- A literal of a pattern, in any case. -/
def matchLiteral : List Char → List Char → Option (List Char)
  | [],text => some text
  | _ :: _,[] => none
  | p :: pattern,c :: text =>
    if p.toLower = c.toLower then matchLiteral pattern text else none

/-- `re.search` for a pattern that begins with `\b` and a word character. -/
def searchWord {α : Type} (pattern : List Char → Option α) : Option Char → List Char → Option α
  | _,[] => none
  | previous,c :: text =>
    if previous.any isWordChar then searchWord pattern (some c) text
    else match pattern (c :: text) with
      | some a => some a
      | none => searchWord pattern (some c) text

/-- `NAME\s+(\d+)`. -/
def matchNumber (name : String) (text : List Char) : Option Nat := do
  let rest ← matchLiteral name.toList text
  if (rest.takeWhile isSpaceChar).isEmpty then none
  else
    let digits := (rest.dropWhile isSpaceChar).takeWhile Char.isDigit
    if digits.isEmpty then none
    else some (digits.foldl (fun n d => 10 * n + (d.toNat - '0'.toNat)) 0)

/-- `NAME\s*\(([^)]*)\)`. -/
def matchParenthesised (name : String) (text : List Char) : Option (List Char) := do
  let rest ← matchLiteral name.toList text
  match rest.dropWhile isSpaceChar with
  | '(' :: inner =>
    if inner.contains ')' then some (inner.takeWhile (· ≠ ')')) else none
  | _ => none

def isQuoteChar (c : Char) : Bool := c == '"' || c == Char.ofNat 39

/-- `NAME\s+["']([^"']+)["']`. -/
def matchQuoted (name : String) (text : List Char) : Option (List Char) := do
  let rest ← matchLiteral name.toList text
  if (rest.takeWhile isSpaceChar).isEmpty then none
  else match rest.dropWhile isSpaceChar with
  | q :: inner =>
    let value := inner.takeWhile fun c => !isQuoteChar c
    if isQuoteChar q && !value.isEmpty && inner.any isQuoteChar then some value else none
  | [] => none

/-- `str.split()`. -/
def splitSpaces (text : List Char) : List (List Char) :=
  (text.splitOnP isSpaceChar).filter fun token => !token.isEmpty

/-! Modified UTF-7. -/

def base64Value (c : Char) : Option Nat :=
  if 'A' ≤ c ∧ c ≤ 'Z' then some (c.toNat - 65)
  else if 'a' ≤ c ∧ c ≤ 'z' then some (c.toNat - 71)
  else if '0' ≤ c ∧ c ≤ '9' then some (c.toNat + 4)
  else if c = '+' then some 62
  else if c = '/' then some 63
  else none

/-- The bytes of sextets; the bits left over at the end are dropped. -/
def sextetBytes : List Nat → List Nat
  | a :: b :: c :: d :: rest =>
    (4 * a + b / 16) :: (16 * (b % 16) + c / 4) :: (64 * (c % 4) + d) :: sextetBytes rest
  | [a,b,c] => [4 * a + b / 16,16 * (b % 16) + c / 4]
  | [a,b] => [4 * a + b / 16]
  | _ => []

/-- `base64.b64decode(text, validate=True)`: data characters, then the padding they need. -/
def b64decode (text : List Char) : Option (List Nat) := do
  let data := text.takeWhile (· ≠ '=')
  let padding := text.dropWhile (· ≠ '=')
  let sextets ← data.mapM base64Value
  if padding.all (· == '=') ∧ data.length % 4 ≠ 1 ∧
      padding.length = (4 - data.length % 4) % 4 then
    some (sextetBytes sextets)
  else none

/-- `bytes.decode("utf-16-be")`. -/
def decodeUtf16be : List Nat → Option (List Char)
  | [] => some []
  | [_] => none
  | hi :: lo :: rest =>
    let unit := 256 * hi + lo
    if unit < 0xd800 ∨ 0xdfff < unit then (decodeUtf16be rest).map (Char.ofNat unit :: ·)
    else if 0xdbff < unit then none
    else match rest with
    | hi' :: lo' :: rest' =>
      let low := 256 * hi' + lo'
      if 0xdc00 ≤ low ∧ low ≤ 0xdfff then
        (decodeUtf16be rest').map
          (Char.ofNat (0x10000 + 1024 * (unit - 0xd800) + (low - 0xdc00)) :: ·)
      else none
    | _ => none

def decodeShifted (token : List Char) : Option (List Char) :=
  if token.isEmpty then some ['&']
  else
    let base64 := token.map fun c => if c = ',' then '/' else c
    (b64decode (base64 ++ List.replicate ((4 - base64.length % 4) % 4) '=')).bind decodeUtf16be

/-- `decode_modified_utf7`; the first argument is the shift sequence that is open, if any. -/
def decodeModifiedUtf7 : Option (List Char) → List Char → Option (List Char)
  | none,[] => some []
  | some _,[] => none
  | none,c :: text =>
    if c = '&' then decodeModifiedUtf7 (some []) text
    else (decodeModifiedUtf7 none text).map (c :: ·)
  | some token,c :: text =>
    if c = '-' then do
      let decoded ← decodeShifted token
      let rest ← decodeModifiedUtf7 none text
      pure (decoded ++ rest)
    else decodeModifiedUtf7 (some (token ++ [c])) text

/-! Gmail labels. -/

/-- The body of a quoted string and what follows its closing quote. -/
def scanQuoted : List Char → Option (List Char × List Char)
  | [] => none
  | '"' :: rest => some ([],rest)
  | '\\' :: c :: rest =>
    if c = '\n' then none
    else (scanQuoted rest).map fun r => ('\\' :: c :: r.1,r.2)
  | '\\' :: [] => none
  | c :: rest => (scanQuoted rest).map fun r => (c :: r.1,r.2)

/-- `re.sub(r"\\(.)", r"\1", text)`. -/
def unescape : List Char → List Char
  | '\\' :: c :: rest => if c = '\n' then '\\' :: c :: unescape rest else c :: unescape rest
  | c :: rest => c :: unescape rest
  | [] => []

def isAtomChar (c : Char) : Bool := !(isSpaceChar c || c == '(' || c == ')')

/-- The strings and atoms of a label list, with at most `fuel` characters to read. -/
def imapStrings : Nat → List Char → List (List Char)
  | 0,_ => []
  | _ + 1,[] => []
  | fuel + 1,c :: text =>
    match (if c = '"' then scanQuoted text else none) with
    | some (body,rest) => unescape body :: imapStrings fuel rest
    | none =>
      let atom := (c :: text).takeWhile isAtomChar
      if atom.isEmpty then imapStrings fuel text
      else atom :: imapStrings fuel ((c :: text).dropWhile isAtomChar)

/-! One response. -/

/-- The parts of the email package a FETCH response goes through. -/
structure EmailLib where
  /-- `parsedate_to_datetime`, in UTC; `none` when it raises. -/
  parsedate : String → Option DateTime
  /-- The `Message-ID` of a header block. -/
  messageIdFromHeaders : Bytes → Option String

/-- An element of the data `imaplib` returns for a FETCH: a response whose last
attribute is a literal, or a response without one. -/
inductive FetchItem
  | literal (metadata body : Bytes)
  | plain (metadata : Bytes)
deriving DecidableEq, Repr

/-- The UID a response names. -/
def metadataUid (metadata : Bytes) : Option Nat :=
  searchWord (matchNumber "UID") none (decodeAscii metadata)

def parseInternaldate (lib : EmailLib) (text : List Char) : Except Error (Option DateTime) :=
  match searchWord (matchQuoted "INTERNALDATE") none text with
  | none => .ok none
  | some value =>
    match lib.parsedate (String.ofList value) with
    | some date => .ok (some date)
    | none => .error ⟨.permanent,"invalid IMAP INTERNALDATE: " ++ String.ofList value⟩

def parseGmailLabels (text : List Char) : Except Error (Option (List String)) :=
  match searchWord (matchParenthesised "X-GM-LABELS") none text with
  | none => .ok none
  | some value =>
    match (imapStrings value.length value).mapM (decodeModifiedUtf7 none) with
    | some labels => .ok (some (labels.map String.ofList))
    | none => .error ⟨.permanent,"IMAP FETCH response has invalid Gmail label encoding"⟩

def parseFetchResponse (lib : EmailLib) (metadata body : Bytes) :
    Except Error RemoteMessageRef := do
  let text := decodeAscii metadata
  match metadataUid metadata with
  | none => .error ⟨.permanent,"IMAP FETCH response has no UID"⟩
  | some uid =>
    let internalDate ← parseInternaldate lib text
    let labels ← parseGmailLabels text
    .ok
      { uid := uid
        messageId := if body.isEmpty then none else lib.messageIdFromHeaders body
        internalDate := internalDate
        sizeBytes := searchWord (matchNumber "RFC822.SIZE") none text
        flags := ((searchWord (matchParenthesised "FLAGS") none text).map fun flags =>
          (splitSpaces flags).map String.ofList).getD []
        gmailMsgid := searchWord (matchNumber "X-GM-MSGID") none text
        gmailThrid := searchWord (matchNumber "X-GM-THRID") none text
        gmailLabels := labels }

/-- A parsed reference carries the UID the response names. -/
theorem parseFetchResponse_uid {lib : EmailLib} {metadata body : Bytes} {ref : RemoteMessageRef}
    (h : parseFetchResponse lib metadata body = .ok ref) : metadataUid metadata = some ref.uid := by
  unfold parseFetchResponse at h
  dsimp only at h
  split at h
  · cases h
  · next uid huid =>
    cases hdate : parseInternaldate lib (decodeAscii metadata) with
    | error e =>
      rw [hdate] at h
      cases h
    | ok date =>
      cases hlabels : parseGmailLabels (decodeAscii metadata) with
      | error e =>
        rw [hdate,hlabels] at h
        cases h
      | ok labels =>
        rw [hdate,hlabels] at h
        cases h
        exact huid

example : decodeModifiedUtf7 none "A&AOk-&-".toList = some ['A',Char.ofNat 233,'&'] := by
  decide

end MailDock
