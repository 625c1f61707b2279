import MailDock.Domain.Stamps
import MailDock.Parsing.Parameters
import Mathlib.Data.List.Sort

/-!
# Header values

`infrastructure/parsing/headers.py`.  The functions of the standard library and its tables are
fields of a structure: they return whatever they like, or raise.

## Main definitions

- `HeaderLibrary` — the functions of the standard library
- `decodeHeaderValue`, `filenameFromParameters`, `deriveThreadKey` — the functions of the module
-/

namespace MailDock

namespace Headers

/-- The classes of exceptions that some `except` clause names. -/
inductive ExceptionKind
  | lookup | index | unicodeDecode | unicodeEncode | value | type | overflow | other
deriving DecidableEq, Repr

/-- `type(…).__name__`. -/
abbrev ClassName := { name : String // name ≠ "" }

structure PyException where
  kind : ExceptionKind
  name : ClassName
deriving DecidableEq

namespace PyException

/-- `except (LookupError,UnicodeError,ValueError)`, of which the others are subclasses. -/
def isHeaderError (e : PyException) : Bool :=
  match e.kind with
  | .lookup | .index | .unicodeDecode | .unicodeEncode | .value => true
  | .type | .overflow | .other => false

/-- `except (LookupError,UnicodeDecodeError)`. -/
def isDecodeError (e : PyException) : Bool :=
  match e.kind with
  | .lookup | .index | .unicodeDecode => true
  | .unicodeEncode | .value | .type | .overflow | .other => false

/-- `except (TypeError,ValueError,OverflowError)`. -/
def isDateError (e : PyException) : Bool :=
  match e.kind with
  | .unicodeDecode | .unicodeEncode | .value | .type | .overflow => true
  | .lookup | .index | .other => false

def indexError : PyException := ⟨.index,"IndexError",by decide⟩
def unicodeEncodeError : PyException := ⟨.unicodeEncode,"UnicodeEncodeError",by decide⟩
def unicodeDecodeError : PyException := ⟨.unicodeDecode,"UnicodeDecodeError",by decide⟩
def valueError : PyException := ⟨.value,"ValueError",by decide⟩

end PyException

abbrev Result := Except PyException

/-- A piece of a header that `decode_header` found, with its charset. -/
abbrev HeaderPair := (PyText ⊕ List UInt8) × Option PyText

/-- What the module calls. -/
structure HeaderLibrary where
  /-- `str.lower` and `str.casefold`. -/
  lower : PyText → PyText
  casefold : PyText → PyText
  /-- The value of a code point of the category `Nd`. -/
  digit : CodePoint → Option Nat
  /-- `bytes.decode(label)`. -/
  decode : PyText → List UInt8 → Result PyText
  decodeHeader : PyText → Result (List HeaderPair)
  /-- `str(make_header(pairs))`. -/
  makeHeader : List HeaderPair → Result PyText
  parsedateToDatetime : PyText → Result Stamp
  /-- `datetime.now(UTC) + timedelta(days=1)`. -/
  tomorrow : Stamp

/-! ## Charsets and RFC 2047 -/

/-- `_CHARSET_ALIASES`. -/
def charsetAliases : List (PyText × PyText) :=
  [("x-sjis","cp932"),("xsjis","cp932"),("shift_jis","cp932"),("shift-jis","cp932"),
    ("sjis","cp932"),("iso-2022-jp-ms","iso2022_jp_ext"),("iso_2022_jp_ms","iso2022_jp_ext"),
    ("iso2022jpms","iso2022_jp_ext")].map fun entry =>
      (pyText (String.toList entry.1),pyText (String.toList entry.2))

/-- `replace_surrogates`. -/
def replaceSurrogates (text : PyText) : PyText :=
  text.map fun c => if Utf8.isSurrogate c then .ofChar '?' else c

section
variable (lib : HeaderLibrary)

def normalizeCharsetLabel (label : PyText) : PyText :=
  let normalized := (lib.casefold label).filter fun c => !c.isSpace
  (charsetAliases.lookup normalized).getD normalized

/-- `_iso2022_jp_ext_repaired_pairs` for a header that can be split; `none` when no pair was
relabelled. -/
def repairPairs (pairs : List HeaderPair) : Result (Option (List HeaderPair)) := do
  let repaired ← pairs.mapM fun pair => do
    match pair.1 with
    | .inl _ => pure (pair,false)
    | .inr payload =>
      if [pyText "iso-2022-jp".toList,pyText "iso2022_jp".toList].contains
          (normalizeCharsetLabel lib (pair.2.getD [])) then
        match lib.decode (pyText "iso2022_jp_ext".toList) payload with
        | .ok _ => pure ((pair.1,some (pyText "iso2022_jp_ext".toList)),true)
        | .error e => if e.kind = .unicodeDecode then pure (pair,false) else throw e
      else pure (pair,false)
  if repaired.any Prod.snd then pure (some (repaired.map Prod.fst)) else pure none

def repairedPairs (value : PyText) : Result (Option (List HeaderPair)) :=
  match lib.decodeHeader value with
  | .ok pairs => repairPairs lib pairs
  | .error e => if e.isHeaderError then .ok none else .error e

/-- The text of the pairs, or the value itself when they have none. -/
def headerText (value : PyText) (pairs : List HeaderPair) : Result PyText := do
  let decoded ← lib.makeHeader pairs
  pure (replaceSurrogates (if value ≠ [] ∧ decoded = [] then value else decoded))

def decodeHeaderValue (value : Option PyText) : Result PyText :=
  match value with
  | none => .ok []
  | some value =>
    match lib.decodeHeader value >>= headerText lib value with
    | .ok decoded => .ok decoded
    | .error e =>
      if e.isHeaderError then do
        match ← repairedPairs lib value with
        | none => pure (replaceSurrogates value)
        | some pairs =>
          match headerText lib value pairs with
          | .ok decoded => pure decoded
          | .error e =>
            if e.isHeaderError then pure (replaceSurrogates value) else throw e
      else .error e

/-! ## RFC 2231 -/

def hexValue (b : UInt8) : Option UInt8 :=
  if 0x30 ≤ b ∧ b ≤ 0x39 then some (b - 0x30)
  else if 0x41 ≤ b ∧ b ≤ 0x46 then some (b - 0x37)
  else if 0x61 ≤ b ∧ b ≤ 0x66 then some (b - 0x57)
  else none

/-- The loop of `unquote_to_bytes`: a percent sign without two hexadecimal digits stays. -/
def unquoteBytes : List UInt8 → List UInt8
  | [] => []
  | [a] => [a]
  | [a,b] => [a,b]
  | a :: b :: c :: rest =>
    if a = 0x25 then
      match hexValue b,hexValue c with
      | some high,some low => (high * 16 + low) :: unquoteBytes rest
      | _,_ => a :: unquoteBytes (b :: c :: rest)
    else a :: unquoteBytes (b :: c :: rest)

def unquoteToBytes (text : PyText) : Result (List UInt8) :=
  if text.any Utf8.isSurrogate then .error .unicodeEncodeError
  else .ok (unquoteBytes (Utf8.encode text))

def utf8Label : PyText := pyText "utf-8".toList

/-- The charset of an encoded value and what is left to be unquoted. -/
def rfc2231Parts (value : PyText) : PyText × PyText :=
  match PyText.partition (.ofChar '\'') value with
  | (charset,some rest) =>
    match PyText.partition (.ofChar '\'') rest with
    | (_,some encodedValue) => (charset,encodedValue)
    | (_,none) => (charset,value)
  | (_,none) => (utf8Label,value)

/-- The end of `_decode_rfc2231_value`. -/
def decodeBytes (charset : PyText) (raw : List UInt8) : Result PyText :=
  match lib.decode (if charset = [] then utf8Label else charset) raw with
  | .ok text => .ok text
  | .error e => if e.isDecodeError then .ok (Utf8.decodeReplace raw) else .error e

def decodeRfc2231Value (value : PyText) (encoded : Bool) : Result PyText :=
  if encoded then do
    let raw ← unquoteToBytes (rfc2231Parts value).2
    decodeBytes lib (rfc2231Parts value).1 raw
  else .ok value

/-- `_PARAMETER_NAME`: the name in front of the first asterisk, and what the rest says: the
number of a segment and whether it is encoded. -/
def matchParameterName (name : PyText) : Option (PyText × Option (Nat × Bool)) :=
  match PyText.partition (.ofChar '*') name with
  | ([],_) => none
  | (base,none) => some (base,none)
  | (base,some rest) =>
    let digits := rest.takeWhile fun c => (lib.digit c).isSome
    let number := digits.foldl (fun n c => n * 10 + (lib.digit c).getD 0) 0
    if digits = [] then (if rest = [] then some (base,none) else none)
    else
      match rest.dropWhile fun c => (lib.digit c).isSome with
      | [] => some (base,some (number,false))
      | [c] => if c = .ofChar '*' then some (base,some (number,true)) else none
      | _ => none

structure Segment where
  index : Nat
  value : PyText
  encoded : Bool
deriving DecidableEq, Repr

def segmentOf (baseName : PyText) (parameter : PyText × PyText) : Option Segment :=
  match matchParameterName lib parameter.1 with
  | some (base,some (index,encoded)) =>
    if lib.lower base = baseName then some ⟨index,parameter.2,encoded⟩ else none
  | _ => none

/-- The loop over the sorted segments; it ends at the first gap. -/
def joinSegments (expectedIndex : Nat) : List Segment → Result PyText
  | [] => .ok []
  | segment :: rest =>
    if segment.index ≠ expectedIndex then .ok []
    else do
      let decoded ← decodeRfc2231Value lib segment.value segment.encoded
      let others ← joinSegments (expectedIndex + 1) rest
      pure (decoded ++ others)

def filenameFromParameters (parameters : List (PyText × PyText)) (baseName : PyText) :
    Result (Option PyText) :=
  match parameters.lookup (baseName ++ [.ofChar '*']) with
  | some extendedValue => some <$> decodeRfc2231Value lib extendedValue true
  | none =>
    match (parameters.filterMap (segmentOf lib baseName)).insertionSort
        fun a b => a.index ≤ b.index with
    | [] =>
      match parameters.lookup baseName with
      | some simpleValue => some <$> decodeHeaderValue lib (some simpleValue)
      | none => .ok none
    | segment :: rest =>
      if segment.index ≠ 0 then .ok none
      else do
        let joined ← joinSegments lib 0 (segment :: rest)
        pure (if joined = [] then none else some joined)

/-- The header values of `parse_content_disposition_filename` in their order. -/
def filenameFromHeaders : List PyText → Result (Option PyText)
  | [] => .ok none
  | value :: rest => do
    let parameters := parseParameters lib.lower value
    match ← filenameFromParameters lib parameters (pyText "filename".toList) with
    | some filename => pure (some (replaceSurrogates filename))
    | none =>
      match ← filenameFromParameters lib parameters (pyText "name".toList) with
      | some filename => pure (some (replaceSurrogates filename))
      | none => filenameFromHeaders rest

/-! ## Dates and keys -/

/-- `to_utc`. -/
def toUtc (value : Stamp) : Stamp := { value with aware := true }

/-- `a > b` for two dates in UTC. -/
def later (a b : Stamp) : Bool :=
  decide (b.time.toSeconds * 10 ^ 6 + b.microsecond < a.time.toSeconds * 10 ^ 6 + a.microsecond)

def parseDateHeader (value : Option PyText) (internalDate : Option Stamp) :
    Result (Option Stamp) :=
  let fallback := internalDate.map toUtc
  match value with
  | none | some [] => .ok fallback
  | some value =>
    match lib.parsedateToDatetime value with
    | .ok parsed => .ok (if later (toUtc parsed) lib.tomorrow then fallback else some (toUtc parsed))
    | .error e => if e.isDateError then .ok fallback else .error e

end

/-- `_MESSAGE_ID.search`: the first text in angle brackets. -/
def searchMessageId : PyText → Option PyText
  | [] => none
  | c :: rest =>
    let inside := rest.takeWhile (· ≠ .ofChar '>')
    if c = .ofChar '<' ∧ inside ≠ [] ∧ inside.length < rest.length then
      some (c :: (inside ++ [.ofChar '>']))
    else searchMessageId rest

/-- `value.split()[0]`, where an empty list has no first item. -/
def firstWord (value : PyText) : Result PyText :=
  match value.dropWhile CodePoint.isSpace with
  | [] => .error .indexError
  | c :: rest => .ok ((c :: rest).takeWhile fun c => !c.isSpace)

/-- `_first_message_id`. -/
def firstMessageId (value : Option PyText) : Result (Option PyText) :=
  match value with
  | none | some [] => .ok none
  | some value =>
    match searchMessageId value with
    | some found => .ok (some found)
    | none => some <$> firstWord value

/-- `a or b` where `b` is only evaluated when it is needed. -/
def orElse (a : Result (Option PyText)) (b : Result (Option PyText)) : Result (Option PyText) := do
  match ← a with
  | none | some [] => b
  | some text => pure (some text)

def deriveThreadKey (messageId inReplyTo referencesIds : Option PyText) : Result (Option PyText) :=
  orElse (firstMessageId referencesIds)
    (orElse (firstMessageId inReplyTo) (firstMessageId messageId))

/-- `derive_content_key`. -/
def deriveContentKey (messageId : Option PyText) (emlSha256 : PyText) : PyText :=
  let normalized := (messageId.getD []).strip
  if normalized ≠ [] then normalized else pyText "sha256:".toList ++ emlSha256.take 32

end Headers

end MailDock
