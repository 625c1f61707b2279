import MailDock.Lib.Program
import MailDock.Parsing.Filename

/-!
# Parsing an EML file

`infrastructure/parsing/eml_parser.py` with `charset.py` and `html_to_text.py`.  The `try` block of
`parse_eml` assigns its local variables one after the other, and an exception leaves those that are
assigned as they are.  The key of the thread is derived behind the block.

## Main definitions

- `MailLibrary` — the parser of the standard library and what else the module calls
- `parseEml`
- `Eml.threadSource` — the header the key of the thread is derived from

## Main result

- `parseEml_iff` — when an exception escapes
-/

namespace MailDock

open Hoare Headers

/-- What the module calls.  A function may return whatever it likes, or raise. -/
structure MailLibrary extends HeaderLibrary where
  /-- `email.message.Message`. -/
  Part : Type
  sha256 : List UInt8 → PyText
  parsebytes : List UInt8 → Result Part
  walk : Part → Result (List Part)
  defects : Part → List ClassName
  isMultipart : Part → Bool
  get : Part → PyText → Result (Option PyText)
  rawItems : Part → Result (List (PyText × PyText))
  /-- `get_payload(decode=False)` if that is a text. -/
  payloadText : Part → Result (Option PyText)
  /-- `get_payload(decode=True)` if that is a text or bytes. -/
  payload : Part → Result (Option (PyText ⊕ List UInt8))
  contentType : Part → Result PyText
  contentMaintype : Part → Result PyText
  contentSubtype : Part → Result PyText
  contentDisposition : Part → Result (Option PyText)
  contentCharset : Part → Result (Option PyText)
  /-- `base64.b64decode(encoded,validate=True)`. -/
  b64decode : PyText → Result (List UInt8)
  /-- `raw.decode(encoding,errors="replace")`. -/
  decodeReplacing : PyText → List UInt8 → Result PyText
  /-- The best guess of `charset_normalizer` with the name of its encoding. -/
  fromBytes : List UInt8 → Result (Option (PyText × PyText))
  /-- The text that BeautifulSoup gets without scripts, styles and comments. -/
  soupText : PyText → Result PyText

namespace Eml

structure Attachment where
  filename : Option PyText
  contentType : PyText
  sizeBytes : Nat
  isInline : Bool
deriving DecidableEq, Repr

/-- `ParsedMessage`, whose texts may hold any code points. -/
structure Message where
  subject : PyText
  sender : PyText
  recipient : PyText
  cc : PyText
  dateSent : Option Stamp
  messageId : Option PyText
  inReplyTo : Option PyText
  referencesIds : Option PyText
  threadKey : Option PyText
  contentKey : PyText
  bodyText : PyText
  attachments : List Attachment
  hasAttachment : Bool
  parseError : Option String
deriving DecidableEq, Repr

/-! ## `html_to_text` -/

def isLineBreak (c : CodePoint) : Bool :=
  let n := c.val
  (0x0a ≤ n && n ≤ 0x0d) || (0x1c ≤ n && n ≤ 0x1e) || n == 0x85 || n == 0x2028 || n == 0x2029

/-- `str.splitlines`; a carriage return and a line feed are one break. -/
def splitLines (line : PyText) : PyText → List PyText
  | [] => if line = [] then [] else [line]
  | [c] => if isLineBreak c then [line] else [line ++ [c]]
  | c :: d :: rest =>
    if c.val = 0x0d ∧ d.val = 0x0a then line :: splitLines [] rest
    else if isLineBreak c then line :: splitLines [] (d :: rest)
    else splitLines (line ++ [c]) (d :: rest)

/-- `re.sub(r"[^\S\r\n]+"," ",line)`; `inside` says that a blank has been put. -/
def squeezeBlanks (inside : Bool) : PyText → PyText
  | [] => []
  | c :: rest =>
    if c.isSpace && c.val != 0x0d && c.val != 0x0a then
      (if inside then [] else [CodePoint.ofChar ' ']) ++ squeezeBlanks true rest
    else c :: squeezeBlanks false rest

/-- The loop over the lines: blank lines between others become one. -/
def compressLines (lines : List PyText) : List PyText :=
  (lines.foldl (fun (compressed,pending) line =>
    if line ≠ [] then
      ((if pending && !compressed.isEmpty then compressed ++ [[]] else compressed) ++ [line],false)
    else (compressed,pending || !compressed.isEmpty)) ([],false)).1

section
variable (lib : MailLibrary)

def htmlToText (html : PyText) : Result PyText := do
  let text ← lib.soupText html
  let lines := (splitLines [] text).map fun line => (squeezeBlanks false line).strip
  pure (List.intercalate [.ofChar '\n'] (compressLines lines))

/-! ## `decode_text` -/

/-- `_FALLBACK_ENCODINGS`. -/
def fallbackEncodings : List PyText :=
  ["iso-2022-jp","iso2022_jp_ext","cp932","euc_jp","utf-8"].map fun s => pyText (String.toList s)

/-- `_ISO2022_JP_DECLARED_LABELS`. -/
def iso2022JpDeclaredLabels : List PyText :=
  ["iso-2022-jp","iso2022_jp_ext"].map fun s => pyText (String.toList s)

def decodeStrict (raw : List UInt8) (encoding : PyText) : Result (Option PyText) :=
  match lib.decode encoding raw with
  | .ok text => .ok (some text)
  | .error e => if e.isDecodeError then .ok none else .error e

/-- The text of a lenient decoding, of which at most one character in twenty is replaced. -/
def decodeLenient (raw : List UInt8) (encoding : PyText) : Result (Option PyText) :=
  match lib.decodeReplacing encoding raw with
  | .ok text =>
    .ok (if text = [] ∨ text.length < 20 * text.count 0xFFFD then none else some text)
  | .error e => if e.kind = .lookup ∨ e.kind = .index then .ok none else .error e

def tryEncodings (raw : List UInt8) (lenientPending : Bool) (tried : List PyText) :
    List PyText → Result (Option (PyText × PyText))
  | [] => .ok none
  | encoding :: rest => do
    if tried.contains encoding then tryEncodings raw lenientPending tried rest
    else
      let declared := iso2022JpDeclaredLabels.contains encoding
      let lenient ←
        if lenientPending && !declared then decodeLenient lib raw (pyText "iso2022_jp_ext".toList)
        else pure none
      match lenient with
      | some text => pure (some (text,pyText "iso2022_jp_ext (replace)".toList))
      | none =>
        match ← decodeStrict lib raw encoding with
        | some text => pure (some (text,encoding))
        | none => tryEncodings raw (lenientPending && declared) (encoding :: tried) rest

def decodeText (raw : List UInt8) (declared : Option PyText) : Result (PyText × PyText) := do
  let normalized := (declared.filter (· ≠ [])).map (normalizeCharsetLabel lib.toHeaderLibrary)
  let encodings := (normalized.filter (· ≠ [])).toList ++ fallbackEncodings
  match ← tryEncodings lib raw (normalized.any iso2022JpDeclaredLabels.contains) [] encodings with
  | some decoded => pure decoded
  | none =>
    match lib.fromBytes raw with
    | .ok (some detected) => pure detected
    | _ => pure (Utf8.decodeReplace raw,utf8Label)

/-! ## Parts -/

/-- `_header_value`. -/
def headerValue (message : lib.Part) (name : PyText) : Result PyText := do
  match ← lib.get message name with
  | some value => decodeHeaderValue lib.toHeaderLibrary (some value)
  | none => pure []

def messageDefects (message : lib.Part) : Result (List ClassName) := do
  let parts ← lib.walk message
  pure (parts.flatMap lib.defects)

/-- `a or None`. -/
def orNone (text : PyText) : Option PyText := if text = [] then none else some text

def isValueError (e : PyException) : Bool :=
  match e.kind with
  | .value | .unicodeDecode | .unicodeEncode => true
  | .lookup | .index | .type | .overflow | .other => false

/-- The body of the loop of `_validate_base64_payloads`. -/
def validatePart (part : lib.Part) : Result Unit := do
  if lib.isMultipart part then pure ()
  else
    let encoding ← lib.get part (pyText "Content-Transfer-Encoding".toList)
    if lib.lower (encoding.getD []) ≠ pyText "base64".toList then pure ()
    else
      match ← lib.payloadText part with
      | none => pure ()
      | some payload =>
        match lib.b64decode (payload.filter fun c => !c.isSpace) with
        | .ok _ => pure ()
        | .error e => throw (if isValueError e then .valueError else e)

def validateBase64Payloads (message : lib.Part) : Result Unit := do
  let parts ← lib.walk message
  parts.forM (validatePart lib)

def decodedPayload (part : lib.Part) : Result (List UInt8) := do
  match ← lib.payload part with
  | some (.inr bytes) => pure bytes
  | some (.inl text) => pure (Utf8.encode (replaceSurrogates text))
  | none => pure []

def rawHeaderValue (part : lib.Part) (headerName : PyText) : Result (Option PyText) := do
  let items ← lib.rawItems part
  match items.find? fun item => lib.lower item.1 = lib.lower headerName with
  | some item => pure (some item.2)
  | none => lib.get part headerName

def parseContentDispositionFilename (part : lib.Part) : Result (Option PyText) := do
  let disposition ← rawHeaderValue lib part (pyText "Content-Disposition".toList)
  let contentType ← rawHeaderValue lib part (pyText "Content-Type".toList)
  filenameFromHeaders lib.toHeaderLibrary (disposition.toList ++ contentType.toList)

def attachmentForPart (part : lib.Part) : Result (Option Attachment) := do
  let contentType ← lib.contentType part
  let disposition ← lib.contentDisposition part
  let filename ← parseContentDispositionFilename lib part
  let contentId ← lib.get part (pyText "Content-ID".toList)
  let attached := disposition = some (pyText "attachment".toList)
  let isInline := decide (contentId.getD [] ≠ [] ∧ ¬attached)
  let isAttachment ←
    if attached ∨ disposition = some (pyText "inline".toList) ∨ filename.isSome ∨ isInline then
      pure true
    else do
      let maintype ← lib.contentMaintype part
      pure (maintype ≠ pyText "text".toList ∧ maintype ≠ pyText "message".toList : Bool)
  if isAttachment then
    let payload ← decodedPayload lib part
    pure (some ⟨filename,contentType,payload.length,isInline⟩)
  else pure none

/-- The text of a part of the body, and whether it was written as HTML. -/
def bodyCandidate (part : lib.Part) : Result (Option (Bool × PyText)) := do
  if lib.isMultipart part then pure none
  else if (← lib.contentMaintype part) ≠ pyText "text".toList then pure none
  else if (← lib.contentDisposition part) = some (pyText "attachment".toList) then pure none
  else if (← parseContentDispositionFilename lib part).isSome then pure none
  else
    let payload ← decodedPayload lib part
    let charset ← lib.contentCharset part
    let (text,_) ← decodeText lib payload charset
    if lib.lower (← lib.contentSubtype part) = pyText "html".toList then
      let text ← htmlToText lib text
      pure (some (true,text))
    else if lib.lower (← lib.contentSubtype part) = pyText "plain".toList then
      pure (some (false,text))
    else pure none

/-- What the loop of `_extract_content` collects. -/
structure Content where
  plainCandidates : List PyText := []
  htmlCandidates : List PyText := []
  attachments : List Attachment := []

def extractPart (content : Content) (part : lib.Part) : Result Content := do
  if lib.isMultipart part then pure content
  else
    let attachment ← attachmentForPart lib part
    let content := { content with attachments := content.attachments ++ attachment.toList }
    match ← bodyCandidate lib part with
    | none => pure content
    | some (false,text) =>
      pure { content with plainCandidates := content.plainCandidates ++ [text] }
    | some (true,text) => pure { content with htmlCandidates := content.htmlCandidates ++ [text] }

def firstText (candidates : List PyText) : PyText :=
  (candidates.find? fun text => text.strip ≠ []).getD []

def extractContent (message : lib.Part) : Result (PyText × List Attachment) := do
  let parts ← lib.walk message
  let content ← parts.foldlM (extractPart lib) {}
  let plain := firstText content.plainCandidates
  pure (if plain = [] then firstText content.htmlCandidates else plain,content.attachments)

end

/-! ## `parse_eml` -/

/-- The headers that `parse_eml` reads as texts, in this order. -/
inductive HeaderName
  | subject | sender | recipient | cc | messageId | inReplyTo | references
deriving DecidableEq, Repr

def HeaderName.text : HeaderName → PyText
  | .subject => pyText "Subject".toList
  | .sender => pyText "From".toList
  | .recipient => pyText "To".toList
  | .cc => pyText "Cc".toList
  | .messageId => pyText "Message-ID".toList
  | .inReplyTo => pyText "In-Reply-To".toList
  | .references => pyText "References".toList

def headerNames : List HeaderName :=
  [.subject,.sender,.recipient,.cc,.messageId,.inReplyTo,.references]

/-- The local variables in front of the `try` block. -/
structure Locals where
  subject : PyText := []
  sender : PyText := []
  recipient : PyText := []
  cc : PyText := []
  messageId : Option PyText := none
  inReplyTo : Option PyText := none
  referencesIds : Option PyText := none
  dateSent : Option Stamp := none
  bodyText : PyText := []
  attachments : List Attachment := []
  defectNames : List ClassName := []

/-- The variable a header is assigned to: `_header_value` or `_optional_header_value`. -/
def Locals.assignHeader (s : Locals) : HeaderName → PyText → Locals
  | .subject,text => { s with subject := text }
  | .sender,text => { s with sender := text }
  | .recipient,text => { s with recipient := text }
  | .cc,text => { s with cc := text }
  | .messageId,text => { s with messageId := orNone text }
  | .inReplyTo,text => { s with inReplyTo := orNone text }
  | .references,text => { s with referencesIds := orNone text }

/-- An assignment to a local variable. -/
def store {α : Type} (value : Result α) (assign : Locals → α → Locals) :
    Prog PyException Locals Unit := do
  let a ← Prog.ofExcept value
  modify fun s => assign s a

section
variable (lib : MailLibrary)

def dateSent (message : lib.Part) (internalDate : Option Stamp) : Result (Option Stamp) := do
  let value ← lib.get message (pyText "Date".toList)
  parseDateHeader lib.toHeaderLibrary value internalDate

/-- The `try` block. -/
def readMessage (raw : List UInt8) (internalDate : Option Stamp) :
    Prog PyException Locals Unit := do
  let message ← Prog.ofExcept (lib.parsebytes raw)
  store (messageDefects lib message) fun s names => { s with defectNames := names }
  headerNames.forM fun name =>
    store (headerValue lib message name.text) fun s text => s.assignHeader name text
  store (dateSent lib message internalDate) fun s date => { s with dateSent := date }
  Prog.ofExcept (validateBase64Payloads lib message)
  store (extractContent lib message) fun s content =>
    { s with bodyText := content.1, attachments := content.2 }

/-- `_format_parse_error`. -/
def formatParseError (defectNames : List ClassName) (error : Option PyException) :
    Option String :=
  let details := defectNames.eraseDups.map (·.val) ++ (error.map (·.name.val)).toList
  let text := "; ".intercalate details
  if text = "" then none else some text

def parseEml (raw : List UInt8) (internalDate : Option Stamp) : Result Message := do
  let (outcome,s) := readMessage lib raw internalDate {}
  let parseException := match outcome with
    | .ok _ => none
    | .error e => some e
  let threadKey ← deriveThreadKey s.messageId s.inReplyTo s.referencesIds
  pure {
    subject := s.subject
    sender := s.sender
    recipient := s.recipient
    cc := s.cc
    dateSent := s.dateSent
    messageId := s.messageId
    inReplyTo := s.inReplyTo
    referencesIds := s.referencesIds
    threadKey := threadKey
    contentKey := deriveContentKey s.messageId (lib.sha256 raw)
    bodyText := s.bodyText
    attachments := s.attachments
    hasAttachment := s.attachments.any fun attachment => !attachment.isInline
    parseError := formatParseError s.defectNames parseException }

/-! ## What a run of the block assigns -/

/-- The headers in front of the first one that cannot be read, with their texts. -/
def readableHeaders (message : lib.Part) : List HeaderName → List (HeaderName × PyText)
  | [] => []
  | name :: rest =>
    match headerValue lib message name.text with
    | .ok text => (name,text) :: readableHeaders message rest
    | .error _ => []

def knownHeaders (raw : List UInt8) : List (HeaderName × PyText) :=
  match lib.parsebytes raw with
  | .error _ => []
  | .ok message =>
    match messageDefects lib message with
    | .error _ => []
    | .ok _ => readableHeaders lib message headerNames

/-- The text of a header that is known and not empty. -/
def knownText (headers : List (HeaderName × PyText)) (name : HeaderName) : Option PyText :=
  (headers.lookup name).bind orNone

/-- The text the key of the thread is derived from. -/
def threadSource (headers : List (HeaderName × PyText)) : Option PyText :=
  [HeaderName.references,.inReplyTo,.messageId].findSome? (knownText headers)

/-- The file is parsed to its end, with these defects. -/
structure Parses (raw : List UInt8) (internalDate : Option Stamp) (message : lib.Part)
    (defects : List ClassName) : Prop where
  parsed : lib.parsebytes raw = .ok message
  defects : messageDefects lib message = .ok defects
  headers : ∀ name ∈ headerNames, ∃ text, headerValue lib message name.text = .ok text
  date : ∃ date, dateSent lib message internalDate = .ok date
  base64 : validateBase64Payloads lib message = .ok ()
  content : ∃ content, extractContent lib message = .ok content

variable {lib}

/-- The variables hold the known headers. -/
structure Agrees (headers : List (HeaderName × PyText)) (s : Locals) : Prop where
  messageId : s.messageId = knownText headers .messageId
  inReplyTo : s.inReplyTo = knownText headers .inReplyTo
  references : s.referencesIds = knownText headers .references

theorem knownText_append {headers : List (HeaderName × PyText)} {name : HeaderName}
    (hnew : name ∉ headers.map Prod.fst) (text : PyText) (n : HeaderName) :
    knownText (headers ++ [(name,text)]) n =
      if n = name then orNone text else knownText headers n := by
  rw [knownText,List.lookup_append]
  by_cases hn : n = name
  · subst hn
    have hnone : headers.lookup n = none := by
      rw [List.lookup_eq_none_iff]
      intro p hp
      rw [bne_iff_ne]
      intro heq
      exact hnew (List.mem_map.mpr ⟨p,hp,heq.symm⟩)
    rw [if_pos rfl,hnone,Option.none_or]
    simp
  · have hnone : [(name,text)].lookup n = none := by
      rw [List.lookup_eq_none_iff]
      simpa using hn
    rw [if_neg hn,hnone,Option.or_none,knownText]

theorem Agrees.assign {headers : List (HeaderName × PyText)} {s : Locals} (h : Agrees headers s)
    {name : HeaderName} (hnew : name ∉ headers.map Prod.fst) (text : PyText) :
    Agrees (headers ++ [(name,text)]) (s.assignHeader name text) := by
  constructor <;> rw [knownText_append hnew]
  · rw [← h.messageId]
    cases name <;> rfl
  · rw [← h.inReplyTo]
    cases name <;> rfl
  · rw [← h.references]
    cases name <;> rfl

section
variable {P Q : Locals → Prop} {R : Unit → Locals → Prop} {E : PyException → Locals → Prop}

theorem store_triple {α : Type} {value : Result α} {assign : Locals → α → Locals}
    (hok : ∀ a, value = .ok a → ∀ s, P s → R ⟨⟩ (assign s a))
    (herror : ∀ e, value = .error e → ∀ s, P s → E e s) :
    Triple P (store value assign) R E := by
  refine Triple.seq (Q := fun a s => value = .ok a ∧ P s)
    (Triple.ofExcept (fun a ha s hs => ⟨ha,hs⟩) herror) fun a => ?_
  exact Triple.write fun s ⟨ha,hs⟩ => hok a ha s hs

end

/-- The loop over the headers, from any of them on. -/
theorem headers_triple (message : lib.Part) (defects : List ClassName) (names : List HeaderName)
    (headers : List (HeaderName × PyText)) (hnodup : (headers.map Prod.fst ++ names).Nodup) :
    Triple (fun s => Agrees headers s ∧ s.defectNames = defects)
      (names.forM fun name =>
        store (headerValue lib message name.text) fun s text => s.assignHeader name text)
      (fun _ s => (Agrees (headers ++ readableHeaders lib message names) s ∧
        s.defectNames = defects) ∧
        ∀ name ∈ names, ∃ text, headerValue lib message name.text = .ok text)
      (fun _ s => Agrees (headers ++ readableHeaders lib message names) s ∧
        ¬ ∀ name ∈ names, ∃ text, headerValue lib message name.text = .ok text) := by
  induction names generalizing headers with
  | nil =>
    refine Triple.ret fun s hs => ⟨?_,nofun⟩
    rwa [readableHeaders,List.append_nil]
  | cons name names ih =>
    have hnew : name ∉ headers.map Prod.fst := fun hmem =>
      (List.nodup_append.mp hnodup).2.2 name hmem name List.mem_cons_self rfl
    cases hvalue : headerValue lib message name.text with
    | error e =>
      have hread : readableHeaders lib message (name :: names) = [] := by
        rw [readableHeaders,hvalue]
      rw [hread,List.append_nil]
      refine Triple.seq (Q := fun _ _ => False) (store_triple ?_ ?_) fun _ s hs => hs.elim
      · intro text htext
        rw [hvalue] at htext
        cases htext
      · intro e' _ s hs
        refine ⟨hs.1,fun hall => ?_⟩
        obtain ⟨text,htext⟩ := hall name List.mem_cons_self
        rw [hvalue] at htext
        cases htext
    | ok text =>
      have hread : headers ++ readableHeaders lib message (name :: names) =
          (headers ++ [(name,text)]) ++ readableHeaders lib message names := by
        rw [readableHeaders,hvalue,List.append_assoc]
        rfl
      have hrest := ih (headers ++ [(name,text)]) (by simpa using hnodup)
      rw [hread]
      refine Triple.seq
        (Q := fun _ s => Agrees (headers ++ [(name,text)]) s ∧ s.defectNames = defects)
        (store_triple ?_ ?_) fun _ => hrest.consequence (fun _ hs => hs) ?_ ?_
      · intro text' htext s hs
        rw [hvalue] at htext
        cases htext
        refine ⟨hs.1.assign hnew text,hs.2 ▸ ?_⟩
        cases name <;> rfl
      · intro e he
        rw [hvalue] at he
        cases he
      · rintro - s ⟨hs,hall⟩
        refine ⟨hs,fun n hn => ?_⟩
        rcases List.mem_cons.mp hn with rfl | hn
        · exact ⟨text,hvalue⟩
        · exact hall n hn
      · rintro - s ⟨hs,hall⟩
        exact ⟨hs,fun h => hall fun n hn => h n (List.mem_cons_of_mem name hn)⟩

theorem readMessage_triple (raw : List UInt8) (internalDate : Option Stamp) :
    Triple (fun s => Agrees [] s) (readMessage lib raw internalDate)
      (fun _ s => Agrees (knownHeaders lib raw) s ∧
        ∃ message, Parses lib raw internalDate message s.defectNames)
      (fun _ s => Agrees (knownHeaders lib raw) s ∧
        ¬ ∃ message defects, Parses lib raw internalDate message defects) := by
  rw [readMessage]
  cases hparsed : lib.parsebytes raw with
  | error e =>
    have hknown : knownHeaders lib raw = [] := by rw [knownHeaders,hparsed]
    rw [hknown]
    refine Triple.seq (Q := fun _ _ => False) (Triple.ofExcept nofun fun e he s hs => ⟨hs,?_⟩)
      fun _ s hs => hs.elim
    rintro ⟨m,d,h⟩
    have heq := h.parsed.symm.trans hparsed
    cases heq
  | ok message =>
  have hsame : ∀ {m d}, Parses lib raw internalDate m d → m = message := fun h =>
    Except.ok.inj (h.parsed.symm.trans hparsed)
  refine Triple.seq (Q := fun m s => m = message ∧ Agrees [] s)
    (Triple.ofExcept (fun m hm s hs => ⟨(Except.ok.inj hm).symm,hs⟩) nofun) fun m => ?_
  rintro s ⟨rfl,hs⟩
  revert s
  cases hdefects : messageDefects lib m with
  | error e =>
    have hknown : knownHeaders lib raw = [] := by
      rw [knownHeaders,hparsed]
      simp only [hdefects]
    rw [hknown]
    refine Triple.seq (Q := fun _ _ => False) (store_triple nofun fun e he s hs => ⟨hs,?_⟩)
      fun _ s hs => hs.elim
    rintro ⟨m,d,h⟩
    cases hsame h
    have heq := h.defects.symm.trans hdefects
    cases heq
  | ok defects =>
  have hknown : knownHeaders lib raw = [] ++ readableHeaders lib m headerNames := by
    rw [knownHeaders,hparsed]
    simp only [hdefects,List.nil_append]
  refine Triple.seq (Q := fun _ s => Agrees [] s ∧ s.defectNames = defects)
    (store_triple ?_ nofun) fun _ => ?_
  · intro d hd s hs
    exact ⟨⟨hs.messageId,hs.inReplyTo,hs.references⟩,(Except.ok.inj hd).symm⟩
  have hheaders := headers_triple m defects headerNames [] (by decide)
  rw [← hknown] at hheaders
  refine Triple.seq (hheaders.weaken_error ?_) fun _ => Triple.assume fun hreadable => ?_
  · rintro - s ⟨hs,hall⟩
    refine ⟨hs,?_⟩
    rintro ⟨m,d,h⟩
    cases hsame h
    exact hall h.headers
  -- what is assigned from here on is no header
  let I : Locals → Prop := fun s => Agrees (knownHeaders lib raw) s ∧ s.defectNames = defects
  have hfail : ∀ s, I s → (∀ {m' d}, Parses lib raw internalDate m' d → False) →
      Agrees (knownHeaders lib raw) s ∧
        ¬ ∃ message defects, Parses lib raw internalDate message defects :=
    fun s hs hall => ⟨hs.1,fun ⟨_,_,h⟩ => hall h⟩
  refine Triple.seq (Q := fun _ s => I s ∧ ∃ date, dateSent lib m internalDate = .ok date)
    (store_triple ?_ ?_) fun _ => Triple.assume fun hdate => ?_
  · intro date hdate s hs
    exact ⟨⟨⟨hs.1.messageId,hs.1.inReplyTo,hs.1.references⟩,hs.2⟩,date,hdate⟩
  · intro e he s hs
    refine hfail s hs fun h => ?_
    cases hsame h
    obtain ⟨date,hdate⟩ := h.date
    rw [he] at hdate
    cases hdate
  refine Triple.seq (Q := fun _ s => I s ∧ validateBase64Payloads lib m = .ok ())
    (Triple.ofExcept (fun _ hbase64 s hs => ⟨hs,hbase64⟩) ?_) fun _ => Triple.assume fun hbase64 => ?_
  · intro e he s hs
    refine hfail s hs fun h => ?_
    cases hsame h
    have heq := h.base64.symm.trans he
    cases heq
  refine store_triple ?_ ?_
  · rintro content hcontent s ⟨hs,hd⟩
    refine ⟨⟨hs.messageId,hs.inReplyTo,hs.references⟩,m,hparsed,?_,hreadable,hdate,hbase64,
      content,hcontent⟩
    rw [hdefects,← hd]
  · intro e he s hs
    refine hfail s hs fun h => ?_
    cases hsame h
    obtain ⟨content,hcontent⟩ := h.content
    rw [he] at hcontent
    cases hcontent

/-! ## What escapes -/

theorem formatParseError_eq_none {defectNames : List ClassName} {error : Option PyException} :
    formatParseError defectNames error = none ↔ defectNames = [] ∧ error = none := by
  have hjoin : ∀ (a : ClassName) (details : List String),
      "; ".intercalate (a.val :: details) ≠ "" := by
    intro a details h
    cases details with
    | nil => exact a.property (by rwa [String.intercalate_singleton] at h)
    | cons b details =>
      rw [String.intercalate_cons_cons] at h
      simp at h
  rw [formatParseError]
  cases defectNames with
  | cons name names =>
    rw [List.eraseDups_cons]
    simp [hjoin]
  | nil =>
    cases error with
    | none => simp
    | some e => simp [e.name.property]

theorem firstWord_error {value : PyText} (h : ∀ c ∈ value, c.isSpace = true) :
    firstWord value = .error .indexError := by
  rw [firstWord,List.dropWhile_eq_nil_iff.mpr h]

theorem searchMessageId_blank {value : PyText} (h : ∀ c ∈ value, c.isSpace = true) :
    searchMessageId value = none := by
  induction value with
  | nil => rfl
  | cons c value ih =>
    have hc : c ≠ .ofChar '<' := by
      rintro rfl
      exact absurd (h _ List.mem_cons_self) (by decide)
    rw [searchMessageId,if_neg fun hand => hc hand.1]
    exact ih fun d hd => h d (List.mem_cons_of_mem c hd)

theorem searchMessageId_ne_nil {value found : PyText} (h : searchMessageId value = some found) :
    found ≠ [] := by
  induction value with
  | nil => cases h
  | cons c value ih =>
    rw [searchMessageId] at h
    split at h
    · cases h
      simp
    · exact ih h

theorem firstMessageId_cons (c : CodePoint) (rest : PyText) :
    firstMessageId (some (c :: rest)) =
      match searchMessageId (c :: rest) with
      | some found => .ok (some found)
      | none => some <$> firstWord (c :: rest) := rfl

/-- A text with a character that is no blank gives an identifier, another one raises. -/
theorem firstMessageId_some {value : PyText} (hne : value ≠ []) :
    (∃ found, found ≠ [] ∧ firstMessageId (some value) = .ok (some found) ∧
      ∃ c ∈ value, c.isSpace = false) ∨
    (firstMessageId (some value) = .error .indexError ∧ ∀ c ∈ value, c.isSpace = true) := by
  obtain ⟨c,rest,rfl⟩ := List.exists_cons_of_ne_nil hne
  by_cases hblank : ∀ d ∈ c :: rest, d.isSpace = true
  · right
    refine ⟨?_,hblank⟩
    rw [firstMessageId_cons,searchMessageId_blank hblank,firstWord_error hblank]
    rfl
  · left
    simp only [not_forall,Bool.not_eq_true] at hblank
    obtain ⟨d,hd,hspace⟩ := hblank
    rw [firstMessageId_cons]
    cases hsearch : searchMessageId (c :: rest) with
    | some found => exact ⟨found,searchMessageId_ne_nil hsearch,rfl,d,hd,hspace⟩
    | none =>
      have hdrop : (c :: rest).dropWhile CodePoint.isSpace ≠ [] := by
        rw [Ne,List.dropWhile_eq_nil_iff]
        intro hall
        rw [hall d hd] at hspace
        cases hspace
      obtain ⟨e,word,hword⟩ := List.exists_cons_of_ne_nil hdrop
      have he : e.isSpace = false := by
        have := List.head?_dropWhile_not CodePoint.isSpace (c :: rest)
        rw [hword] at this
        exact this
      refine ⟨e :: word.takeWhile fun c => !c.isSpace,List.cons_ne_nil _ _,?_,d,hd,hspace⟩
      rw [firstWord,hword]
      simp only [List.takeWhile_cons,he,Bool.not_false,if_true]
      rfl

theorem firstMessageId_ok_iff {value : Option PyText} (hne : value ≠ some []) :
    (∃ key, firstMessageId value = .ok key) ↔ ∀ text ∈ value, ∃ c ∈ text, c.isSpace = false := by
  cases value with
  | none => exact iff_of_true ⟨none,rfl⟩ nofun
  | some text =>
    have htext : text ≠ [] := fun h => hne (congrArg some h)
    rcases firstMessageId_some htext with ⟨found,-,hok,hspace⟩ | ⟨herror,hblank⟩
    · refine iff_of_true ⟨_,hok⟩ fun t ht => ?_
      cases ht
      exact hspace
    · rw [herror]
      refine iff_of_false nofun fun hspace => ?_
      obtain ⟨c,hc,hfalse⟩ := hspace text rfl
      rw [hblank c hc] at hfalse
      cases hfalse

theorem orElse_ok_iff {value : Option PyText} (hne : value ≠ some [])
    {other : Result (Option PyText)} :
    (∃ key, orElse (firstMessageId value) other = .ok key) ↔
      (∀ text ∈ value, ∃ c ∈ text, c.isSpace = false) ∧
        (value = none → ∃ key, other = .ok key) := by
  cases value with
  | none =>
    have hother : orElse (firstMessageId none) other = other := rfl
    simp [hother]
  | some text =>
    have htext : text ≠ [] := fun h => hne (congrArg some h)
    have hiff := firstMessageId_ok_iff hne
    rcases firstMessageId_some htext with ⟨found,hfound,hok,-⟩ | ⟨herror,-⟩
    · obtain ⟨c,rest,rfl⟩ := List.exists_cons_of_ne_nil hfound
      rw [hok] at hiff ⊢
      exact iff_of_true ⟨_,rfl⟩ ⟨hiff.mp ⟨_,rfl⟩,nofun⟩
    · rw [herror] at hiff ⊢
      exact iff_of_false nofun fun hand => nomatch hiff.mpr hand.1

theorem knownText_ne_nil (headers : List (HeaderName × PyText)) (name : HeaderName) :
    knownText headers name ≠ some [] := by
  rw [knownText]
  cases headers.lookup name with
  | none => nofun
  | some text =>
    show orNone text ≠ some []
    rw [orNone]
    by_cases h : text = []
    · rw [if_pos h]
      nofun
    · rw [if_neg h]
      exact fun heq => h (Option.some.inj heq)

theorem deriveThreadKey_ok_iff (headers : List (HeaderName × PyText)) :
    (∃ key, deriveThreadKey (knownText headers .messageId) (knownText headers .inReplyTo)
        (knownText headers .references) = .ok key) ↔
      ∀ text ∈ threadSource headers, ∃ c ∈ text, c.isSpace = false := by
  rw [deriveThreadKey,orElse_ok_iff (knownText_ne_nil headers _),
    orElse_ok_iff (knownText_ne_nil headers _),firstMessageId_ok_iff (knownText_ne_nil headers _),
    threadSource]
  simp only [List.findSome?_cons,List.findSome?_nil]
  cases knownText headers .references <;> cases knownText headers .inReplyTo <;>
    cases knownText headers .messageId <;> simp

/-- Nothing but an identifier that is derived behind the block can raise. -/
theorem parseEml_iff (lib : MailLibrary) (raw : List UInt8) (internalDate : Option Stamp) :
    (∃ message, parseEml lib raw internalDate = .ok message ∧
      (message.parseError = none ↔ ∃ part, Parses lib raw internalDate part [])) ↔
    ∀ text ∈ threadSource (knownHeaders lib raw), ∃ c ∈ text, c.isSpace = false := by
  have hrun : Holds _ _ (readMessage lib raw internalDate {}) :=
    readMessage_triple raw internalDate {} ⟨rfl,rfl,rfl⟩
  rw [← deriveThreadKey_ok_iff,parseEml]
  rcases hread : readMessage lib raw internalDate {} with ⟨outcome,s⟩
  rw [hread] at hrun
  have hagrees : Agrees (knownHeaders lib raw) s := by
    cases outcome with
    | ok _ => exact hrun.1
    | error e => exact hrun.1
  simp only [Except.bind_eq_ok_iff]
  rw [hagrees.messageId,hagrees.inReplyTo,hagrees.references]
  constructor
  · rintro ⟨message,⟨key,hkey,-⟩,-⟩
    exact ⟨key,hkey⟩
  · rintro ⟨key,hkey⟩
    refine ⟨_,⟨key,hkey,rfl⟩,?_⟩
    rw [formatParseError_eq_none]
    cases outcome with
    | ok _ =>
      obtain ⟨-,part,hparses⟩ := hrun
      constructor
      · rintro ⟨hnil,-⟩
        exact ⟨part,hnil ▸ hparses⟩
      · rintro ⟨part',hclean⟩
        cases Except.ok.inj (hclean.parsed.symm.trans hparses.parsed)
        exact ⟨Except.ok.inj (hparses.defects.symm.trans hclean.defects),rfl⟩
    | error e =>
      refine iff_of_false (fun hand => nomatch hand.2) ?_
      rintro ⟨part,hclean⟩
      exact hrun.2 ⟨part,[],hclean⟩

end

/-- A mail without a body or parts, given its headers. -/
def plainMail (headers : List (PyText × PyText)) : MailLibrary where
  toHeaderLibrary := plainLibrary
  Part := Unit
  sha256 _ := []
  parsebytes _ := .ok ()
  walk message := .ok [message]
  defects _ := []
  isMultipart _ := false
  get _ name := .ok (headers.lookup name)
  rawItems _ := .ok headers
  payloadText _ := .ok (some [])
  payload _ := .ok (some (.inr []))
  contentType _ := .ok (pyText "text/plain".toList)
  contentMaintype _ := .ok (pyText "text".toList)
  contentSubtype _ := .ok (pyText "plain".toList)
  contentDisposition _ := .ok none
  contentCharset _ := .ok none
  b64decode _ := .ok []
  decodeReplacing _ bytes := .ok (Utf8.decodeReplace bytes)
  fromBytes _ := .ok none
  soupText html := .ok html

theorem parseEml_blank :
    parseEml (plainMail [(pyText "References".toList,pyText " ".toList)]) [] none =
      .error .indexError := by decide

end Eml

end MailDock
