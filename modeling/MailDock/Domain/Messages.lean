import Mathlib.Algebra.GroupWithZero.Nat
import Mathlib.Data.List.Infix
import Mathlib.Data.List.Lex

/-!
# Values shared by the use cases

Errors (`domain/errors.py`), the identity keys of remote messages
(`domain/message_identity.py`) and the value objects that fetcher, storage and
parser exchange (`domain/fetcher.py`, `domain/messages.py`).
-/

namespace MailDock

/-- The exception classes the use cases tell apart.  `value` stands for the
built-in `ValueError` and `TypeError`. -/
inductive ErrorKind
  | authentication | transient | rateLimited | permanent | uidValidityChanged | oversize
  | storage | storageDetached | manifestCorrupt | fileNotFound
  | database | cancelled | value
  | unreadableArchive | archiveImport | osError
deriving DecidableEq, Repr

structure Error where
  kind : ErrorKind
  message : String
deriving DecidableEq, Repr

/-- `isinstance(error, FetchError)`. -/
def Error.isFetchError (e : Error) : Bool :=
  match e.kind with
  | .authentication | .transient | .rateLimited | .permanent | .uidValidityChanged
  | .oversize => true
  | _ => false

/-- `isinstance(error, TransientError)`; a rate limit is a transient failure. -/
def Error.isTransient (e : Error) : Bool :=
  match e.kind with
  | .transient | .rateLimited => true
  | _ => false

/-- `isinstance(error, StorageError)`. -/
def Error.isStorageError (e : Error) : Bool :=
  match e.kind with
  | .storage | .storageDetached | .manifestCorrupt => true
  | _ => false

/-- `isinstance(error, AuthenticationError)`. -/
def Error.isAuthentication (e : Error) : Bool := e.kind == .authentication

/-- `isinstance(error, OperationCancelledError)`. -/
def Error.isCancelled (e : Error) : Bool := e.kind == .cancelled

theorem toString_injective {a b : Nat} (h : toString a = toString b) : a = b := by
  rw [Nat.toString_eq_ofList_toDigits,Nat.toString_eq_ofList_toDigits] at h
  have hdigits := congrArg (Nat.ofDigitChars 10 · 0) (String.ofList_injective h)
  simpa only [Nat.ofDigitChars_ten_toDigits] using hdigits

/-- A stable identity key.  The text `imap:{folder_key}:{uidvalidity}:{uid}` or
`gmail:{msgid}` is represented by the parts it is built from; `legacy` holds the
keys of older manifests, which start with neither marker. -/
inductive SourceItemKey
  | imap (folderRawName : String) (uidvalidity uid : Nat)
  | gmail (msgid : Nat)
  | legacy (text : String)
deriving DecidableEq, Repr

/-- `source_item_key.startswith(("imap:", "gmail:"))`. -/
def SourceItemKey.isRemote : SourceItemKey → Bool
  | .imap .. | .gmail _ => true
  | .legacy _ => false

def imapSourceItemKey (folderRawName : String) (uidvalidity uid : Nat) :
    Except Error SourceItemKey :=
  if uid < 1 then
    .error ⟨.value,"uidvalidity and uid must be non-negative and positive respectively"⟩
  else if folderRawName = "" then .error ⟨.value,"folder_raw_name must not be empty"⟩
  else .ok (.imap folderRawName uidvalidity uid)

/-- Gmail ids are the decimal texts `str(int(…))` of a FETCH response, so the
check that the text is decimal always passes. -/
def gmailSourceItemKey (gmailMsgid : Nat) : SourceItemKey := .gmail gmailMsgid

def remoteSourceItemKey (folderRawName : String) (uidvalidity uid : Nat)
    (gmailMsgid : Option Nat) : Except Error SourceItemKey :=
  match gmailMsgid with
  | some msgid => .ok (gmailSourceItemKey msgid)
  | none => imapSourceItemKey folderRawName uidvalidity uid

/-- A point in time, already normalised to UTC. -/
structure DateTime where
  year : Nat
  month : Nat
  day : Nat
  hour : Nat
  minute : Nat
  second : Nat
deriving DecidableEq, Repr

/-- Decimal text of `n` with leading zeros up to the given width. -/
def padded (width n : Nat) : String :=
  let digits := (toString n).toList
  String.ofList (List.replicate (width - digits.length) '0' ++ digits)

def toUtcIso8601 (d : DateTime) : String :=
  padded 4 d.year ++ "-" ++ padded 2 d.month ++ "-" ++ padded 2 d.day ++ "T" ++
    padded 2 d.hour ++ ":" ++ padded 2 d.minute ++ ":" ++ padded 2 d.second ++ "Z"

abbrev Bytes := List UInt8

/-- Metadata obtained before a message is downloaded. -/
structure RemoteMessageRef where
  uid : Nat
  messageId : Option String := none
  internalDate : Option DateTime := none
  sizeBytes : Option Nat := none
  flags : List String := []
  gmailMsgid : Option Nat := none
  gmailThrid : Option Nat := none
  gmailLabels : Option (List String) := none
deriving DecidableEq, Repr

/-- Destination of a MOVE or COPY confirmed by COPYUID. -/
structure RemoteMoveResult where
  uidvalidity : Nat
  uid : Nat
deriving DecidableEq, Repr

structure ParsedAttachment where
  filename : Option String
  isInline : Bool
deriving DecidableEq, Repr

structure ParsedMessage where
  subject : String := ""
  sender : String := ""
  recipient : String := ""
  cc : String := ""
  dateSent : Option DateTime := none
  messageId : Option String := none
  inReplyTo : Option String := none
  referencesIds : Option String := none
  threadKey : Option String := none
  contentKey : Option String := none
  bodyText : String := ""
  attachments : List ParsedAttachment := []
  hasAttachment : Bool := false
  parseError : Option String := none
deriving DecidableEq, Repr

structure StoredEml where
  relativePath : String
  fileHash : String
  sizeBytes : Nat
  deduplicated : Bool := false
deriving DecidableEq, Repr

/-- `a or b` on optional texts: an empty text counts as missing. -/
def orText (a b : Option String) : Option String :=
  match a with
  | some s => if s = "" then b else some s
  | none => b

/-- `has_imap_flag`: the flag occurs as a whitespace-delimited token, in any case. -/
def hasImapFlag (flags flag : String) : Bool :=
  (flags.toList.splitOnP Char.isWhitespace).any fun token =>
    token.map Char.toLower == flag.toList.map Char.toLower

example : hasImapFlag "\\Seen \\FLAGGED" "\\Flagged" = true := by decide

end MailDock
