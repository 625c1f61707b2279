import MailDock.Lib.Checksum
import MailDock.Lib.JsonRoundTrip
import MailDock.Lib.LineLog

/-!
# Manifest records on disk

`infrastructure/storage/manifest.py` at the level of bytes: the schema of a record as
a JSON object, the line it is written as, and the reader that cuts off a torn tail.
-/

namespace MailDock.Wire

/-- The exceptions a record can raise. -/
inductive Exception
  | typeError | valueError | keyError | overflowError | manifestCorrupt
deriving DecidableEq, Repr

structure Raised where
  exception : Exception
  message : String
deriving DecidableEq, Repr

/-- `except (TypeError, ValueError)`. -/
def Raised.isTypeOrValue (r : Raised) : Bool :=
  r.exception = .typeError || r.exception = .valueError

/-- What `datetime.fromisoformat(text).astimezone(UTC)` gives: the text is no time stamp, it has
no time zone, its time in UTC is out of range, or the month `%Y%m` of it. -/
inductive IsoTime
  | invalid | naive | outOfRange
  | utc (month : String)
deriving DecidableEq, Repr

/-- What the records take from the interpreter. -/
structure Runtime extends Json.Host where
  fromisoformat : String → IsoTime
  casefold : String → String
  /-- `uuid.UUID(text).version`, `none` when the text is no UUID. -/
  uuidVersion : String → Option (Option Nat)
  /-- `repr(payload.get("event"))`. -/
  repr : Option Json.Value → String
  /-- `==` on two numbers of which one is a float, given by its text. -/
  sameNumber : Json.Value → Json.Value → Bool

/-- A dictionary of JSON values, its keys in order. -/
abbrev Dict := List (String × Json.Value)

/-- An event as the program holds it. -/
structure Event (rt : Runtime) where
  fields : Dict
  canonical : Json.canonical rt.toHost (.obj fields) = true

namespace Dict

def get (payload : Dict) (field : String) : Option Json.Value := payload.lookup field

def has (payload : Dict) (field : String) : Bool := (payload.get field).isSome

end Dict

def require (condition : Bool) (exception : Exception) (message : String) : Except Raised Unit :=
  if condition then .ok () else .error ⟨exception,message⟩

/-- `isinstance(value, int) and not isinstance(value, bool)`. -/
def isInt : Option Json.Value → Bool
  | some (.int _) => true
  | _ => false

def isBool : Option Json.Value → Bool
  | some (.bool _) => true
  | _ => false

def isStr : Option Json.Value → Bool
  | some (.str _) => true
  | _ => false

/-- `isinstance(value, str) and value`. -/
def isText : Option Json.Value → Bool
  | some (.str s) => s ≠ ""
  | _ => false

def isNonNegative : Option Json.Value → Bool
  | some (.int n) => 0 ≤ n
  | _ => false

/-- `value is None`, also of a field that is missing. -/
def isNone : Option Json.Value → Bool
  | none | some .null => true
  | _ => false

/-- The text of a list of field names. -/
def listRepr (fields : List String) : String :=
  "[" ++ String.intercalate ", " (fields.map fun field => "'" ++ field ++ "'") ++ "]"

/-- `_require_fields`; `fields` is listed in the order `sorted` gives. -/
def requireFields (payload : Dict) (fields : List String) (eventName : String) :
    Except Raised Unit :=
  let missing := fields.filter fun field => !payload.has field
  require (missing = []) .valueError
    (eventName ++ " event is missing required fields: " ++ listRepr missing)

/-- `_parse_timestamp`; the result is the month of the time in UTC. -/
def parseTimestampOf (label : String) (rt : Runtime) (value : Option Json.Value) :
    Except Raised String :=
  match value with
  | some (.str text) =>
    let normalized :=
      if text.toList.getLast? = some 'Z' then String.ofList text.toList.dropLast ++ "+00:00"
      else text
    match rt.fromisoformat normalized with
    | .invalid => .error ⟨.valueError,label ++ " timestamp is invalid"⟩
    | .naive => .error ⟨.valueError,label ++ " timestamp must include a timezone"⟩
    | .outOfRange => .error ⟨.overflowError,"date value out of range"⟩
    | .utc month => .ok month
  | _ => .error ⟨.valueError,label ++ " timestamp must be an ISO-8601 string"⟩

def parseTimestamp : Runtime → Option Json.Value → Except Raised String :=
  parseTimestampOf "manifest event"

/-! ## The IMAP schema -/

inductive EventName
  | fetch | fetchSkipped | parseFailed | deleteDetected | moved | remoteStateUnknown | checkpoint
  | accountSnapshot | folderSnapshot | purgeIntent | purged | remoteDeleteIntent
  | remoteDeleteCompleted | remoteDeleteUncertain | messageMembershipSnapshot
  | messageIdentityLinked
deriving DecidableEq, Repr

def EventName.text : EventName → String
  | .fetch => "fetch"
  | .fetchSkipped => "fetch_skipped"
  | .parseFailed => "parse_failed"
  | .deleteDetected => "delete_detected"
  | .moved => "moved"
  | .remoteStateUnknown => "remote_state_unknown"
  | .checkpoint => "checkpoint"
  | .accountSnapshot => "account_snapshot"
  | .folderSnapshot => "folder_snapshot"
  | .purgeIntent => "purge_intent"
  | .purged => "purged"
  | .remoteDeleteIntent => "remote_delete_intent"
  | .remoteDeleteCompleted => "remote_delete_completed"
  | .remoteDeleteUncertain => "remote_delete_uncertain"
  | .messageMembershipSnapshot => "message_membership_snapshot"
  | .messageIdentityLinked => "message_identity_linked"

/-- `_MANIFEST_EVENTS`. -/
def manifestEvents : List EventName :=
  [.fetch,.fetchSkipped,.parseFailed,.deleteDetected,.moved,.remoteStateUnknown,.checkpoint,
    .accountSnapshot,.folderSnapshot,.purgeIntent,.purged,.remoteDeleteIntent,
    .remoteDeleteCompleted,.remoteDeleteUncertain,.messageMembershipSnapshot,
    .messageIdentityLinked]

/-- The name under `event`, when it is a supported one. -/
def eventNameOf (payload : Dict) : Option EventName :=
  match payload.get "event" with
  | some (.str s) => manifestEvents.find? fun name => name.text = s
  | _ => none

def requireText (payload : Dict) (eventName field : String) : Except Raised Unit :=
  require (isText (payload.get field)) .typeError
    (eventName ++ " event " ++ field ++ " must be a non-empty string")

/-- `_validate_checkpoint_sequence`. -/
def validateCheckpointSequence (sequence : Option Json.Value) (previous : Option Int) :
    Except Raised Int :=
  match sequence with
  | some (.int n) =>
    if n < 0 then .error ⟨.valueError,"checkpoint event sequence must be a non-negative integer"⟩
    else if ∃ p ∈ previous, n ≤ p then
      .error ⟨.valueError,"checkpoint event sequence must increase monotonically"⟩
    else .ok n
  | _ => .error ⟨.valueError,"checkpoint event sequence must be a non-negative integer"⟩

def validateFetch (rt : Runtime) (payload : Dict) : Except Raised Unit := do
  requireFields payload ["account_id","deduplicated","event","file_hash","folder_raw_name",
    "message_id","relative_path","size_bytes","source_item_key","timestamp","uid",
    "uidvalidity"] "fetch"
  require (isInt (payload.get "uid")) .typeError "fetch event uid must be an integer"
  require (isInt (payload.get "uidvalidity")) .typeError
    "fetch event uidvalidity must be an integer"
  require (isInt (payload.get "size_bytes")) .typeError "fetch event size_bytes must be an integer"
  require (isBool (payload.get "deduplicated")) .typeError
    "fetch event deduplicated must be a boolean"
  if isNone (payload.get "internal_date") then .ok ()
  else do
    require (isStr (payload.get "internal_date")) .typeError
      "fetch event internal_date must be an ISO-8601 string or null"
    let _ ← parseTimestamp rt (payload.get "internal_date")
    .ok ()

def validateFetchSkipped (payload : Dict) : Except Raised Unit := do
  requireFields payload ["reason","size_bytes","uid","uidvalidity"] "fetch_skipped"
  require (!payload.has "relative_path" && !payload.has "file_hash") .valueError
    "fetch_skipped events must not contain EML path or hash"

def validateCheckpoint (payload : Dict) : Except Raised Unit := do
  requireFields payload ["account_id","batch_id","event","sequence","timestamp"] "checkpoint"
  requireText payload "checkpoint" "account_id"
  requireText payload "checkpoint" "batch_id"
  let _ ← validateCheckpointSequence (payload.get "sequence") none
  .ok ()

/-- `_SECRET_FIELD_PARTS`. -/
def secretFieldParts : List String := ["password","passwd","secret","token","credential"]

def validateAccountSnapshot (rt : Runtime) (payload : Dict) : Except Raised Unit := do
  requireFields payload ["account_id","display_name","event","host","port","provider_type",
    "timestamp","username"] "account_snapshot"
  requireText payload "account_snapshot" "account_id"
  ["provider_type","host","username"].forM (requireText payload "account_snapshot")
  require (isNone (payload.get "display_name") || isStr (payload.get "display_name")) .typeError
    "account_snapshot event display_name must be a string or null"
  require (!payload.has "is_enabled" || isBool (payload.get "is_enabled") ||
    isInt (payload.get "is_enabled")) .typeError
    "account_snapshot event is_enabled must be a boolean or integer"
  require (isInt (payload.get "port")) .typeError "account_snapshot event port must be an integer"
  require (payload.all fun field => secretFieldParts.all fun part =>
      !decide (part.toList <:+: (rt.casefold field.1).toList)) .valueError
    "account_snapshot events must not contain credentials or tokens"

def validateFolderSnapshot (payload : Dict) : Except Raised Unit := do
  requireFields payload ["account_id","delimiter","display_name","event","folder_raw_name",
    "timestamp","uidvalidity"] "folder_snapshot"
  ["account_id","folder_raw_name","display_name"].forM (requireText payload "folder_snapshot")
  require (isNone (payload.get "uidvalidity") || isInt (payload.get "uidvalidity")) .typeError
    "folder_snapshot event uidvalidity must be an integer or null"
  require (isNone (payload.get "delimiter") || isStr (payload.get "delimiter")) .typeError
    "folder_snapshot event delimiter must be a string or null"
  require (!payload.has "is_sync_target" || isBool (payload.get "is_sync_target") ||
    isInt (payload.get "is_sync_target")) .typeError
    "folder_snapshot event is_sync_target must be a boolean or integer"

def validatePurge (eventName : String) (payload : Dict) : Except Raised Unit := do
  requireFields payload ["account_id","event","file_hash","physical_delete","relative_path",
    "shared_reference_count","source_item_key","timestamp"] eventName
  ["account_id","source_item_key","relative_path","file_hash"].forM (requireText payload eventName)
  require (isNonNegative (payload.get "shared_reference_count")) .typeError
    "purge event shared_reference_count must be a non-negative integer"
  require (isBool (payload.get "physical_delete")) .typeError
    "purge event physical_delete must be a boolean"

/-- `mode not in {"trash", "expunge"}`: a list or a dictionary cannot be looked up in a set. -/
def validateMode (eventName : String) : Option Json.Value → Except Raised Unit
  | some (.arr _) => .error ⟨.typeError,"unhashable type: 'list'"⟩
  | some (.obj _) => .error ⟨.typeError,"unhashable type: 'dict'"⟩
  | some (.str mode) => require (mode = "trash" || mode = "expunge") .valueError
      (eventName ++ " event mode must be 'trash' or 'expunge'")
  | _ => .error ⟨.valueError,eventName ++ " event mode must be 'trash' or 'expunge'"⟩

def validateRemoteDelete (eventName : String) (payload : Dict) : Except Raised Unit := do
  requireFields payload ["account_id","event","folder_raw_name","mode","timestamp","uid",
    "uidvalidity"] eventName
  requireText payload eventName "account_id"
  requireText payload eventName "folder_raw_name"
  require (isInt (payload.get "uid")) .typeError (eventName ++ " event uid must be an integer")
  require (isInt (payload.get "uidvalidity")) .typeError
    (eventName ++ " event uidvalidity must be an integer")
  validateMode eventName (payload.get "mode")

def validateMoved (payload : Dict) : Except Raised Unit := do
  requireFields payload ["account_id","event","folder_raw_name","moved_to_folder_raw_name",
    "source_item_key","timestamp","uid","uidvalidity"] "moved"
  ["account_id","folder_raw_name","moved_to_folder_raw_name","source_item_key"].forM
    (requireText payload "moved")
  require (isInt (payload.get "uid")) .typeError "moved event uid must be an integer"
  require (isInt (payload.get "uidvalidity")) .typeError
    "moved event uidvalidity must be an integer"

def validateMembership : Json.Value → Except Raised Unit
  | .obj membership => do
    ["folder_raw_name","remote_state"].forM fun field =>
      require (isText (Dict.get membership field)) .typeError
        ("membership snapshot " ++ field ++ " must be a non-empty string")
    ["uid","uidvalidity"].forM fun field =>
      require (isNone (Dict.get membership field) || isInt (Dict.get membership field)) .typeError
        ("membership snapshot " ++ field ++ " must be an integer or null")
    ["moved_to_folder_raw_name","imap_flags","flags_seen_at","last_seen_at"].forM fun field =>
      require (isNone (Dict.get membership field) || isStr (Dict.get membership field)) .typeError
        ("membership snapshot " ++ field ++ " must be a string or null")
  | _ => .error ⟨.typeError,"membership snapshot entries must be objects"⟩

def isStringList : Option Json.Value → Bool
  | some (.arr labels) => labels.all fun label => isStr (some label)
  | _ => false

def validateMembershipSnapshot (payload : Dict) : Except Raised Unit := do
  requireFields payload ["account_id","event","memberships","source_item_key","timestamp"]
    "message_membership_snapshot"
  requireText payload "message_membership_snapshot" "account_id"
  requireText payload "message_membership_snapshot" "source_item_key"
  match payload.get "memberships" with
  | some (.arr memberships) => memberships.forM validateMembership
  | _ => .error ⟨.typeError,"message_membership_snapshot memberships must be a list"⟩
  require (isNone (payload.get "gmail_labels") || isStringList (payload.get "gmail_labels"))
    .typeError "message_membership_snapshot gmail_labels must be a string list"

def validateIdentityLinked (payload : Dict) : Except Raised Unit := do
  requireFields payload ["account_id","alias_source_item_key","canonical_source_item_key","event",
    "evidence_kind","file_hash","timestamp"] "message_identity_linked"
  ["account_id","canonical_source_item_key","alias_source_item_key","evidence_kind",
    "file_hash"].forM (requireText payload "message_identity_linked")
  match payload.get "canonical_source_item_key", payload.get "alias_source_item_key" with
  | some (.str canonicalKey), some (.str aliasKey) =>
    require (canonicalKey ≠ aliasKey) .valueError
      "identity link canonical and alias keys must differ"
  | _, _ => .ok ()

/-- The part of `_validate_event` that depends on the name.  Nothing more is asked of
`parse_failed`, `delete_detected` and `remote_state_unknown`. -/
def validateFields (rt : Runtime) (name : EventName) (payload : Dict) : Except Raised Unit :=
  match name with
  | .fetch => validateFetch rt payload
  | .fetchSkipped => validateFetchSkipped payload
  | .checkpoint => validateCheckpoint payload
  | .accountSnapshot => validateAccountSnapshot rt payload
  | .folderSnapshot => validateFolderSnapshot payload
  | .purgeIntent | .purged => validatePurge name.text payload
  | .remoteDeleteIntent | .remoteDeleteCompleted | .remoteDeleteUncertain =>
    validateRemoteDelete name.text payload
  | .moved => validateMoved payload
  | .messageMembershipSnapshot => validateMembershipSnapshot payload
  | .messageIdentityLinked => validateIdentityLinked payload
  | .parseFailed | .deleteDetected | .remoteStateUnknown => .ok ()

/-- `_validate_event`.  `_is_json_value` holds of every `Json.Value`. -/
def validateEvent (rt : Runtime) (payload : Dict) : Except Raised Unit :=
  match eventNameOf payload with
  | none =>
    .error ⟨.valueError,"unsupported manifest event: " ++ rt.repr (payload.get "event")⟩
  | some name => do
    let _ ← parseTimestamp rt (payload.get "timestamp")
    validateFields rt name payload

/-! ## Lines -/

/-- `|CRC32:`. -/
def crcSeparator : List UInt8 := [0x7C,0x43,0x52,0x43,0x33,0x32,0x3A]

def newline : UInt8 := 0x0A

/-- The canonical JSON of a payload in UTF-8. -/
def encodePayload (payload : Dict) : List UInt8 := Json.utf8Encode (Json.dump (.obj payload))

/-- A payload with its checksum and the end of its line. -/
def encodeLine (payload : Dict) : List UInt8 :=
  encodePayload payload ++ crcSeparator ++
    Checksum.hex8 (Checksum.crc32 (encodePayload payload)).toNat ++ [newline]

def dumpRaised : Json.DumpError → Raised
  | .outOfRangeFloat => ⟨.valueError,"Out of range float values are not JSON compliant"⟩
  | .tooManyDigits => ⟨.valueError,"Exceeds the limit (4300 digits) for integer string " ++
      "conversion; use sys.set_int_max_str_digits() to increase the limit"⟩

/-- `_encode_event`, after the schema was checked. -/
def dumpLine (payload : Dict) : Except Raised (List UInt8) :=
  match Json.dumpError (.obj payload) with
  | some e => .error (dumpRaised e)
  | none => .ok (encodeLine payload)

/-- `_encode_event`. -/
def encodeEvent (rt : Runtime) (payload : Dict) : Except Raised (List UInt8) := do
  validateEvent rt payload
  dumpLine payload

/-- What both `_parse_line`s do, up to the schema and the label in the messages. -/
def parseLineOf (label : String) (validate : Dict → Except Raised Unit) (rt : Runtime)
    (line : List UInt8) : Except Raised Dict :=
  if line.getLast? ≠ some newline then
    .error ⟨.manifestCorrupt,label ++ " record is missing its trailing newline"⟩
  else
    match Checksum.searchSuffix crcSeparator line.dropLast with
    | none => .error ⟨.manifestCorrupt,label ++ " record has no valid CRC32 suffix"⟩
    | some (payload,checksum) =>
      if (Checksum.crc32 payload).toNat ≠ checksum then
        .error ⟨.manifestCorrupt,label ++ " record CRC32 does not match its payload"⟩
      else
        match Json.loads rt.toHost payload with
        | .error .decode => .error ⟨.manifestCorrupt,label ++ " record contains invalid JSON"⟩
        | .error .value => .error (dumpRaised .tooManyDigits)
        | .ok (.obj decoded) =>
          match validate decoded with
          | .ok () => .ok decoded
          | .error raised =>
            if raised.isTypeOrValue then
              .error ⟨.manifestCorrupt,label ++ " record does not satisfy the event schema"⟩
            else .error raised
        | .ok _ => .error ⟨.manifestCorrupt,label ++ " record must be a JSON object"⟩

/-- `_parse_line`. -/
def parseLine (rt : Runtime) (line : List UInt8) : Except Raised Dict :=
  parseLineOf "manifest" (validateEvent rt) rt line

/-! ## Writing and reading -/

/-- The `last_checkpoint_sequence` after an event. -/
def nextSequence (lastCheckpointSequence : Option Int) (payload : Dict) :
    Except Raised (Option Int) :=
  if eventNameOf payload = some .checkpoint then
    some <$> validateCheckpointSequence (payload.get "sequence") lastCheckpointSequence
  else .ok lastCheckpointSequence

/-- `ManifestWriter.append`: the new `last_checkpoint_sequence`, the month of the file and the
line that is written to it. -/
def append (rt : Runtime) (lastCheckpointSequence : Option Int) (payload : Dict) :
    Except Raised (Option Int × String × List UInt8) := do
  validateEvent rt payload
  let next ← nextSequence lastCheckpointSequence payload
  let encoded ← encodeEvent rt payload
  let month ← parseTimestamp rt (payload.get "timestamp")
  .ok (next,month,encoded)

/-- A corrupt record is torn when no line follows; any other exception leaves the reader. -/
def verdictOf {σ ρ : Type} (record : Except Raised ρ)
    (accept : ρ → LineLog.Verdict σ ρ Raised) : LineLog.Verdict σ ρ Raised :=
  match record with
  | .ok r => accept r
  | .error raised =>
    if raised.exception = .manifestCorrupt then .malformed raised else .invalid raised

/-- One line of `read_events`: a checkpoint out of order is an error wherever it stands. -/
def readLine (rt : Runtime) (lastCheckpointSequence : Option Int) (line : List UInt8) :
    LineLog.Verdict (Option Int) Dict Raised :=
  verdictOf (parseLine rt line) fun event =>
    match nextSequence lastCheckpointSequence event with
    | .ok sequence => .accept sequence event
    | .error _ => .invalid
        ⟨.manifestCorrupt,"manifest checkpoint sequences are not strictly increasing"⟩

/-- `read_events`: what is yielded, and an error or the offset the file is cut at. -/
def readEvents (rt : Runtime) (file : List UInt8) : List Dict × Except Raised (Option Nat) :=
  LineLog.walk (readLine rt) none 0 (LineLog.lines newline file)

end MailDock.Wire
