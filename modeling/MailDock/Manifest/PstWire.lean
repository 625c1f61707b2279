import MailDock.Manifest.Wire

/-!
# PST manifest records on disk

`infrastructure/storage/pst_manifest.py`: the same lines as the IMAP manifest with a
schema and a lifecycle of their own.
-/

namespace MailDock.Wire.Pst

open Json (Value)

inductive EventName
  | itemDiscovered | itemSaved | itemParseFailed | itemOversize | itemReparsed | importReady
  | purgeIntent | purged | generationSwitchPrepared | generationSwitchCommitted
  | generationRestored | generationSuperseded | importAbandoned
deriving DecidableEq, Repr

def EventName.text : EventName → String
  | .itemDiscovered => "item_discovered"
  | .itemSaved => "item_saved"
  | .itemParseFailed => "item_parse_failed"
  | .itemOversize => "item_oversize"
  | .itemReparsed => "item_reparsed"
  | .importReady => "import_ready"
  | .purgeIntent => "purge_intent"
  | .purged => "purged"
  | .generationSwitchPrepared => "generation_switch_prepared"
  | .generationSwitchCommitted => "generation_switch_committed"
  | .generationRestored => "generation_restored"
  | .generationSuperseded => "generation_superseded"
  | .importAbandoned => "import_abandoned"

/-- `_EVENTS`. -/
def events : List EventName :=
  [.itemDiscovered,.itemSaved,.itemParseFailed,.itemOversize,.itemReparsed,.importReady,
    .purgeIntent,.purged,.generationSwitchPrepared,.generationSwitchCommitted,
    .generationRestored,.generationSuperseded,.importAbandoned]

def eventNameOf (payload : Dict) : Option EventName :=
  match payload.get "event" with
  | some (.str s) => events.find? fun name => name.text = s
  | _ => none

/-- `_require_text`. -/
def requireText (payload : Dict) (context field : String) : Except Raised String :=
  match payload.get field with
  | some (.str s) =>
    if s = "" then .error ⟨.valueError,context ++ " " ++ field ++ " must be a non-empty string"⟩
    else .ok s
  | _ => .error ⟨.valueError,context ++ " " ++ field ++ " must be a non-empty string"⟩

/-- `_validate_import_uuid`. -/
def validateImportUuid (rt : Runtime) (importUuid : String) : Except Raised Unit :=
  match rt.uuidVersion importUuid with
  | none => .error ⟨.valueError,"import_uuid must be a UUID"⟩
  | some version => require (version = some 4) .valueError "import_uuid must be a version 4 UUID"

def parseTimestamp : Runtime → Option Value → Except Raised String :=
  parseTimestampOf "PST manifest"

/-- `^[0-9a-f]{64}$`. -/
def isSha256 (s : String) : Bool :=
  s.toList.length = 64 &&
    s.toList.all fun c => ('0' ≤ c && c ≤ '9') || ('a' ≤ c && c ≤ 'f')

/-- `_validate_sha256`. -/
def validateSha256 (value : Option Value) (field : String) : Except Raised Unit :=
  match value with
  | some (.str s) => require (isSha256 s) .valueError
      ("PST manifest " ++ field ++ " must be a lowercase SHA-256 hex string")
  | _ => .error
      ⟨.valueError,"PST manifest " ++ field ++ " must be a lowercase SHA-256 hex string"⟩

/-- `_require_non_negative_int`; the field is looked up, not asked for. -/
def requireNonNegativeInt (payload : Dict) (field eventName : String) : Except Raised Unit :=
  match payload.get field with
  | none => .error ⟨.keyError,"'" ++ field ++ "'"⟩
  | some value => require (isNonNegative (some value)) .typeError
      (eventName ++ " " ++ field ++ " must be a non-negative integer")

def requireItemKey (payload : Dict) (eventName : String) : Except Raised String :=
  requireText payload eventName "source_item_key"

/-- A field that names another import generation. -/
def requireUuid (rt : Runtime) (payload : Dict) (eventName field : String) :
    Except Raised Unit := do
  let importUuid ← requireText payload eventName field
  validateImportUuid rt importUuid

/-- The part of `_validate_event` that depends on the name.  `item_oversize` needs a
`source_size_bytes` that is not among its required fields. -/
def validateFields (rt : Runtime) (name : EventName) (payload : Dict) : Except Raised Unit :=
  match name with
  | .itemDiscovered => do
    requireFields payload ["folder_relative_path","source_item_key","source_relative_path",
      "source_sha256","source_size_bytes"] name.text
    let _ ← requireItemKey payload name.text
    let _ ← requireText payload name.text "source_relative_path"
    let _ ← requireText payload name.text "folder_relative_path"
    requireNonNegativeInt payload "source_size_bytes" name.text
    validateSha256 (payload.get "source_sha256") "source_sha256"
  | .itemSaved | .itemReparsed => do
    requireFields payload ["file_hash","final_relative_path","size_bytes","source_item_key"]
      name.text
    let _ ← requireItemKey payload name.text
    let _ ← requireText payload name.text "final_relative_path"
    validateSha256 (payload.get "file_hash") "file_hash"
    requireNonNegativeInt payload "size_bytes" name.text
  | .itemParseFailed | .itemOversize => do
    requireFields payload ["error_class","error_message","source_item_key"] name.text
    let _ ← requireItemKey payload name.text
    let _ ← requireText payload name.text "error_class"
    require (isStr (payload.get "error_message")) .typeError
      (name.text ++ " error_message must be a string")
    if name = .itemOversize then requireNonNegativeInt payload "source_size_bytes" name.text
    else .ok ()
  | .importReady => do
    requireFields payload ["inventory_sha256","static_manifest_sha256","total_files"] name.text
    requireNonNegativeInt payload "total_files" name.text
    validateSha256 (payload.get "inventory_sha256") "inventory_sha256"
    validateSha256 (payload.get "static_manifest_sha256") "static_manifest_sha256"
  | .purgeIntent | .purged => do
    requireFields payload ["file_hash","physical_delete","relative_path",
      "shared_reference_count","source_item_key"] name.text
    let _ ← requireItemKey payload name.text
    let _ ← requireText payload name.text "relative_path"
    validateSha256 (payload.get "file_hash") "file_hash"
    requireNonNegativeInt payload "shared_reference_count" name.text
    require (isBool (payload.get "physical_delete")) .typeError
      (name.text ++ " physical_delete must be a boolean")
  | .generationSwitchPrepared | .generationSwitchCommitted =>
    requireUuid rt payload name.text "replaces_import_uuid"
  | .generationSuperseded => requireUuid rt payload name.text "superseded_import_uuid"
  | .generationRestored => do
    let restored ← requireText payload name.text "restored_import_uuid"
    let superseded ← requireText payload name.text "superseded_import_uuid"
    validateImportUuid rt restored
    validateImportUuid rt superseded
  | .importAbandoned => do
    let _ ← requireText payload name.text "reason"
    .ok ()

/-- `_validate_event`. -/
def validateEvent (rt : Runtime) (payload : Dict) : Except Raised Unit :=
  match eventNameOf payload with
  | none =>
    .error ⟨.valueError,"unsupported PST manifest event: " ++ rt.repr (payload.get "event")⟩
  | some name => do
    requireUuid rt payload name.text "import_uuid"
    let _ ← parseTimestamp rt (payload.get "timestamp")
    validateFields rt name payload
    if payload.has "account_id" then do
      let _ ← requireText payload name.text "account_id"
      .ok ()
    else .ok ()

/-- `_encode_event`. -/
def encodeEvent (rt : Runtime) (payload : Dict) : Except Raised (List UInt8) := do
  validateEvent rt payload
  dumpLine payload

/-- `_parse_line`. -/
def parseLine (rt : Runtime) (line : List UInt8) : Except Raised Dict :=
  parseLineOf "PST manifest" (validateEvent rt) rt line

/-! ## The lifecycle -/

/-- A number that is no float. -/
def asInt : Value → Option Int
  | .bool b => some (if b then 1 else 0)
  | .int n => some n
  | _ => none

def isFloat : Value → Bool
  | .float _ => true
  | _ => false

mutual

/-- `==` on JSON values: a boolean equals the number it stands for. -/
def sameValue (rt : Runtime) : Value → Value → Bool
  | .null, .null => true
  | .str s, .str t => s = t
  | .arr xs, .arr ys => sameItems rt xs ys
  | .obj fs, .obj gs => sameFields rt fs gs
  | v, w =>
    match asInt v, asInt w with
    | some m, some n => m = n
    | some _, none => isFloat w && rt.sameNumber v w
    | none, some _ => isFloat v && rt.sameNumber v w
    | none, none => isFloat v && isFloat w && rt.sameNumber v w

def sameItems (rt : Runtime) : List Value → List Value → Bool
  | [], [] => true
  | v :: vs, w :: ws => sameValue rt v w && sameItems rt vs ws
  | _, _ => false

def sameFields (rt : Runtime) : Dict → Dict → Bool
  | [], [] => true
  | (k,v) :: fs, (l,w) :: gs => k = l && sameValue rt v w && sameFields rt fs gs
  | _, _ => false

end

/-- `==` on what `get` returns; a missing field is `None`. -/
def same (rt : Runtime) (v w : Option Value) : Bool :=
  sameValue rt (v.getD .null) (w.getD .null)

/-- `_event_key`, without the name of the event. -/
def keyFields : EventName → List String
  | .itemDiscovered | .itemSaved | .itemParseFailed | .itemOversize | .itemReparsed
  | .purgeIntent | .purged => ["import_uuid","source_item_key","relative_path","file_hash"]
  | _ => ["import_uuid","replaces_import_uuid","reason"]

/-- `_event_key(previous)[1:] == _event_key(event)[1:]`. -/
def sameKeyFields (rt : Runtime) (previous event : Dict) : Bool :=
  match eventNameOf previous, eventNameOf event with
  | some p, some e => keyFields p = keyFields e &&
      (keyFields p).all fun field => same rt (previous.get field) (event.get field)
  | _, _ => false

/-- `_event_key(previous) == _event_key(event)`. -/
def sameKey (rt : Runtime) (previous event : Dict) : Bool :=
  eventNameOf previous = eventNameOf event && sameKeyFields rt previous event

def withoutTimestamp (payload : Dict) : Dict := payload.filter fun field => field.1 ≠ "timestamp"

/-- An earlier event of one of the names that agrees on the fields. -/
def precededBy (rt : Runtime) (names : List EventName) (fields : List String) (event : Dict)
    (earlier : List Dict) : Bool :=
  earlier.any fun previous => (eventNameOf previous).any (fun name => name ∈ names) &&
    fields.all fun field => same rt (previous.get field) (event.get field)

/-- The event an event needs before it. -/
def validateOrder (rt : Runtime) (name : EventName) (event : Dict) (earlier : List Dict) :
    Except Raised Unit :=
  match name with
  | .itemSaved | .itemParseFailed | .itemOversize =>
    require (precededBy rt [.itemDiscovered] ["import_uuid","source_item_key"] event earlier)
      .valueError (name.text ++ " requires item_discovered first")
  | .itemReparsed =>
    require (precededBy rt [.itemParseFailed,.itemOversize] ["import_uuid","source_item_key"] event
      earlier) .valueError "item_reparsed requires an earlier parse failure"
  | .purged =>
    require (earlier.any fun previous => eventNameOf previous = some .purgeIntent &&
      sameKeyFields rt previous event) .valueError "purged requires a matching purge_intent"
  | .generationSwitchCommitted =>
    require (precededBy rt [.generationSwitchPrepared] ["import_uuid","replaces_import_uuid"] event
      earlier) .valueError "generation_switch_committed requires generation_switch_prepared"
  | .generationSuperseded =>
    require (precededBy rt [.generationSwitchCommitted] ["import_uuid"] event earlier) .valueError
      "generation_superseded requires generation_switch_committed"
  | _ => .ok ()

/-- `_validate_transition`: `false` for an event that is there already. -/
def validateTransition (rt : Runtime) (event : Dict) (earlier : List Dict) : Except Raised Bool :=
  match eventNameOf event with
  | none => .error ⟨.keyError,"'event'"⟩
  | some name =>
    match earlier.find? fun previous => sameKey rt previous event with
    | some previous =>
      if sameFields rt (withoutTimestamp previous) (withoutTimestamp event) then .ok false
      else .error
        ⟨.valueError,"PST manifest contains a conflicting duplicate idempotency key"⟩
    | none => do
      validateOrder rt name event earlier
      .ok true

/-- `PstManifestWriter.append`: the line that is written, `none` for an event that is there
already. -/
def append (rt : Runtime) (importUuid : String) (earlier : List Dict) (payload : Dict) :
    Except Raised (Option (List UInt8)) := do
  validateEvent rt payload
  require (same rt (payload.get "import_uuid") (some (.str importUuid))) .valueError
    "PST manifest event import_uuid does not match the writer"
  let isNew ← validateTransition rt payload earlier
  if isNew then some <$> encodeEvent rt payload else .ok none

/-- One line of `read_events`: a transition the lifecycle rules out is torn like a line that
cannot be parsed. -/
def readLine (rt : Runtime) (earlier : List Dict) (line : List UInt8) :
    LineLog.Verdict (List Dict) Dict Raised :=
  verdictOf (parseLine rt line) fun event =>
    match validateTransition rt event earlier with
    | .ok _ => .accept (earlier ++ [event]) event
    | .error raised =>
      if raised.isTypeOrValue then
        .malformed ⟨.manifestCorrupt,"PST manifest event sequence is invalid"⟩
      else .invalid raised

/-- `read_events`. -/
def readEvents (rt : Runtime) (file : List UInt8) : List Dict × Except Raised (Option Nat) :=
  LineLog.walk (readLine rt) [] 0 (LineLog.lines newline file)

end MailDock.Wire.Pst
