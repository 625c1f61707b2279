import MailDock.Domain.Messages
import MailDock.Manifest.PstWire

/-!
# Events of a PST manifest

The records of `infrastructure/storage/pst_manifest.py` with the fields the use cases give them, and
the rules by which `append` accepts them.  An event is identified by a key; one whose key is there
already is swallowed when it says the same and refused when it does not.

## Main definitions

- `PstEvent` — an event of one generation
- `PstEvent.key` — its idempotency key
- `validateTransition`, `appendPstEvent` — what the writer accepts
-/

namespace MailDock

open Wire.Pst (EventName)

/-- A file of the staging tree, as `scan_staging` records it. -/
structure StagedItem where
  sourceItemKey : String
  sourceRelativePath : String
  folderRelativePath : String
  sourceSizeBytes : Nat
  sourceSha256 : String
deriving DecidableEq, Repr

/-- The fields of `purge_intent` and `purged`. -/
structure PstPurge where
  accountId : String
  sourceItemKey : String
  relativePath : String
  fileHash : String
  sharedReferenceCount : Nat
  physicalDelete : Bool
deriving DecidableEq, Repr

/-- The fields of an event other than `import_uuid` and `timestamp`.  The `error_class` of a failed
item goes with the name of the event. -/
inductive PstEventBody
  | itemDiscovered (item : StagedItem)
  | itemSaved (sourceItemKey finalRelativePath fileHash : String) (sizeBytes : Nat)
  | itemParseFailed (sourceItemKey errorMessage : String)
  | itemOversize (sourceItemKey errorMessage : String) (sourceSizeBytes : Nat)
  | itemReparsed (sourceItemKey finalRelativePath fileHash : String) (sizeBytes : Nat)
  | importReady (totalFiles : Nat) (inventorySha256 staticManifestSha256 : String)
  | purgeIntent (p : PstPurge)
  | purged (p : PstPurge)
  | generationSwitchPrepared (replacesImportUuid : String)
  | generationSwitchCommitted (replacesImportUuid : String)
  | generationRestored (restoredImportUuid supersededImportUuid : String)
  | generationSuperseded (supersededImportUuid : String)
  | importAbandoned (reason : String)
deriving DecidableEq, Repr

structure PstEvent where
  importUuid : String
  timestamp : String
  body : PstEventBody
deriving DecidableEq, Repr

namespace PstEventBody

def name : PstEventBody → EventName
  | itemDiscovered _ => .itemDiscovered
  | itemSaved .. => .itemSaved
  | itemParseFailed .. => .itemParseFailed
  | itemOversize .. => .itemOversize
  | itemReparsed .. => .itemReparsed
  | importReady .. => .importReady
  | purgeIntent _ => .purgeIntent
  | purged _ => .purged
  | generationSwitchPrepared _ => .generationSwitchPrepared
  | generationSwitchCommitted _ => .generationSwitchCommitted
  | generationRestored .. => .generationRestored
  | generationSuperseded _ => .generationSuperseded
  | importAbandoned _ => .importAbandoned

/-- `event.get("source_item_key")`. -/
def sourceItemKey : PstEventBody → Option String
  | itemDiscovered item => some item.sourceItemKey
  | itemSaved key .. | itemParseFailed key _ | itemOversize key .. | itemReparsed key .. => some key
  | purgeIntent p | purged p => some p.sourceItemKey
  | _ => none

/-- What `_event_key` has behind the name and the import.  An item is known by its key, its
`relative_path` and its `file_hash`, any other event by `replaces_import_uuid` and `reason`, each
`None` where the event has no such field. -/
def keyFields : PstEventBody → List (Option String)
  | itemDiscovered item => [some item.sourceItemKey,none,none]
  | itemSaved key _ fileHash _ | itemReparsed key _ fileHash _ => [some key,none,some fileHash]
  | itemParseFailed key _ | itemOversize key .. => [some key,none,none]
  | purgeIntent p | purged p => [some p.sourceItemKey,some p.relativePath,some p.fileHash]
  | generationSwitchPrepared replaces | generationSwitchCommitted replaces => [some replaces,none]
  | importAbandoned reason => [none,some reason]
  | importReady .. | generationRestored .. | generationSuperseded _ => [none,none]

end PstEventBody

namespace PstEvent

def name (e : PstEvent) : EventName := e.body.name

/-- `_event_key`. -/
def key (e : PstEvent) : EventName × String × List (Option String) :=
  (e.name,e.importUuid,e.body.keyFields)

/-- The events agree on every field but `timestamp`. -/
def sameContent (p e : PstEvent) : Bool := p.importUuid == e.importUuid && p.body == e.body

/-- An earlier event of one of the names for the same item of the same import. -/
def itemPreceded (names : List EventName) (e : PstEvent) (earlier : List PstEvent) : Bool :=
  earlier.any fun p => p.importUuid == e.importUuid &&
    p.body.sourceItemKey == e.body.sourceItemKey && names.contains p.name

/-- The event an event needs before it, and the error without it. -/
def validateOrder (e : PstEvent) (earlier : List PstEvent) : Except Error Unit :=
  let require (condition : Bool) (message : String) : Except Error Unit :=
    if condition then .ok () else .error ⟨.value,message⟩
  match e.body with
  | .itemSaved .. | .itemParseFailed .. | .itemOversize .. =>
    require (e.itemPreceded [.itemDiscovered] earlier)
      (e.name.text ++ " requires item_discovered first")
  | .itemReparsed .. =>
    require (e.itemPreceded [.itemParseFailed,.itemOversize] earlier)
      "item_reparsed requires an earlier parse failure"
  | .purged _ =>
    require (earlier.any fun p => p.name == .purgeIntent && p.key.2 == e.key.2)
      "purged requires a matching purge_intent"
  | .generationSwitchCommitted replaces =>
    require (earlier.any fun p => p.importUuid == e.importUuid &&
      p.body == .generationSwitchPrepared replaces)
      "generation_switch_committed requires generation_switch_prepared"
  | .generationSuperseded _ =>
    require (earlier.any fun p => p.importUuid == e.importUuid &&
      p.name == .generationSwitchCommitted)
      "generation_superseded requires generation_switch_committed"
  | _ => .ok ()

end PstEvent

/-- `_validate_transition`: `false` for an event that is there already. -/
def validateTransition (e : PstEvent) (earlier : List PstEvent) : Except Error Bool :=
  match earlier.find? fun p => p.key == e.key with
  | some p =>
    if p.sameContent e then .ok false
    else .error ⟨.value,"PST manifest contains a conflicting duplicate idempotency key"⟩
  | none => do
    e.validateOrder earlier
    .ok true

/-- `PstManifestWriter.append`: the events of the writer after the call. -/
def appendPstEvent (importUuid : String) (events : List PstEvent) (e : PstEvent) :
    Except Error (List PstEvent) :=
  if e.importUuid ≠ importUuid then
    .error ⟨.value,"PST manifest event import_uuid does not match the writer"⟩
  else
    match validateTransition e events with
    | .ok true => .ok (events ++ [e])
    | .ok false => .ok events
    | .error error => .error error

end MailDock
