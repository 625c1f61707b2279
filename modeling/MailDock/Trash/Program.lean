import MailDock.App.Log
import MailDock.Manifest.Intents

/-!
# Local trash and purge

`usecases/trash.py` for the messages of an IMAP account.  A message goes to the trash
and back by its local state alone.  A purge announces itself in the manifest, deletes
the EML when no other message refers to it, records that it is done and only then
changes the database; `recover_incomplete_purges` takes up the purges that were
interrupted.
-/

namespace MailDock

namespace Tables

/-- `count_path_references`. -/
def countPathReferences (t : Tables) (accountId relativePath : String) (excludeMessageId : Nat) :
    Nat :=
  t.messages.countP fun m => m.accountId == accountId && m.relativePath == some relativePath &&
    m.id != excludeMessageId && m.localState != .purged

end Tables

/-! Files. -/

def World.unlinked (w : World) (relativePath : String) : World :=
  { w with
    files := w.files.filter fun f => f.1 != relativePath
    log := .unlink relativePath :: w.log }

section
variable (env : Env)

def existsEml (relativePath : String) : App Bool := do
  let t ← nextTick
  raiseFault ((env.storageFault t).map LocalFault.toError)
  let w ← get
  pure (w.files.lookup relativePath).isSome

def deleteEml (relativePath : String) : App Unit := do
  let t ← nextTick
  raiseFault ((env.storageFault t).map LocalFault.toError)
  modify fun w => w.unlinked relativePath

/-! Trash and restore. -/

structure TrashResult where
  trashedIds : List Nat := []
  restoredIds : List Nat := []
  skippedIds : List Nat := []
deriving DecidableEq, Repr

def moveToTrash (messageIds : List Nat) (trashedAt : String) : App TrashResult :=
  messageIds.foldlM (fun result messageId => do
    let record ← queryRepo env fun t => t.getMessage messageId
    match record with
    | none => pure { result with skippedIds := result.skippedIds ++ [messageId] }
    | some (message,_) =>
      match message.localState with
      | .purged => pure { result with skippedIds := result.skippedIds ++ [messageId] }
      | .trashed => pure result
      | .active => do
        writeRepo env (.setLocalState messageId .trashed (some trashedAt))
        pure { result with trashedIds := result.trashedIds ++ [messageId] }) {}

def restoreFromTrash (messageIds : List Nat) : App TrashResult :=
  messageIds.foldlM (fun result messageId => do
    let record ← queryRepo env fun t => t.getMessage messageId
    match record with
    | none => pure { result with skippedIds := result.skippedIds ++ [messageId] }
    | some (message,_) =>
      if message.localState = .trashed then do
        writeRepo env (.setLocalState messageId .active none)
        pure { result with restoredIds := result.restoredIds ++ [messageId] }
      else pure { result with skippedIds := result.skippedIds ++ [messageId] }) {}

end

/-! Purge. -/

structure PurgeResult where
  purgedIds : List Nat := []
  skippedIds : List Nat := []
  physicallyDeletedPaths : List String := []
  sharedPaths : List String := []
  totalSizeBytes : Nat := 0
deriving DecidableEq, Repr

/-- `_purge_event`, but for its name. -/
def purgeEvent (message : Message) (relativePath fileHash timestamp : String)
    (sharedReferenceCount : Nat) (physicalDelete : Bool) : PurgeEvent :=
  ⟨message.accountId,message.sourceItemKey,relativePath,fileHash,timestamp,sharedReferenceCount,
    physicalDelete⟩

def purgeAudit (message : Message) (timestamp : String) (physicalDelete : Bool) : AuditEntry :=
  { occurredAt := timestamp, operation := "local_purge", accountId := some message.accountId,
    messageId := some (toString message.id), subject := some message.envelope.subject,
    sizeBytes := message.sizeBytes,
    detail := "physical_delete=" ++ if physicalDelete then "true" else "false" }

/-- `==` between what a `TEXT` column returns and an integer: never true. -/
def textEqualsId (_ : Option String) (_ : Nat) : Bool := false

/-- `_audit_exists`; the id of the record is an integer, that of the entry a text. -/
def Tables.auditExists (t : Tables) (message : Message) : Bool :=
  t.auditLog.any fun a => a.operation == "local_purge" && textEqualsId a.messageId message.id &&
    a.accountId == some message.accountId

section
variable (env : Env)

def finishPurgeDatabase (message : Message) (physicalDelete : Bool) : App Unit := do
  beginBatch env
  writeRepo env (.deleteMessageContents message.id)
  writeRepo env (.updateMessageStorage message.id none none)
  writeRepo env (.setLocalState message.id .purged none)
  let audited ← queryRepo env fun t => t.auditExists message
  if audited then pure ()
  else do
    let now ← timestamp env
    writeRepo env (.recordAudit (purgeAudit message now physicalDelete))
  commitBatch env

/-- The part of `_complete_purge` after the intent: whether a file was deleted. -/
def executePurge (message : Message) (relativePath fileHash now : String)
    (sharedReferenceCount : Nat) (physicalDelete : Bool) : App Bool := do
  let deleted ← (if physicalDelete then do
      let found ← existsEml env relativePath
      if found then do
        deleteEml env relativePath
        pure true
      else pure false
    else pure false : App Bool)
  appendManifest env (.purged (purgeEvent message relativePath fileHash now sharedReferenceCount
    physicalDelete))
  flushAndSync env
  finishPurgeDatabase env message physicalDelete
  pure deleted

/-- `_complete_purge`: whether the purge was completed, whether a file was deleted, and the
path of a file that others still refer to. -/
def completePurge (message : Message) (now : String) (intendedPhysicalDelete : Option Bool)
    (writeIntent : Bool) : App (Bool × Bool × Option String) :=
  match message.relativePath,message.fileHash with
  | some relativePath,some fileHash =>
    if relativePath = "" ∨ fileHash = "" then pure (false,false,none)
    else do
      let sharedReferenceCount ← queryRepo env fun t =>
        t.countPathReferences message.accountId relativePath message.id
      let physicalDelete := sharedReferenceCount == 0 && intendedPhysicalDelete.getD true
      if writeIntent then do
        appendManifest env (.purgeIntent (purgeEvent message relativePath fileHash now
          sharedReferenceCount physicalDelete))
        flushAndSync env
      else pure ()
      let deleted ← executePurge env message relativePath fileHash now sharedReferenceCount
        physicalDelete
      pure (true,deleted,if sharedReferenceCount = 0 then none else some relativePath)
  | _,_ => pure (false,false,none)

/-- One record of the loop of `purge`. -/
def purgeStep (now : String) (result : PurgeResult) (message : Message) : App PurgeResult :=
  if message.localState ≠ .trashed then
    pure { result with skippedIds := result.skippedIds ++ [message.id] }
  else do
    let (completed,deleted,shared) ← completePurge env message now none true
    if completed then
      pure { result with
        purgedIds := result.purgedIds ++ [message.id]
        physicallyDeletedPaths := result.physicallyDeletedPaths ++
          (if deleted then message.relativePath.toList else [])
        sharedPaths := result.sharedPaths ++ shared.toList }
    else pure { result with skippedIds := result.skippedIds ++ [message.id] }

/-- The records are read before the first of them is purged. -/
def purge (messageIds : List Nat) (writeAllowed : Bool) : App PurgeResult := do
  if writeAllowed then do
    let now ← timestamp env
    let records ← messageIds.foldlM (fun records messageId => do
      let record ← queryRepo env fun t => t.getMessage messageId
      pure (records ++ (record.map Prod.fst).toList)) ([] : List Message)
    records.foldlM (purgeStep env now)
      { totalSizeBytes := (records.map fun m => m.sizeBytes.getD 0).sum }
  else throw ⟨.storageDetached,"Local purge requires attached storage"⟩

end

/-! Recovery. -/

/-- What an event has in common with the message it is about. -/
def PurgeEvent.isOf (e : PurgeEvent) (m : Message) : Prop :=
  e.accountId = m.accountId ∧ e.sourceItemKey = m.sourceItemKey

instance (e : PurgeEvent) (m : Message) : Decidable (e.isOf m) :=
  inferInstanceAs (Decidable (_ ∧ _))

/-- `records_by_key.get`, where a later record replaces an earlier one. -/
def recordOf (records : List Message) (e : PurgeEvent) : Option Message :=
  records.reverse.find? fun m => e.isOf m

def purgedEvents (events : List ManifestEvent) : List PurgeEvent :=
  events.filterMap fun
    | .purged e => some e
    | _ => none

/-- The values of `completed_events`: the last event of each key, where the key first occurs. -/
def completedPurges (events : List ManifestEvent) : List PurgeEvent :=
  (Relational.distinct ((purgedEvents events).map fun e => (e.accountId,e.sourceItemKey))).filterMap
    fun key => (purgedEvents events).reverse.find? fun e => (e.accountId,e.sourceItemKey) = key

section
variable (env : Env)

/-- One item of `read_incomplete_intents`. -/
def recoverIntent (records : List Message) (event : ManifestEvent) : App Unit :=
  match event with
  | .purgeIntent e =>
    match recordOf records e with
    | none => pure ()
    | some message =>
      if message.relativePath ∉ [none,some e.relativePath] ∨
          message.fileHash ∉ [none,some e.fileHash] then pure ()
      else do
        let _ ← completePurge env
          { message with relativePath := some e.relativePath, fileHash := some e.fileHash }
          e.timestamp (some e.physicalDelete) false
        pure ()
  | _ => pure ()

/-- A `purged` event whose message the database still shows. -/
def recoverCompleted (records : List Message) (e : PurgeEvent) : App Unit :=
  match recordOf records e with
  | none => pure ()
  | some message =>
    if message.localState = .purged then pure ()
    else finishPurgeDatabase env message e.physicalDelete

def recoverIncompletePurges (writeAllowed : Bool) : App Unit := do
  if writeAllowed then do
    let stored ← queryRepo env fun t => t.listStoredMessages none
    let w ← get
    let records := stored.map Prod.fst
    (readIncompleteIntents w.manifest).forM (recoverIntent env records)
    (completedPurges w.manifest).forM (recoverCompleted env records)
  else throw ⟨.storageDetached,"Recovering local purges requires attached storage"⟩

end

end MailDock
