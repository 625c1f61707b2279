import MailDock.Pst.StageB

/-!
# After a detach

`reconcile_detached_import` of `usecases/import_pst.py` compares what is left of an import with the
marker of Stage A.  Where they agree, the rows of the items are rebuilt from the event log, and Stage B
can go on; otherwise the import is `suspect` and its staging directory is removed.

## Main definitions

- `stageAEvidence` — the comparison
- `restoredItem` — the row of an item after it
- `reconcileDetachedImport`
-/

namespace MailDock

open Hoare

/-- `except (OSError, TypeError, ValueError, UnreadableArchive)`. -/
def Error.isDoubt (e : Error) : Bool :=
  match e.kind with
  | .osError | .value | .unreadableArchive => true
  | _ => false

/-- The checks on what was read, after the marker's own. -/
def checkEvidence (sha256 : Bytes → String) (marker : StageMarker) (items : List StagedItem)
    (folders : List StagedFolder) (manifest : PstManifest) : Except Error Unit := do
  let inventorySha256 ← inventoryHash sha256 items
  let snapshot ← manifest.readImport sha256
  let folderSnapshot ← manifest.readFolders
  let staticManifestSha256 ← staticManifestHash sha256 snapshot folderSnapshot
  if marker.totalFiles ≠ items.length ∨ marker.inventorySha256 ≠ inventorySha256 ∨
      marker.staticManifestSha256 ≠ staticManifestSha256 ∨
      !sameJson (foldersPayload folderSnapshot) (foldersPayload (folders.map StagedFolder.payload)) then
    unreadable "PST Stage A inventory does not match its marker"
  else
    let discovered := itemKeys manifest.events .itemDiscovered
    let keys := items.map StagedItem.sourceItemKey
    if !(discovered.all keys.contains && keys.all discovered.contains) then
      unreadable "PST Stage A item events do not match the inventory"
    else
      match ((manifest.events.filter fun e => e.name == .importReady).getLast?).map
          PstEvent.body with
      | some (.importReady totalFiles _ _) =>
        if totalFiles ≠ items.length then
          unreadable "PST Stage A has no matching import_ready event"
        else .ok ()
      | _ => unreadable "PST Stage A has no matching import_ready event"

/-- The row of an item, from the event log and the row that is there. -/
def restoredItem (importId : Nat) (item : StagedItem) (saved : Option PstEventBody)
    (current : Option PstItem) (messageExists : Bool) : PstItem :=
  let attemptCount := (current.map PstItem.attemptCount).getD 0
  match saved,current with
  | some (.itemSaved _ finalRelativePath _ _),some current =>
    if messageExists then
      { item.discoveredRow importId with
        status := .saved
        finalRelativePath := some finalRelativePath
        messageRowId := current.messageRowId
        errorClass := current.errorClass
        errorMessage := current.errorMessage
        attemptCount := attemptCount }
    else { item.discoveredRow importId with attemptCount := attemptCount }
  | _,_ => { item.discoveredRow importId with attemptCount := attemptCount }

section
variable (env : PstEnv)

/-- The `try` block of `reconcile_detached_import`. -/
def stageAEvidence (job : ImportJob) : Pst (List StagedItem × List PstEvent) := do
  let marker ← readMarker env job.importUuid
  pstWhen (marker.importUuid ≠ job.importUuid)
    (raisePst .unreadableArchive "Stage A marker import_uuid does not match the import")
  pstWhen (marker.stagingRelativePath ≠ stagingRoot job.importUuid)
    (raisePst .unreadableArchive "Stage A marker points outside the expected staging path")
  let (items,folders) ← scanStaging env job.importUuid
  let _ ← pstCall env
  let w ← get
  liftPst (checkEvidence env.sha256 marker items folders (w.manifests job.importUuid))
  pure (items,(w.manifests job.importUuid).events)

def reconcileSuspectImport (gated : Bool) (job : ImportJob) (reason : String) : Pst Unit := do
  ensureWriteAllowed env gated
  appendPst env job.importUuid (.importAbandoned ("suspect:" ++ reason))
  flushPst env job.importUuid
  ensureWriteAllowed env gated
  let now ← pstTimestamp env
  writePst env (PstRepository.updateImportStatus job.importId .suspect fun i =>
    { i with stagingPath := none, finishedAt := some now, errorMessage := some reason })
  recordPstAudit env "pst_import_abandon" job.accountId
    ("import_uuid=" ++ job.importUuid ++ "; reason=suspect:" ++ reason)
  removeStaging env gated job.importUuid

/-- Whether the message of a saved item is still there. -/
def messageKept (saved : Option PstEventBody) (current : Option PstItem) : Pst Bool :=
  match saved,current.bind PstItem.messageRowId with
  | some _,some messageId => queryPst env fun t => (t.findMessage messageId).isSome
  | _,_ => pure false

/-- The body of the loop over the inventory: whether the item keeps its message. -/
def restoreItem (gated : Bool) (job : ImportJob) (events : List PstEvent)
    (existing : List PstItem) (item : StagedItem) : Pst Bool := do
  let current := existing.find? fun i => i.sourceItemKey == item.sourceItemKey
  let saved := (eventByItem events .itemSaved item.sourceItemKey).map PstEvent.body
  let messageExists ← messageKept env saved current
  ensureWriteAllowed env gated
  writePst env (PstRepository.upsertImportItem
    (restoredItem job.importId item saved current messageExists))
  pure messageExists

/-- The rows of the inventory and of the import, in one transaction. -/
def restoreInventory (gated : Bool) (job : ImportJob) (items : List StagedItem)
    (events : List PstEvent) : Pst Unit := do
  let existing ← queryPst env fun t => t.listItems job.importId
  ensureWriteAllowed env gated
  beginPstBatch env
  catching (do
      let ingested ← items.foldlM (fun (count : Nat) item => do
        let kept ← restoreItem env gated job events existing item
        pure (if kept then count + 1 else count)) 0
      ensureWriteAllowed env gated
      writePst env (PstRepository.updateImportStatus job.importId .cancelledResumable fun i =>
        { i with
          totalFiles := some items.length, ingestedCount := ingested
          failedCount := failedCount existing, stagingPath := some (stagingRoot job.importUuid)
          finishedAt := none, errorMessage := none })
      ensureWriteAllowed env gated
      commitPstBatch env)
    fun e => do
      rollbackPstBatch env
      throw (.raised e)

/-- `reconcile_detached_import`, once the import was found. -/
def reconcileImport (gated : Bool) (job : ImportJob) : Pst Bool := do
  let evidence ← catching (do
      let evidence ← stageAEvidence env job
      pure (some evidence))
    fun e =>
      if e.isDoubt then do
        reconcileSuspectImport env gated job e.message
        pure none
      else throw (.raised e)
  match evidence with
  | none => pure false
  | some (items,events) => do
    restoreInventory env gated job items events
    pure true

def reconcileDetachedImport (gated : Bool) (importId : Nat) (importUuid : String) : Pst Bool := do
  ensureWriteAllowed env gated
  let record ← queryPst env fun t => t.findImport importId
  match record.filter fun record => record.importUuid == importUuid with
  | none => raisePst .unreadableArchive "PST import does not exist"
  | some record => reconcileImport env gated ⟨importId,importUuid,record.accountId⟩

end

end MailDock
