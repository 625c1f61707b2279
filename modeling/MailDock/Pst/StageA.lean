import MailDock.Pst.Snapshots
import MailDock.Pst.Switch

/-!
# Stage A of an import

`run_stage_a` of `usecases/import_pst.py` extracts a PST, records what it found in the static
manifests, the event log and the database, and publishes a marker with the hashes of these records.

## Main definitions

- `PstRepository.updateImportStatus`, `PstRepository.upsertImportItem`
- `writeMarker`, `readMarker`
- `runStageA`, `abandonStageA`
-/

namespace MailDock

open Hoare Relational

/-! ## Statements -/

namespace PstTables

def isItem (importId : Nat) (sourceItemKey : String) (i : PstItem) : Bool :=
  i.importId == importId && i.sourceItemKey == sourceItemKey

/-- `INSERT INTO pst_import_items … ON CONFLICT(import_id, source_item_key) DO UPDATE`. -/
def upsertImportItem (record : PstItem) (t : PstTables) : PstTables :=
  if t.items.any (isItem record.importId record.sourceItemKey) then
    { t with items := update (isItem record.importId record.sourceItemKey) (fun _ => record) t.items }
  else { t with items := t.items ++ [record] }

end PstTables

namespace PstRepository

/-- `update_import_status`; `columns` sets the columns of the call other than the status. -/
def updateImportStatus (importId : Nat) (status : ImportStatus) (columns : PstImport → PstImport)
    (repo : PstRepository) : Except Error PstRepository :=
  if repo.tables.HasImport importId then
    exec "update PST import status"
      (repo.tables.updateImport importId fun i => { columns i with status := status })
  else .error ⟨.database,"PST import does not exist: " ++ toString importId⟩

def upsertImportItem (record : PstItem) (repo : PstRepository) : Except Error PstRepository :=
  exec "upsert PST import item" (repo.tables.upsertImportItem record)

end PstRepository

/-- The row of an item that was found. -/
def StagedItem.discoveredRow (item : StagedItem) (importId : Nat) : PstItem where
  importId := importId
  sourceItemKey := item.sourceItemKey
  sourceRelativePath := item.sourceRelativePath
  folderRelativePath := item.folderRelativePath
  sourceSizeBytes := item.sourceSizeBytes
  sourceSha256 := item.sourceSha256

section
variable (env : PstEnv)

/-! ## The staging directory -/

def setStaging (importUuid : String) (staging : Option Staging) : Pst Unit :=
  modify fun w => { w with staging := Function.update w.staging (stagingName importUuid) staging }

def removeStaging (gated : Bool) (importUuid : String) : Pst Unit := do
  ensureWriteAllowed env gated
  let _ ← pstCall env
  setStaging importUuid none

def createStaging (importUuid : String) : Pst Unit := do
  let _ ← pstCall env
  let w ← get
  match w.staging (stagingName importUuid) with
  | some _ =>
    raisePst .storageDetached ("Could not create PST staging: " ++ stagingRoot importUuid)
  | none => setStaging importUuid (some {})

/-- `extractor.extract`.  What a failed extraction leaves is never looked at: there is no marker. -/
def extractPst (importUuid : String) : Pst Unit := do
  let t ← pstCall env
  let tree ← liftPst (env.extract t)
  setStaging importUuid (some { tree := tree })

def scanStaging (importUuid : String) : Pst (List StagedItem × List StagedFolder) := do
  let _ ← pstCall env
  let w ← get
  match w.staging (stagingName importUuid) with
  | none =>
    raisePst .unreadableArchive
      ("Staging directory cannot be inspected: " ++ stagingRoot importUuid)
  | some staging => pure (staging.tree.scan env.sha256)

/-- A staging path of a marker that leads below the root of the storage. -/
def staysBelowRoot (path : String) : Bool :=
  let cs := path.toList.map fun c => if c = '\\' then '/' else c
  !(cs.head? == some '/') && !(cs[1]? == some ':') && !(cs.splitOn '/').contains ['.','.']

/-- `read_stage_a_marker`, of a marker whose fields have the right types. -/
def validateMarker (marker : StageMarker) : Except Error StageMarker :=
  if !staysBelowRoot marker.stagingRelativePath then
    unreadable "Stage A marker staging path must stay below storage root"
  else if !Wire.Pst.isSha256 marker.inventorySha256 then
    unreadable "Stage A marker inventory_sha256 is invalid"
  else if !Wire.Pst.isSha256 marker.staticManifestSha256 then
    unreadable "Stage A marker static_manifest_sha256 is invalid"
  else .ok marker

def readMarker (importUuid : String) : Pst StageMarker := do
  let _ ← pstCall env
  let w ← get
  match (w.staging (stagingName importUuid)).bind Staging.marker with
  | none =>
    raisePst .unreadableArchive
      ("Stage A marker cannot be read: " ++ stagingRoot importUuid ++ "/" ++ stageMarkerName)
  | some marker => liftPst (validateMarker marker)

/-- A directory in the place of the marker cannot be replaced by a file. -/
def writeMarker (importUuid : String) (marker : StageMarker) : Pst Unit := do
  let _ ← pstCall env
  let w ← get
  match w.staging (stagingName importUuid) with
  | none =>
    raisePst .storageDetached
      ("Could not persist Stage A marker: " ++ stagingRoot importUuid ++ "/" ++ stageMarkerName)
  | some staging =>
    if staging.tree.files.any fun f => f.1.underMarker && !f.1.dirs.isEmpty then
      raisePst .storageDetached
        ("Could not persist Stage A marker: " ++ stagingRoot importUuid ++ "/" ++ stageMarkerName)
    else setStaging importUuid (some { staging with marker := some marker })

/-! ## The source and the manifests -/

/-- `snapshot_source_file`. -/
def snapshotSourceFile : Pst SourceFileSnapshot := do
  pstRaiseIfCancelled env
  let t ← pstCall env
  liftPst (env.sourceFile t)

def validateSourceSnapshot (expected : SourceFileSnapshot) : Pst Unit := do
  let actual ← snapshotSourceFile env
  if actual ≠ expected then
    raisePst .archiveImport "PST source changed since it was inspected"
  else pure ()

def writeImportManifest (importUuid : String) (snapshot : Wire.Dict) : Pst Unit := do
  let _ ← pstCall env
  let w ← get
  let m ← liftPst ((w.manifests importUuid).writeImport env.sha256 snapshot)
  set (w.setManifest importUuid m)

def writeFoldersManifest (importUuid : String) (folders : List Wire.Dict) : Pst Unit := do
  let _ ← pstCall env
  let w ← get
  let m ← liftPst ((w.manifests importUuid).writeFolders folders)
  set (w.setManifest importUuid m)

/-! ## The stage -/

/-- `except StorageDetachedError: raise`, and a handler for any other exception, which is raised
again. -/
def unlessDetached {α : Type} (p : Pst α) (handler : Error → Pst Unit) : Pst α :=
  catching p fun e =>
    if e.kind = .storageDetached then throw (.raised e)
    else do
      handler e
      throw (.raised e)

/-- `if condition: …`, without an `else`. -/
def pstWhen (condition : Prop) [Decidable condition] (p : Pst Unit) : Pst Unit :=
  if condition then p else pure ()

def abandonStageA (gated : Bool) (job : ImportJob) (error : Error) : Pst Unit := do
  ensureWriteAllowed env gated
  let reason := if error.kind = .cancelled then "cancelled" else "failed"
  appendPst env job.importUuid (.importAbandoned reason)
  flushPst env job.importUuid
  let now ← pstTimestamp env
  writePst env (PstRepository.updateImportStatus job.importId .abandoned fun i =>
    { i with stagingPath := none, finishedAt := some now, errorMessage := some error.message })
  ensureWriteAllowed env gated
  let record ← queryPst env fun t => t.findImport job.importId
  match record with
  | none => raisePst .unreadableArchive "Abandoned PST import does not exist"
  | some record => do
    recordPstAudit env "pst_import_abandon" record.accountId
      ("import_uuid=" ++ job.importUuid ++ "; reason=" ++ reason)
    removeStaging env gated job.importUuid

structure StageAResult where
  totalFiles : Nat
  inventorySha256 : String
  staticManifestSha256 : String
deriving DecidableEq, Repr

/-- The rows of the inventory, in one transaction. -/
def recordInventory (gated : Bool) (importId : Nat) (items : List StagedItem) : Pst Unit := do
  beginPstBatch env
  catching (do
      items.forM fun item => do
        ensureWriteAllowed env gated
        writePst env (PstRepository.upsertImportItem (item.discoveredRow importId))
      ensureWriteAllowed env gated
      commitPstBatch env)
    fun e => do
      rollbackPstBatch env
      throw (.raised e)

/-- What is written of an extracted tree. -/
def publishInventory (gated : Bool) (job : ImportJob) (snapshot : Wire.Dict)
    (items : List StagedItem) (folders : List StagedFolder) : Pst StageAResult := do
  let inventorySha256 ← liftPst (inventoryHash env.sha256 items)
  let staticManifestSha256 ← liftPst
    (staticManifestHash env.sha256 snapshot (folders.map StagedFolder.payload))
  ensureWriteAllowed env gated
  writeFoldersManifest env job.importUuid (folders.map StagedFolder.payload)
  let now ← pstTimestamp env
  items.forM fun item => appendPstAt env job.importUuid ⟨job.importUuid,now,.itemDiscovered item⟩
  flushPst env job.importUuid
  ensureWriteAllowed env gated
  recordInventory env gated job.importId items
  ensureWriteAllowed env gated
  appendPst env job.importUuid
    (.importReady items.length inventorySha256 staticManifestSha256)
  flushPst env job.importUuid
  ensureWriteAllowed env gated
  let createdAt ← pstTimestamp env
  writeMarker env job.importUuid ⟨job.importUuid,stagingRoot job.importUuid,items.length,
    inventorySha256,staticManifestSha256,createdAt⟩
  let _ ← readMarker env job.importUuid
  writePst env (PstRepository.updateImportStatus job.importId .readyToIngest fun i =>
    { i with
      totalFiles := some items.length, stagingPath := some (stagingRoot job.importUuid)
      errorMessage := none })
  pure ⟨items.length,inventorySha256,staticManifestSha256⟩

/-- The `try` block of `run_stage_a`. -/
def extractAndPublish (gated : Bool) (job : ImportJob) (source : PstSource)
    (snapshot : Wire.Dict) : Pst StageAResult := do
  ensureWriteAllowed env gated
  writePst env (PstRepository.updateImportStatus job.importId .extracting fun i =>
    { i with stagingPath := some (stagingRoot job.importUuid), errorMessage := none })
  writeImportManifest env job.importUuid snapshot
  flushPst env job.importUuid
  ensureWriteAllowed env gated
  let record ← queryPst env fun t => t.findImport job.importId
  let replaces := (record.bind PstImport.replacesId).any fun id => id != 0
  recordPstAudit env (if replaces then "pst_reimport" else "pst_import") job.accountId
    ("import_uuid=" ++ job.importUuid ++ "; source=" ++ source.filename)
  pstRaiseIfCancelled env
  extractPst env job.importUuid
  validateSourceSnapshot env source.snapshot
  let (items,folders) ← scanStaging env job.importUuid
  publishInventory env gated job snapshot items folders

/-- `run_stage_a`.  The identifier is one of `uuid4`, so that the checks of its version pass. -/
def runStageA (gated : Bool) (job : ImportJob) (source : PstSource) : Pst StageAResult := do
  let createdAt ← pstTimestamp env
  ensureWriteAllowed env gated
  removeStaging env gated job.importUuid
  createStaging env job.importUuid
  unlessDetached (extractAndPublish env gated job source (importSnapshot job source createdAt))
    (abandonStageA env gated job)

end

end MailDock
