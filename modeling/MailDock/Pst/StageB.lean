import MailDock.Pst.StageA
import MailDock.Reindex.Program

/-!
# Stage B of an import

`run_stage_b` of `usecases/import_pst.py` saves the staged items as EML files, appends what became
of each to the event log, and adds the messages in batches.  It can be run again after any
interruption: an item with an `item_saved` event is not saved again.

## Main definitions

- `PstRepository.upsertFolder`, `PstRepository.addMessage`
- `prepareItem`, `commitPrepared`
- `runStageB`
-/

namespace MailDock

open Hoare Relational

/-! ## Statements -/

namespace PstTables

/-- `list_incomplete_items`. -/
def listIncompleteItems (t : PstTables) (importId : Nat) : List PstItem :=
  (t.items.filter fun i => i.importId == importId && !i.status.isSaved).mergeSort
    fun a b => decide (a.sourceItemKey ≤ b.sourceItemKey)

/-- The column `remote_state` of `messages` after `add_message`, where there is one. -/
def setNoRemote (id : Nat) (t : PstTables) : PstTables :=
  if t.hasRemoteState then
    { t with remoteStates := (id,.noRemote) :: t.remoteStates.filter fun r => r.1 != id }
  else t

end PstTables

namespace PstRepository

/-- `upsert_folder`, with the checks of the repository of imports. -/
def upsertFolder (accountId rawName displayName : String) (repo : PstRepository) :
    Except Error (Nat × PstRepository) :=
  if accountId = "" ∨ rawName = "" ∨ displayName = "" then
    .error ⟨.value,"PST folder account_id, raw_name, and display_name are required"⟩
  else do
    let record : FolderRecord :=
      { accountId := accountId, rawName := rawName, displayName := some displayName }
    let repo ← exec "upsert folder"
      { repo.tables with mail := repo.tables.mail.upsertFolder record }
    match repo.tables.mail.folders.find? record.names with
    | some folder => .ok (folder.id,repo)
    | none => .error ⟨.database,"Folder upsert did not return an id"⟩

/-- `add_message`.  The record has `no_remote` and leaves the other fields of a remote message
empty, so that `validate_no_remote_message` passes. -/
def addMessage (record : MessageRecord) (contents : Option MessageContents)
    (repo : PstRepository) : Except Error (Nat × PstRepository) := do
  let (messageId,mail) ← repo.mail.addMessage record contents
  let repo ← exec "add message"
    (PstTables.setNoRemote messageId { repo.tables with mail := mail.tables })
  .ok (messageId,repo)

end PstRepository

/-! ## Items -/

/-- `_MAX_PARSE_SIZE`. -/
def maxParseSize : Nat := 100 * 1024 * 1024

def PstItem.oversize (item : PstItem) : Bool := decide (maxParseSize < item.sourceSizeBytes)

def oversizeMessage : String := "EML exceeds the 100 MiB parse limit"

/-- What a staged file is saved as. -/
structure SavedEml where
  relativePath : String
  fileHash : String
  sizeBytes : Nat
deriving DecidableEq, Repr

/-- `_stage_b_message`. -/
def stageBMessage (item : PstItem) (accountId : String) (folderId : Nat) (saved : SavedEml)
    (staged : StagedMessage) : MessageRecord × Option MessageContents :=
  ({ accountId := accountId
     folderId := folderId
     messageId := staged.parsed.messageId
     contentKey := (orText staged.parsed.contentKey none).getD ("sha256:" ++ emlStem saved.fileHash)
     sourceItemKey := .legacy item.sourceItemKey
     uid := none
     uidvalidity := none
     remoteState := .noRemote
     localState := .active
     relativePath := some saved.relativePath
     fileHash := some saved.fileHash
     envelope :=
       { subject := staged.parsed.subject, sender := staged.parsed.sender,
         recipient := staged.parsed.recipient, cc := staged.parsed.cc,
         dateSent := staged.dateSentIso8601, hasAttachment := staged.parsed.hasAttachment,
         inReplyTo := staged.parsed.inReplyTo, referencesIds := staged.parsed.referencesIds,
         threadKey := staged.parsed.threadKey }
     sizeBytes := some saved.sizeBytes },
   if staged.parsed.parseError.isSome then none else some (messageContents staged.parsed false))

/-- An element of `prepared`. -/
structure PreparedItem where
  update : PstItem
  record : MessageRecord
  contents : Option MessageContents
  folderName : String
deriving DecidableEq, Repr

/-- The row, the message and the folder of an item that was saved. -/
def preparedItem (item : PstItem) (accountId : String) (saved : SavedEml)
    (staged : StagedMessage) : PreparedItem where
  update :=
    { item with
      status := .saved
      finalRelativePath := some saved.relativePath
      messageRowId := none
      errorClass :=
        if item.oversize then some .oversize
        else if staged.parsed.parseError.isSome then some .parse else none
      errorMessage := if item.oversize then some oversizeMessage else staged.parsed.parseError
      attemptCount := item.attemptCount + 1 }
  record := (stageBMessage item accountId 0 saved staged).1
  contents := (stageBMessage item accountId 0 saved staged).2
  folderName := if item.folderRelativePath = "" then "." else item.folderRelativePath

/-- The folder is shown by the last part of its path; that of `.` is `.` as well. -/
def PreparedItem.displayName (p : PreparedItem) : String :=
  if p.folderName = "." then "." else lastSegment p.folderName

/-- The files of an account with the name and the hash. -/
def existingEml (sha256 : Bytes → String) (files : List (String × Bytes))
    (accountId fileHash : String) : Option (String × Bytes) :=
  files.find? fun f =>
    ("eml/" ++ accountId ++ "/").toList.isPrefixOf f.1.toList &&
      ("/" ++ emlStem fileHash ++ ".eml").toList.isSuffixOf f.1.toList &&
      sha256 f.2 == fileHash && files.lookup f.1 == some f.2

def emlDestination (accountId : String) (date : Option DateTime) (fileHash : String) : String :=
  "eml/" ++ accountId ++ "/" ++ dateDirectory date ++ "/" ++ emlStem fileHash ++ ".eml"

def PstWorld.saved (w : PstWorld) (relativePath : String) (raw : Bytes) : PstWorld :=
  { w with files := (relativePath,raw) :: w.files, log := .save relativePath :: w.log }

section
variable (env : PstEnv)

/-- `save_from_file`. -/
def saveStagedEml (accountId : String) (date : Option DateTime) (raw : Bytes) : Pst SavedEml := do
  let _ ← pstCall env
  let w ← get
  let fileHash := env.sha256 raw
  match existingEml env.sha256 w.files accountId fileHash with
  | some (path,existing) => pure ⟨path,fileHash,existing.length⟩
  | none => do
    set (w.saved (emlDestination accountId date fileHash) raw)
    pure ⟨emlDestination accountId date fileHash,fileHash,raw.length⟩

/-- `resolve_staging_item`, and the contents of the file. -/
def readStagedItem (importUuid relativePath : String) : Pst Bytes := do
  let _ ← pstCall env
  let w ← get
  match (w.staging (stagingName importUuid)).bind fun s => s.tree.read relativePath with
  | none => raisePst .unreadableArchive ("PST staging item is missing: " ++ relativePath)
  | some raw => pure raw

/-- What is read of a file; one that is too large is not parsed. -/
def PstEnv.staged (env : PstEnv) (item : PstItem) (raw : Bytes) : StagedMessage :=
  if item.oversize then {} else env.stagedMessage raw

/-- `manifest.append`, and the assignment to the dictionary of the events of that name. -/
def recordItem (gated : Bool) (importUuid : String) (known : List PstEvent)
    (body : PstEventBody) : Pst (List PstEvent) := do
  let now ← pstTimestamp env
  ensureWriteAllowed env gated
  appendPstAt env importUuid ⟨importUuid,now,body⟩
  pure (known ++ [⟨importUuid,now,body⟩])

/-- The EML of an item: the one of its `item_saved` event, or else a new one. -/
def saveItem (gated : Bool) (job : ImportJob) (known : List PstEvent) (item : PstItem)
    (raw : Bytes) : Pst (List PstEvent × SavedEml) := do
  match (eventByItem known .itemSaved item.sourceItemKey).map PstEvent.body with
  | some (.itemSaved _ finalRelativePath fileHash sizeBytes) =>
    pure (known,⟨finalRelativePath,fileHash,sizeBytes⟩)
  | _ => do
    ensureWriteAllowed env gated
    let saved ← saveStagedEml env job.accountId (env.staged item raw).parsed.dateSent raw
    if saved.fileHash ≠ item.sourceSha256 then
      raisePst .unreadableArchive ("PST staging hash changed: " ++ item.sourceItemKey)
    else do
      let known ← recordItem env gated job.importUuid known
        (.itemSaved item.sourceItemKey saved.relativePath saved.fileHash saved.sizeBytes)
      pure (known,saved)

/-- The event of an item that could not be parsed, or was too large for it. -/
def failureEvent (item : PstItem) (staged : StagedMessage) : Option PstEventBody :=
  if item.oversize then
    some (.itemOversize item.sourceItemKey oversizeMessage item.sourceSizeBytes)
  else staged.parsed.parseError.map fun text =>
    .itemParseFailed item.sourceItemKey ((orText (some text) none).getD "message parsing failed")

def recordFailure (gated : Bool) (job : ImportJob) (known : List PstEvent) (item : PstItem)
    (staged : StagedMessage) : Pst (List PstEvent) :=
  match failureEvent item staged with
  | some body =>
    if (eventByItem known body.name item.sourceItemKey).isNone then
      recordItem env gated job.importUuid known body
    else pure known
  | none => pure known

/-- The first part of the loop over a batch.  `known` are the events from which the source keeps one
dictionary for each name. -/
def prepareItem (gated : Bool) (job : ImportJob) (known : List PstEvent) (item : PstItem) :
    Pst (List PstEvent × PreparedItem) := do
  pstRaiseIfCancelled env
  let raw ← readStagedItem env job.importUuid item.sourceRelativePath
  let (known,saved) ← saveItem env gated job known item raw
  let known ← recordFailure env gated job known item (env.staged item raw)
  pure (known,preparedItem item job.accountId saved (env.staged item raw))

/-! ## Batches -/

def savedCount (items : List PstItem) : Nat := (items.filter fun i => i.status.isSaved).length

def failedCount (items : List PstItem) : Nat := (items.filter fun i => i.errorClass.isSome).length

/-- The rows of one item. -/
def commitItem (job : ImportJob) (p : PreparedItem) : Pst Unit := do
  let folderId ← insertPst env
    (PstRepository.upsertFolder job.accountId p.folderName p.displayName)
  let messageId ← insertPst env
    (PstRepository.addMessage { p.record with folderId := folderId } p.contents)
  writePst env (PstRepository.upsertImportItem { p.update with messageRowId := some messageId })

/-- The second part of the loop over a batch, a transaction. -/
def commitPrepared (job : ImportJob) (prepared : List PreparedItem) : Pst Unit := do
  beginPstBatch env
  catching (do
      prepared.forM fun p => commitItem env job p
      let items ← queryPst env fun t => t.listItems job.importId
      writePst env (PstRepository.updateImportStatus job.importId .ingesting fun i =>
        { i with
          totalFiles := some items.length, ingestedCount := savedCount items
          failedCount := failedCount items, stagingPath := some (stagingRoot job.importUuid)
          finishedAt := none })
      commitPstBatch env)
    fun e => do
      rollbackPstBatch env
      throw (.raised e)

def ingestBatch (gated : Bool) (job : ImportJob) (known : List PstEvent) (batch : List PstItem) :
    Pst (List PstEvent) := do
  pstRaiseIfCancelled env
  let (known,prepared) ← batch.foldlM (fun (s : List PstEvent × List PreparedItem) item => do
    let (known,p) ← prepareItem env gated job s.1 item
    pure (known,s.2 ++ [p])) (known,[])
  ensureWriteAllowed env gated
  flushPst env job.importUuid
  commitPrepared env job prepared
  pure known

/-- `items[offset : offset + batch_size] for offset in range(0, len(items), batch_size)`. -/
def slices {α : Type} (size : Nat) (xs : List α) : List (List α) :=
  (List.range ((xs.length + size - 1) / size)).map fun k => (xs.drop (k * size)).take size

structure StageBResult where
  status : ImportStatus
  processedCount : Nat
  ingestedCount : Nat
  failedCount : Nat
  remainingCount : Nat
deriving DecidableEq, Repr

/-- The end of `run_stage_b`, after the last batch. -/
def finishStageB (gated : Bool) (job : ImportJob) (processedCount : Nat) : Pst StageBResult := do
  let items ← queryPst env fun t => t.listItems job.importId
  let ingested := savedCount items
  let failed := failedCount items
  let remaining := items.length - ingested
  let status : ImportStatus :=
    if remaining ≠ 0 then .failedResumable
    else if failed ≠ 0 then .completedWithErrors else .completed
  ensureWriteAllowed env gated
  let now ← pstTimestamp env
  writePst env (PstRepository.updateImportStatus job.importId status fun i =>
    { i with
      totalFiles := some items.length, ingestedCount := ingested, failedCount := failed
      stagingPath := if remaining ≠ 0 then some (stagingRoot job.importUuid) else none
      finishedAt := if remaining ≠ 0 then none else some now })
  pstWhen (remaining = 0) (removeStaging env gated job.importUuid)
  pure ⟨status,processedCount,ingested,failed,remaining⟩

/-- The handlers of `run_stage_b`. -/
def stageBFailed (gated : Bool) (job : ImportJob) (error : Error) : Pst Unit := do
  ensureWriteAllowed env gated
  if error.kind = .cancelled then
    writePst env (PstRepository.updateImportStatus job.importId .cancelledResumable fun i =>
      { i with stagingPath := some (stagingRoot job.importUuid), finishedAt := none })
  else
    writePst env (PstRepository.updateImportStatus job.importId .failedResumable fun i =>
      { i with
        stagingPath := some (stagingRoot job.importUuid), errorMessage := some error.message })

def runStageB (gated : Bool) (job : ImportJob) (batchSize : Nat) : Pst StageBResult := do
  pstWhen (batchSize = 0) (raisePst .value "batch_size must be positive")
  let marker ← readMarker env job.importUuid
  pstWhen (marker.importUuid ≠ job.importUuid)
    (raisePst .unreadableArchive "Stage A marker import_uuid does not match the import")
  let items ← queryPst env fun t => t.listIncompleteItems job.importId
  let known ← readPstEvents env job.importUuid
  ensureWriteAllowed env gated
  writePst env (PstRepository.updateImportStatus job.importId .ingesting fun i =>
    { i with stagingPath := some (stagingRoot job.importUuid) })
  unlessDetached (do
      let _ ← (slices batchSize items).foldlM (ingestBatch env gated job) known
      finishStageB env gated job items.length)
    (stageBFailed env gated job)

end

end MailDock
