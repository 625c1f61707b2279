import MailDock.Manifest.Payload
import MailDock.Pst.Switch
import MailDock.Trash.Program

/-!
# The trash, for messages of a PST import

`usecases/trash.py` with the manifest of a generation.  A message goes to the trash and back by its
local state alone.  A purge announces itself in the manifest of the generation, deletes the EML when
no other message of the generation refers to it, records that it is done and only then changes the
database.

## Main definitions

- `trashPst`, `untrashPst` — `move_to_trash` and `restore_from_trash`
- `completePstPurge`, `purgePst` — `_complete_purge` and `purge`
-/

namespace MailDock

open Hoare

/-- A statement on the tables of mail. -/
def PstRepository.onMail (operation : String) (f : Tables → Tables) (repo : PstRepository) :
    Except Error PstRepository :=
  exec operation { repo.tables with mail := f repo.tables.mail }

/-- `count_generation_path_references`: rows of the join, so a message that two items refer to counts
twice. -/
def PstTables.countGenerationPathReferences (t : PstTables) (accountId importUuid relativePath : String)
    (excludeMessageId : Nat) : Nat :=
  (t.mail.messages.map fun m =>
    if m.accountId == accountId && m.relativePath == some relativePath && m.id != excludeMessageId &&
        m.localState != .purged then
      t.items.countP fun i => i.messageRowId == some m.id &&
        t.imports.any fun g => g.id == i.importId && g.importUuid == importUuid
    else 0).sum

namespace PstTables

variable {t : PstTables}

theorem Valid.setLocalState (ht : t.Valid) (id : Nat) (state : LocalState)
    (trashedAt : Option String) :
    ({ t with mail := t.mail.setLocalState id state trashedAt } : PstTables).Valid :=
  ht.updateMessages _ fun _ => ⟨rfl,rfl,rfl⟩

theorem Valid.updateMessageStorage (ht : t.Valid) (id : Nat) (relativePath fileHash : Option String) :
    ({ t with mail := t.mail.updateMessageStorage id relativePath fileHash } : PstTables).Valid :=
  ht.updateMessages _ fun _ => ⟨rfl,rfl,rfl⟩

theorem Valid.deleteMessageContents (ht : t.Valid) (id : Nat) :
    ({ t with mail := t.mail.deleteMessageContents id } : PstTables).Valid where
  mail := { ht.mail with
    contentsKey := ht.mail.contentsKey.sublist List.filter_sublist
    contentsMessage := fun c hc => ht.mail.contentsMessage c (List.mem_filter.mp hc).1 }
  importId := ht.importId
  importUuid := ht.importUuid
  importNext := ht.importNext
  importAccount := ht.importAccount
  importReplaces := ht.importReplaces
  activeSource := ht.activeSource
  itemKey := ht.itemKey
  itemImport := ht.itemImport
  itemMessage := ht.itemMessage

theorem Valid.recordAudit (ht : t.Valid) (entry : AuditEntry) :
    ({ t with mail := t.mail.recordAudit entry } : PstTables).Valid :=
  { ht with mail := { ht.mail with } }

end PstTables

def PstWorld.deleted (w : PstWorld) (relativePath : String) : PstWorld :=
  { w with
    files := w.files.filter fun f => f.1 != relativePath
    log := .delete relativePath :: w.log }

section
variable (env : PstEnv)

def setPstLocalState (messageId : Nat) (state : LocalState) (trashedAt : Option String) : Pst Unit :=
  writePst env (PstRepository.onMail "set local message state"
    (Tables.setLocalState messageId state trashedAt))

def trashPst (messageIds : List Nat) (trashedAt : String) : Pst TrashResult :=
  messageIds.foldlM (fun result messageId => do
    let record ← queryPst env fun t => t.mail.getMessage messageId
    match record with
    | none => pure { result with skippedIds := result.skippedIds ++ [messageId] }
    | some (message,_) =>
      match message.localState with
      | .purged => pure { result with skippedIds := result.skippedIds ++ [messageId] }
      | .trashed => pure result
      | .active => do
        setPstLocalState env messageId .trashed (some trashedAt)
        pure { result with trashedIds := result.trashedIds ++ [messageId] }) {}

def untrashPst (messageIds : List Nat) : Pst TrashResult :=
  messageIds.foldlM (fun result messageId => do
    let record ← queryPst env fun t => t.mail.getMessage messageId
    match record with
    | none => pure { result with skippedIds := result.skippedIds ++ [messageId] }
    | some (message,_) =>
      if message.localState = .trashed then do
        setPstLocalState env messageId .active none
        pure { result with restoredIds := result.restoredIds ++ [messageId] }
      else pure { result with skippedIds := result.skippedIds ++ [messageId] }) {}

/-! Purge. -/

/-- `_purge_event`, but for its name, its import and its timestamp. -/
def pstPurge (message : Message) (relativePath fileHash : String) (sharedReferenceCount : Nat) :
    PstPurge :=
  ⟨message.accountId,message.sourceItemKey.text,relativePath,fileHash,sharedReferenceCount,
    sharedReferenceCount == 0⟩

/-- `storage.exists` and, when the file is there, `storage.delete`: whether a file was deleted. -/
def deletePst (relativePath : String) : Pst Bool := do
  let _ ← pstCall env
  let w ← get
  if (w.files.lookup relativePath).isSome then do
    let _ ← pstCall env
    modify fun w => w.deleted relativePath
    pure true
  else pure false

def finishPstPurge (message : Message) (physicalDelete : Bool) : Pst Unit := do
  beginPstBatch env
  writePst env (PstRepository.onMail "delete message contents"
    (Tables.deleteMessageContents message.id))
  writePst env (PstRepository.onMail "update message storage"
    (Tables.updateMessageStorage message.id none none))
  setPstLocalState env message.id .purged none
  let audited ← queryPst env fun t => t.mail.auditExists message
  if audited then pure ()
  else do
    let now ← pstTimestamp env
    writePst env (PstRepository.onMail "record audit log"
      (Tables.recordAudit (purgeAudit message now physicalDelete)))
  commitPstBatch env

/-- `_complete_purge` as `purge` calls it: whether the purge was completed, whether a file was
deleted, and the path of a file that others still refer to.  The events of one call to `purge` share
a timestamp, which no key and no comparison of events looks at; each append reads its own here. -/
def completePstPurge (importUuid : String) (message : Message) :
    Pst (Bool × Bool × Option String) :=
  match message.relativePath,message.fileHash with
  | some relativePath,some fileHash =>
    if relativePath = "" ∨ fileHash = "" then pure (false,false,none)
    else do
      let sharedReferenceCount ← queryPst env fun t =>
        t.countGenerationPathReferences message.accountId importUuid relativePath message.id
      let event := pstPurge message relativePath fileHash sharedReferenceCount
      appendPst env importUuid (.purgeIntent event)
      flushPst env importUuid
      let deleted ← (if sharedReferenceCount = 0 then deletePst env relativePath else pure false :
        Pst Bool)
      appendPst env importUuid (.purged event)
      flushPst env importUuid
      finishPstPurge env message (sharedReferenceCount == 0)
      pure (true,deleted,if sharedReferenceCount = 0 then none else some relativePath)
  | _,_ => pure (false,false,none)

/-- One record of the loop of `purge`. -/
def purgePstStep (importUuid : String) (result : PurgeResult) (message : Message) :
    Pst PurgeResult :=
  if message.localState ≠ .trashed then
    pure { result with skippedIds := result.skippedIds ++ [message.id] }
  else do
    let (completed,deleted,shared) ← completePstPurge env importUuid message
    if completed then
      pure { result with
        purgedIds := result.purgedIds ++ [message.id]
        physicallyDeletedPaths := result.physicallyDeletedPaths ++
          (if deleted then message.relativePath.toList else [])
        sharedPaths := result.sharedPaths ++ shared.toList }
    else pure { result with skippedIds := result.skippedIds ++ [message.id] }

/-- The records are read before the first of them is purged. -/
def purgePst (importUuid : String) (messageIds : List Nat) : Pst PurgeResult := do
  let t ← pstTick
  if env.writeAllowed t then do
    let records ← messageIds.foldlM (fun records messageId => do
      let record ← queryPst env fun t => t.mail.getMessage messageId
      pure (records ++ (record.map Prod.fst).toList)) ([] : List Message)
    records.foldlM (purgePstStep env importUuid)
      { totalSizeBytes := (records.map fun m => m.sizeBytes.getD 0).sum }
  else raisePst .storageDetached "Local purge requires attached storage"

end

end MailDock
