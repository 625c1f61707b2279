import MailDock.Pst.World

/-!
# Generation switches

`verify_generation`, `switch_generation`, `restore_generation` and `recover_generation_switch` of
`usecases/import_pst.py`.

## Main definitions

- `verifyGeneration` — the check before a generation is shown
- `switchGeneration`, `restoreGeneration`, `recoverGenerationSwitch`
-/

namespace MailDock

open Hoare

/-- `_event_by_item`: of several events for an item the last one counts. -/
def eventByItem (events : List PstEvent) (name : Wire.Pst.EventName) (sourceItemKey : String) :
    Option PstEvent :=
  events.reverse.find? fun e => e.name == name && e.body.sourceItemKey == some sourceItemKey

/-- The keys of `_event_by_item`. -/
def itemKeys (events : List PstEvent) (name : Wire.Pst.EventName) : List String :=
  Relational.distinct
    ((events.filter fun e => e.name == name).filterMap fun e => e.body.sourceItemKey)

structure GenerationVerification where
  importId : Nat
  importUuid : String
  itemCount : Nat
  failedCount : Nat
deriving DecidableEq, Repr

namespace PstTables

/-- `list_items`. -/
def listItems (t : PstTables) (importId : Nat) : List PstItem :=
  (t.items.filter fun i => i.importId == importId).mergeSort
    fun a b => decide (a.sourceItemKey ≤ b.sourceItemKey)

def findMessage (t : PstTables) (id : Nat) : Option Message :=
  t.mail.messages.find? fun m => m.id == id

/-- The names of the folders of an account. -/
def folderNames (t : PstTables) (accountId : String) : List String :=
  (t.mail.folders.filter fun f => f.accountId == accountId).map Folder.rawName

end PstTables

/-- `snapshot.get(field) == text`. -/
def isField (snapshot : Wire.Dict) (field text : String) : Bool :=
  match snapshot.get field with
  | some (.str s) => s == text
  | _ => false

def unreadable {α : Type} (message : String) : Except Error α := .error ⟨.unreadableArchive,message⟩

section
variable (env : PstEnv)

/-- `reuse` of an EML that is only read. -/
def storedEml (files : List (String × Bytes)) (relativePath expectedHash : String) :
    Option StoredEml :=
  if isHexDigest expectedHash then
    match files.lookup relativePath with
    | none => none
    | some raw =>
      if env.sha256 raw = casefoldHex expectedHash then
        some ⟨relativePath,env.sha256 raw,raw.length,true⟩
      else none
  else none

/-- `message.get("remote_state") == "no_remote"`, in the rows of `messages`. -/
def PstTables.isNoRemote (t : PstTables) (m : Message) : Bool :=
  t.remoteStates.lookup m.id == some .noRemote

/-- The body of the loop of `verify_generation`: whether the item counts as failed. -/
def verifyItem (t : PstTables) (record : PstImport) (events : List PstEvent)
    (files : List (String × Bytes)) (item : PstItem) : Except Error Bool :=
  let key := item.sourceItemKey
  if !(t.folderNames record.accountId).contains item.folderRelativePath then
    unreadable ("PST folder is not registered: " ++ key)
  else if !item.status.isSaved then unreadable ("PST item is not saved: " ++ key)
  else
    match item.messageRowId,(eventByItem events .itemSaved key).map PstEvent.body with
    | some messageId,some (.itemSaved _ finalRelativePath fileHash sizeBytes) =>
      match (eventByItem events .itemDiscovered key).map PstEvent.body with
      | some (.itemDiscovered discovered) =>
        if discovered.sourceRelativePath ≠ item.sourceRelativePath ∨
            discovered.folderRelativePath ≠ item.folderRelativePath ∨
            discovered.sourceSizeBytes ≠ item.sourceSizeBytes ∨
            discovered.sourceSha256 ≠ item.sourceSha256 ∨
            item.finalRelativePath ≠ some finalRelativePath then
          unreadable ("PST item storage metadata differs: " ++ key)
        else
          match t.findMessage messageId with
          | none => unreadable ("PST message registration is invalid: " ++ key)
          | some message =>
            if message.accountId ≠ record.accountId ∨ t.isNoRemote message = false ∨
                message.localState = .purged ∨ message.relativePath ≠ some finalRelativePath ∨
                message.fileHash ≠ some fileHash then
              unreadable ("PST message registration is invalid: " ++ key)
            else if (storedEml env files finalRelativePath fileHash).map StoredEml.sizeBytes ≠
                some sizeBytes then
              unreadable ("PST EML is missing or corrupt: " ++ key)
            else
              match item.errorClass with
              | none => .ok false
              | some errorClass =>
                let expected : Wire.Pst.EventName :=
                  if errorClass = .oversize then .itemOversize else .itemParseFailed
                if events.any fun e => e.name == expected && e.body.sourceItemKey == some key then
                  .ok true
                else unreadable ("PST item error is not in the manifest: " ++ key)
      | _ => unreadable ("PST item storage metadata differs: " ++ key)
    | _,_ => unreadable ("PST item has no durable message: " ++ key)

/-- `verify_generation` on what it reads. -/
def verification (t : PstTables) (manifest : PstManifest) (files : List (String × Bytes))
    (importId : Nat) (importUuid : String) (allowSuperseded : Bool) :
    Except Error GenerationVerification := do
  match t.findImport importId with
  | none => unreadable "PST generation does not exist"
  | some record =>
    if record.importUuid ≠ importUuid then unreadable "PST generation does not exist"
    else if !(record.status.isComplete || (allowSuperseded && record.status == .superseded)) then
      unreadable "PST generation is not complete"
    else
      match manifest.importJson,manifest.folders with
      | some snapshot,some _ =>
        if !isField snapshot "import_uuid" importUuid then
          unreadable "PST import manifest UUID does not match the DB"
        else if !isField snapshot "account_id" record.accountId then
          unreadable "PST import manifest account does not match the DB"
        else
          let items := t.listItems importId
          let discovered := itemKeys manifest.events .itemDiscovered
          match (manifest.events.filter fun e => e.name == .importReady).getLast? with
          | none => unreadable "PST generation has no import_ready event"
          | some ready =>
            if discovered.length ≠ items.length ∨
                !discovered.all (items.map PstItem.sourceItemKey).contains ∨
                !(items.map PstItem.sourceItemKey).all discovered.contains then
              unreadable "PST item manifest and DB inventory differ"
            else do
              let failed ← items.mapM (verifyItem env t record manifest.events files)
              match ready.body with
              | .importReady totalFiles _ _ =>
                if totalFiles ≠ items.length then
                  unreadable "PST import_ready count differs from the DB"
                else .ok ⟨importId,importUuid,items.length,(failed.filter fun b => b).length⟩
              | _ => unreadable "PST import_ready count differs from the DB"
      | _,_ => .error ⟨.manifestCorrupt,"PST manifest snapshot cannot be read"⟩

/-- Nothing is written while a generation is verified, so its calls count as one. -/
def verifyGeneration (importId : Nat) (importUuid : String) (allowSuperseded : Bool) :
    Pst GenerationVerification := do
  let _ ← pstCall env
  let w ← get
  liftPst (verification env w.db.tables (w.manifests importUuid) w.files importId importUuid
    allowSuperseded)

def switchGeneration (gated : Bool) (importId : Nat) (importUuid : String) (replacesId : Nat)
    (replacesImportUuid : String) : Pst GenerationVerification := do
  let newRecord ← queryPst env fun t => t.findImport importId
  let oldRecord ← queryPst env fun t => t.findImport replacesId
  match newRecord,oldRecord with
  | some newRecord,some oldRecord =>
    if newRecord.isActive || !oldRecord.isActive || newRecord.replacesId != some replacesId ||
        oldRecord.importUuid != replacesImportUuid then
      raisePst .unreadableArchive "PST generations are not an inactive replacement pair"
    else do
      let verified ← verifyGeneration env importId importUuid false
      ensureWriteAllowed env gated
      appendPst env importUuid (.generationSwitchPrepared replacesImportUuid)
      flushPst env importUuid
      ensureWriteAllowed env gated
      beginPstBatch env
      catching (do
          ensureWriteAllowed env gated
          let now ← pstTimestamp env
          writePst env (PstRepository.activateGeneration now importId replacesId)
          ensureWriteAllowed env gated
          appendPst env importUuid (.generationSwitchCommitted replacesImportUuid)
          ensureWriteAllowed env gated
          flushPst env importUuid
          ensureWriteAllowed env gated
          commitPstBatch env)
        fun e => do
          rollbackPstBatch env
          throw (.raised e)
      ensureWriteAllowed env gated
      appendPst env importUuid (.generationSuperseded replacesImportUuid)
      ensureWriteAllowed env gated
      flushPst env importUuid
      ensureWriteAllowed env gated
      recordPstAudit env "pst_supersede" newRecord.accountId
        ("import_uuid=" ++ importUuid ++ "; superseded_import_uuid=" ++ replacesImportUuid)
      pure verified
  | _,_ => raisePst .unreadableArchive "PST generations are not an inactive replacement pair"

def restoreGeneration (gated : Bool) (importId : Nat) (importUuid supersededImportUuid : String) :
    Pst GenerationVerification := do
  let verified ← verifyGeneration env importId importUuid true
  ensureWriteAllowed env gated
  beginPstBatch env
  catching (do
      ensureWriteAllowed env gated
      let now ← pstTimestamp env
      writePst env (PstRepository.restoreGeneration now importId)
      ensureWriteAllowed env gated
      appendPst env importUuid (.generationRestored importUuid supersededImportUuid)
      ensureWriteAllowed env gated
      flushPst env importUuid
      ensureWriteAllowed env gated
      commitPstBatch env)
    fun e => do
      rollbackPstBatch env
      throw (.raised e)
  let restored ← queryPst env fun t => t.findImport importId
  match restored with
  | none => raisePst .unreadableArchive "Restored PST generation does not exist"
  | some restored => do
    ensureWriteAllowed env gated
    recordPstAudit env "pst_restore_generation" restored.accountId
      ("import_uuid=" ++ importUuid ++ "; superseded_import_uuid=" ++ supersededImportUuid)
    pure verified

/-- Roll a switch back that was prepared and has no commit event. -/
def recoverGenerationSwitch (importId : Nat) (importUuid : String) (replacesId : Nat) :
    Pst Unit := do
  let events ← readPstEvents env importUuid
  if (events.any fun e => e.name == .generationSwitchPrepared) &&
      !(events.any fun e => e.name == .generationSwitchCommitted) then do
    let now ← pstTimestamp env
    writePst env (PstRepository.rollbackGenerationSwitch now importId replacesId)
  else pure ()

end

end MailDock
