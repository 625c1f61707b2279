import MailDock.Pst.StageB

/-!
# The import job of the worker

`resolve_import_job` of `usecases/import_pst.py` looks at the earlier imports of a source and says
what a job does with them; `import_pst` of `presentation/threads/sync_worker.py` does it.

## Main definitions

- `resolveImportJob` — the action of a job
- `PstRepository.createImport`
- `importPst` — the job
-/

namespace MailDock

open Hoare Relational

inductive ImportJobDecision
  | resume | discardIncomplete | cancel | reimport
deriving DecidableEq, Repr

inductive ImportJobAction
  | new | needsIncompleteDecision | resume | discardIncomplete | needsReimportDecision | cancel
  | reimport
deriving DecidableEq, Repr

structure ImportJobResolution where
  action : ImportJobAction
  importRecord : Option PstImport := none
  incompleteRecords : List PstImport := []
  replacesId : Option Nat := none
deriving DecidableEq, Repr

namespace PstTables

/-- `find_incomplete_by_source_sha256`, in the order of the ids. -/
def findIncomplete (t : PstTables) (sourceSha256 : String) : List PstImport :=
  (t.imports.filter fun i => i.sourceSha256 == sourceSha256 && i.status.isIncomplete).mergeSort
    fun a b => decide (a.id ≤ b.id)

/-- `find_active_by_source_sha256`. -/
def findActive (t : PstTables) (sourceSha256 : String) : Option PstImport :=
  t.imports.find? fun i => i.sourceSha256 == sourceSha256 && i.isActive

/-- `resolve_import_job`.  The digest comes from `hexdigest`, which its validation leaves as it is. -/
def resolveImportJob (t : PstTables) (sourceSha256 : String)
    (decision : Option ImportJobDecision) : Except Error ImportJobResolution :=
  match t.findIncomplete sourceSha256 with
  | first :: rest =>
    match decision with
    | none => .ok { action := .needsIncompleteDecision, incompleteRecords := first :: rest }
    | some .resume =>
      .ok { action := .resume, importRecord := some first, incompleteRecords := first :: rest }
    | some .discardIncomplete =>
      .ok { action := .discardIncomplete, incompleteRecords := first :: rest }
    | some _ =>
      .error ⟨.value,"An incomplete PST import accepts resume or discard_incomplete"⟩
  | [] =>
    match (t.findActive sourceSha256).filter fun active => active.status.isComplete with
    | some active =>
      let resolution (action : ImportJobAction) : ImportJobResolution :=
        { action := action, importRecord := some active, replacesId := some active.id }
      match decision with
      | none => .ok (resolution .needsReimportDecision)
      | some .cancel => .ok (resolution .cancel)
      | some .reimport => .ok (resolution .reimport)
      | some _ => .error ⟨.value,"A completed PST import accepts cancel or reimport"⟩
    | none =>
      match decision with
      | none => .ok { action := .new }
      | some _ => .error ⟨.value,"No existing PST import requires the selected decision"⟩

/-- `INSERT INTO pst_imports`. -/
def createImport (record : Nat → PstImport) (t : PstTables) : PstTables :=
  { t with imports := t.imports ++ [record t.nextImportId], nextImportId := t.nextImportId + 1 }

end PstTables

namespace PstRepository

/-- `create_import`; the record is the row but for its id. -/
def createImport (record : Nat → PstImport) (repo : PstRepository) :
    Except Error (Nat × PstRepository) := do
  let created ← exec "create PST import" (repo.tables.createImport record)
  .ok (repo.tables.nextImportId,created)

def upsertAccount (account : Account) (repo : PstRepository) : Except Error PstRepository :=
  if account.id = "" then .error ⟨.database,"Account id is required"⟩
  else exec "upsert account" { repo.tables with mail := repo.tables.mail.upsertAccount account }

end PstRepository

/-- `pst_{source_sha256[:12]}_{import_uuid.replace('-', '')[:8]}`. -/
def pstAccountId (sourceSha256 importUuid : String) : String :=
  "pst_" ++ String.ofList (sourceSha256.toList.take 12) ++ "_" ++ stagingName importUuid

/-- The arguments of `import_pst`. -/
structure PstImportRequest where
  filename : String
  options : ImportOptions
  decision : Option ImportJobDecision := none
deriving DecidableEq, Repr

/-- The results `pst_import_decision` and `pst_import` of the worker. -/
inductive PstImportOutcome
  | decisionRequired (sourceSha256 : String) (hasIncomplete hasActive : Bool)
  | imported (status : ImportStatus) (importId ingestedCount failedCount remainingCount : Nat)
      (reimported : Bool)
deriving DecidableEq, Repr

/-- The row of a new import. -/
def newImport (request : PstImportRequest) (snapshot : SourceFileSnapshot)
    (resolution : ImportJobResolution) (importUuid : String) (id : Nat) : PstImport where
  id := id
  importUuid := importUuid
  accountId := pstAccountId snapshot.sourceSha256 importUuid
  sourceFilename := request.filename
  sourceSha256 := snapshot.sourceSha256
  status := .extracting
  isActive := resolution.action != .reimport
  replacesId := resolution.replacesId

section
variable (env : PstEnv)

/-- The manifest of one incomplete import is told before its row. -/
def discardImport (incomplete : PstImport) : Pst Unit := do
  let _ ← pstCall env
  appendPst env incomplete.importUuid (.importAbandoned "user_discarded_incomplete_import")
  flushPst env incomplete.importUuid
  writePst env (PstRepository.updateImportStatus incomplete.id .abandoned fun i =>
    { i with stagingPath := none })
  removeStaging env false incomplete.importUuid

/-- The account and the row of a new import. -/
def openImport (request : PstImportRequest) (snapshot : SourceFileSnapshot)
    (resolution : ImportJobResolution) : Pst ImportJob := do
  let t ← pstTick
  let importUuid := env.uuid t
  let accountId := pstAccountId snapshot.sourceSha256 importUuid
  writePst env (PstRepository.upsertAccount
    { id := accountId, providerType := "pst_import"
      displayName := some request.options.displayName, isEnabled := false })
  let importId ← insertPst env
    (PstRepository.createImport (newImport request snapshot resolution importUuid))
  pure ⟨importId,importUuid,accountId⟩

/-- The import a job goes on with, or a new one. -/
def chooseImport (request : PstImportRequest) (snapshot : SourceFileSnapshot)
    (resolution : ImportJobResolution) : Pst ImportJob :=
  match resolution.action,resolution.importRecord with
  | .resume,some record => pure ⟨record.id,record.importUuid,record.accountId⟩
  | _,_ => openImport env request snapshot resolution

/-- The switch at the end of a job that started as a re-import. -/
def switchTo (resolution : ImportJobResolution) (job : ImportJob) : Pst Unit :=
  match resolution.replacesId,resolution.importRecord with
  | some replacesId,some old =>
    pstWhen (resolution.action = .reimport) (do
      let _ ← pstCall env
      let _ ← switchGeneration env false job.importId job.importUuid replacesId old.importUuid
      pure ())
  | _,_ => pure ()

/-- The stages of a job, of which a resumed one leaves out the first, and the switch. -/
def runImport (request : PstImportRequest) (snapshot : SourceFileSnapshot)
    (resolution : ImportJobResolution) (job : ImportJob) : Pst PstImportOutcome := do
  let _ ← pstCall env
  pstWhen (resolution.action ≠ .resume) (do
    let t ← pstCall env
    let version ← liftPst (env.readpstVersion t)
    let _ ← runStageA env false job ⟨request.filename,snapshot,version,request.options⟩
    pure ())
  let stageB ← runStageB env false job 100
  let reimported := resolution.action == .reimport
  switchTo env resolution job
  pure (.imported stageB.status job.importId stageB.ingestedCount stageB.failedCount
    stageB.remainingCount reimported)

/-- `import_pst`.  The calls that are nothing but a call here are `check_import_capacity` and the
opening of a manifest; what the closing of a manifest flushes may be lost here as well. -/
def importPst (request : PstImportRequest) : Pst PstImportOutcome := do
  let snapshot ← snapshotSourceFile env
  let _ ← pstCall env
  let found ← queryPst env fun t => t.resolveImportJob snapshot.sourceSha256 request.decision
  let resolution ← liftPst found
  match resolution.action with
  | .cancel => raisePst .cancelled "PST import was cancelled"
  | .needsIncompleteDecision | .needsReimportDecision =>
    pure (.decisionRequired snapshot.sourceSha256 (!resolution.incompleteRecords.isEmpty)
      resolution.importRecord.isSome)
  | _ => do
    pstWhen (resolution.action = .discardIncomplete)
      (resolution.incompleteRecords.forM (discardImport env))
    let job ← chooseImport env request snapshot resolution
    runImport env request snapshot resolution job

end

end MailDock
