import MailDock.Pst.Recovery
import MailDock.Pst.StageRules

/-!
# Invariants of the import job

Each part of an import job keeps an invariant that its own calls keep.  What a write of the worker
does to the imports is said once, and every invariant of a job or of a generation change is derived
from that.

## Main definitions

- `StageInvariant` — what the stages ask of an invariant
- `JobWrite` — what a write of the worker does to the imports
- `runStageA_maintains`, `runStageB_maintains`, `discardImport_maintains`, …
- `importPst_maintains`, `reconcileDetachedImport_maintains`, `restoreGeneration_maintains`
-/

namespace MailDock

open Hoare Relational

/-! ## What the stages ask of an invariant -/

/-- The statuses of an import that is under way or done. -/
def ImportStatus.IsStanding (s : ImportStatus) : Prop :=
  s.isComplete = true ∨ s.isIncomplete = true

/-- The statuses of an import that was given up. -/
def ImportStatus.IsLapsed (s : ImportStatus) : Prop := s = .abandoned ∨ s = .suspect

instance ImportStatus.decidableIsLapsed (s : ImportStatus) : Decidable s.IsLapsed := inferInstanceAs (Decidable (_ ∨ _))

/-- The statuses that a stage gives. -/
def ImportStatus.IsStage (s : ImportStatus) : Prop := s.IsStanding ∨ s.IsLapsed

/-- What the stages of an import append to its manifest. -/
def PstEventBody.IsStage : PstEventBody → Prop
  | .itemDiscovered _ | .itemSaved .. | .itemParseFailed .. | .itemOversize .. | .importReady .. =>
    True
  | .importAbandoned _ => True
  | _ => False

/-- An invariant that the writes of the stages to one import keep, and their events. -/
abbrev StageInvariant (I : PstWorld → Prop) (importId : Nat) (u : String) : Prop :=
  Enduring I (ImportWrite importId ImportStatus.IsStage) fun v body => v = u ∧ body.IsStage

section
variable {I : PstWorld → Prop} {importId : Nat} {u : String} {env : PstEnv} {gated : Bool}

/-- An update that leaves the columns of `SameImport` alone. -/
theorem updateStatus_maintains {s : ImportStatus} {columns : PstImport → PstImport}
    (h : StageInvariant I importId u) (hs : s.IsStage) (hcolumns : ∀ i, SameImport i (columns i)) :
    Maintains I (writePst env (PstRepository.updateImportStatus importId s columns)) :=
  h.write fun _ _ hdb => updateImportStatus_write hs hcolumns hdb

/-- A call takes a tick and may fail. -/
theorem call_maintains {P : PstWorld → Prop} (h : ∀ w, P w → P w.ticked) :
    Maintains P (pstCall env) := by
  refine Maintains.seq (fun w hw => h w hw) fun t => ?_
  split
  · exact Maintains.raise _
  · exact Maintains.ret _

/-! ## Stage A -/

section
variable {job : ImportJob}

theorem abandonStageA_maintains (h : StageInvariant I job.importId job.importUuid) (error : Error) :
    Maintains I (abandonStageA env gated job error) := by
  refine h.ensure.seq fun _ => Maintains.seq (h.append ?_) fun _ => h.flush.seq fun _ => ?_
  · exact ⟨rfl,trivial⟩
  refine h.timestamp.seq fun now => ?_
  refine (updateStatus_maintains h (.inr (.inl rfl))
    fun i => by constructor <;> rfl).seq fun _ => ?_
  refine h.ensure.seq fun _ => h.query.seq fun record => ?_
  split
  · exact Enduring.raised _ _
  · exact (h.audit fun _ _ => .other).seq fun _ => h.removeStaging

theorem recordInventory_maintains (h : StageInvariant I job.importId job.importUuid)
    (items : List StagedItem) :
    Maintains I (recordInventory env gated job.importId items) := by
  refine h.begin.seq fun _ => h.transaction ?_
  refine Maintains.seq (Maintains.loop items fun item _ => ?_) fun _ =>
    h.ensure.seq fun _ => h.commit
  exact h.ensure.seq fun _ => h.write fun _ _ => upsertImportItem_write

theorem publishInventory_maintains (h : StageInvariant I job.importId job.importUuid)
    (snapshot : Wire.Dict) (items : List StagedItem) (folders : List StagedFolder) :
    Maintains I (publishInventory env gated job snapshot items folders) := by
  refine (Enduring.lift _).seq fun inventory => (Enduring.lift _).seq fun static => ?_
  refine h.ensure.seq fun _ => h.writeFoldersManifest.seq fun _ => ?_
  refine h.timestamp.seq fun now => ?_
  refine Maintains.seq (Maintains.loop items fun item _ => h.appendAt ?_) fun _ => ?_
  · exact ⟨rfl,trivial⟩
  refine h.flush.seq fun _ => h.ensure.seq fun _ => ?_
  refine (recordInventory_maintains h items).seq fun _ => h.ensure.seq fun _ => ?_
  refine Maintains.seq (h.append ?_) fun _ => h.flush.seq fun _ => ?_
  · exact ⟨rfl,trivial⟩
  refine h.ensure.seq fun _ => h.timestamp.seq fun createdAt => ?_
  refine h.writeMarker.seq fun _ => h.readMarker.seq fun _ => ?_
  exact (updateStatus_maintains h (.inl (.inr rfl))
    fun i => by constructor <;> rfl).seq fun _ => Maintains.ret _

theorem extractAndPublish_maintains (h : StageInvariant I job.importId job.importUuid)
    (source : PstSource) (snapshot : Wire.Dict) :
    Maintains I (extractAndPublish env gated job source snapshot) := by
  refine h.ensure.seq fun _ => ?_
  refine (updateStatus_maintains h (.inl (.inr rfl))
    fun i => by constructor <;> rfl).seq fun _ => ?_
  refine h.writeImportManifest.seq fun _ => h.flush.seq fun _ => ?_
  refine h.ensure.seq fun _ => h.query.seq fun record => ?_
  refine (h.audit fun _ _ => .other).seq fun _ => h.cancel.seq fun _ => ?_
  refine h.extract.seq fun _ => h.validateSourceSnapshot.seq fun _ => ?_
  exact h.scanStaging.seq fun found => publishInventory_maintains h _ _ _

theorem runStageA_maintains (h : StageInvariant I job.importId job.importUuid)
    (source : PstSource) : Maintains I (runStageA env gated job source) := by
  refine h.timestamp.seq fun createdAt => h.ensure.seq fun _ => ?_
  refine h.removeStaging.seq fun _ => h.createStaging.seq fun _ => ?_
  exact unlessDetached_maintains (extractAndPublish_maintains h source _)
    (abandonStageA_maintains h)

/-! ## Stage B -/

theorem recordItem_maintains (h : StageInvariant I job.importId job.importUuid)
    (known : List PstEvent) {body : PstEventBody} (hbody : body.IsStage) :
    Maintains I (recordItem env gated job.importUuid known body) := by
  refine h.timestamp.seq fun now => h.ensure.seq fun _ => ?_
  exact (h.appendAt ⟨rfl,hbody⟩).seq fun _ => Maintains.ret _

theorem saveItem_maintains (h : StageInvariant I job.importId job.importUuid)
    (known : List PstEvent) (item : PstItem) (raw : Bytes) :
    Maintains I (saveItem env gated job known item raw) := by
  unfold saveItem
  split
  · exact Maintains.ret _
  · refine h.ensure.seq fun _ => h.saveStagedEml.seq fun saved => ?_
    split
    · exact Enduring.raised _ _
    · refine Maintains.seq (recordItem_maintains h known ?_) fun _ => Maintains.ret _
      exact trivial

theorem failureEvent_isStage {item : PstItem} {staged : StagedMessage} {body : PstEventBody}
    (h : failureEvent item staged = some body) : body.IsStage := by
  unfold failureEvent at h
  split at h
  · cases h
    trivial
  · obtain ⟨text,-,rfl⟩ := Option.map_eq_some_iff.mp h
    trivial

theorem recordFailure_maintains (h : StageInvariant I job.importId job.importUuid)
    (known : List PstEvent) (item : PstItem) (staged : StagedMessage) :
    Maintains I (recordFailure env gated job known item staged) := by
  unfold recordFailure
  split
  · next body hbody =>
    split
    · exact recordItem_maintains h _ (failureEvent_isStage hbody)
    · exact Maintains.ret _
  · exact Maintains.ret _

theorem prepareItem_maintains (h : StageInvariant I job.importId job.importUuid)
    (known : List PstEvent) (item : PstItem) :
    Maintains I (prepareItem env gated job known item) := by
  refine h.cancel.seq fun _ => h.readStagedItem.seq fun raw => ?_
  refine (saveItem_maintains h known item raw).seq fun saved => ?_
  exact (recordFailure_maintains h _ item _).seq fun _ => Maintains.ret _

theorem commitItem_maintains (h : StageInvariant I job.importId job.importUuid)
    (p : PreparedItem) : Maintains I (commitItem env job p) := by
  refine (h.insert fun _ _ _ => upsertFolder_write).seq fun folderId => ?_
  refine (h.insert fun _ _ _ => addMessage_write).seq fun messageId => ?_
  exact h.write fun _ _ => upsertImportItem_write

theorem commitPrepared_maintains (h : StageInvariant I job.importId job.importUuid)
    (prepared : List PreparedItem) : Maintains I (commitPrepared env job prepared) := by
  refine h.begin.seq fun _ => h.transaction ?_
  refine Maintains.seq (Maintains.loop prepared fun p _ => commitItem_maintains h p) fun _ => ?_
  refine h.query.seq fun items => ?_
  exact (updateStatus_maintains h (.inl (.inr rfl))
    fun i => by constructor <;> rfl).seq fun _ => h.commit

theorem ingestBatch_maintains (h : StageInvariant I job.importId job.importUuid)
    (known : List PstEvent) (batch : List PstItem) :
    Maintains I (ingestBatch env gated job known batch) := by
  refine h.cancel.seq fun _ => Maintains.seq (Maintains.accumulate batch (fun s item _ =>
    (prepareItem_maintains h s.1 item).seq fun _ => Maintains.ret _) _) fun s => ?_
  refine h.ensure.seq fun _ => h.flush.seq fun _ => ?_
  exact (commitPrepared_maintains h s.2).seq fun _ => Maintains.ret _

theorem finishStageB_maintains (h : StageInvariant I job.importId job.importUuid)
    (processedCount : Nat) : Maintains I (finishStageB env gated job processedCount) := by
  refine h.query.seq fun items => h.ensure.seq fun _ =>
    h.timestamp.seq fun now => ?_
  refine Maintains.seq (updateStatus_maintains h (.inl ?_) fun i => by constructor <;> rfl)
    fun _ => ?_
  · split
    · exact .inr rfl
    · split
      · exact .inl rfl
      · exact .inl rfl
  · refine Maintains.seq ?_ fun _ => Maintains.ret _
    exact pstWhen_maintains fun _ => h.removeStaging

theorem stageBFailed_maintains (h : StageInvariant I job.importId job.importUuid)
    (error : Error) : Maintains I (stageBFailed env gated job error) := by
  refine h.ensure.seq fun _ => ?_
  split
  · exact updateStatus_maintains h (.inl (.inr rfl)) fun i => by constructor <;> rfl
  · exact updateStatus_maintains h (.inl (.inr rfl)) fun i => by constructor <;> rfl

theorem runStageB_maintains (h : StageInvariant I job.importId job.importUuid)
    (batchSize : Nat) : Maintains I (runStageB env gated job batchSize) := by
  refine Maintains.seq (pstWhen_maintains fun _ => Enduring.raised _ _) fun _ => ?_
  refine h.readMarker.seq fun marker => ?_
  refine Maintains.seq (pstWhen_maintains fun _ => Enduring.raised _ _) fun _ => ?_
  refine h.query.seq fun items => h.events.seq fun known => ?_
  refine h.ensure.seq fun _ => ?_
  refine (updateStatus_maintains h (.inl (.inr rfl))
    fun i => by constructor <;> rfl).seq fun _ => ?_
  refine unlessDetached_maintains ?_ (stageBFailed_maintains h)
  refine Maintains.seq (Maintains.accumulate _ (fun known batch _ =>
    ingestBatch_maintains h known batch) known) fun _ => ?_
  exact finishStageB_maintains h _

/-! ## Jobs -/

theorem discardImport_maintains {incomplete : PstImport}
    (h : StageInvariant I incomplete.id incomplete.importUuid) :
    Maintains I (discardImport env incomplete) := by
  refine h.call.seq fun _ => Maintains.seq (h.append ?_) fun _ => h.flush.seq fun _ => ?_
  · exact ⟨rfl,trivial⟩
  refine (updateStatus_maintains h (.inr (.inl rfl))
    fun i => by constructor <;> rfl).seq fun _ => ?_
  exact h.removeStaging

theorem stageAEvidence_maintains (h : StageInvariant I job.importId job.importUuid) :
    Maintains I (stageAEvidence env job) := by
  refine h.readMarker.seq fun marker => ?_
  refine Maintains.seq (pstWhen_maintains fun _ => Enduring.raised _ _) fun _ => ?_
  refine Maintains.seq (pstWhen_maintains fun _ => Enduring.raised _ _) fun _ => ?_
  refine h.scanStaging.seq fun found => h.call.seq fun _ => ?_
  exact Maintains.read.seq fun w => (Enduring.lift _).seq fun _ => Maintains.ret _

theorem reconcileSuspectImport_maintains (h : StageInvariant I job.importId job.importUuid)
    (reason : String) : Maintains I (reconcileSuspectImport env gated job reason) := by
  refine h.ensure.seq fun _ => Maintains.seq (h.append ?_) fun _ => h.flush.seq fun _ => ?_
  · exact ⟨rfl,trivial⟩
  refine h.ensure.seq fun _ => h.timestamp.seq fun now => ?_
  refine (updateStatus_maintains h (.inr (.inr rfl))
    fun i => by constructor <;> rfl).seq fun _ => ?_
  exact (h.audit fun _ _ => .other).seq fun _ => h.removeStaging

theorem messageKept_maintains (h : StageInvariant I job.importId job.importUuid)
    (saved : Option PstEventBody) (current : Option PstItem) :
    Maintains I (messageKept env saved current) := by
  unfold messageKept
  split
  · exact h.query
  · exact Maintains.ret _

theorem restoreInventory_maintains (h : StageInvariant I job.importId job.importUuid)
    (items : List StagedItem) (events : List PstEvent) :
    Maintains I (restoreInventory env gated job items events) := by
  refine h.query.seq fun existing => h.ensure.seq fun _ => ?_
  refine h.begin.seq fun _ => h.transaction ?_
  refine Maintains.seq (Maintains.accumulate items (fun count item _ => ?_) 0) fun ingested => ?_
  · refine Maintains.seq ?_ fun kept => Maintains.ret _
    refine Maintains.seq (messageKept_maintains h _ _) fun exist => h.ensure.seq fun _ => ?_
    exact (h.write fun _ _ => upsertImportItem_write).seq fun _ => Maintains.ret _
  · refine h.ensure.seq fun _ => ?_
    refine (updateStatus_maintains h (.inl (.inr rfl))
      fun i => by constructor <;> rfl).seq fun _ => ?_
    exact h.ensure.seq fun _ => h.commit

theorem reconcileImport_maintains (h : StageInvariant I job.importId job.importUuid) :
    Maintains I (reconcileImport env gated job) := by
  refine Maintains.seq (catching_rule (F := fun _ => I) ?_ (fun e => ?_) fun _ hw => hw)
    fun evidence => ?_
  · exact (stageAEvidence_maintains h).seq fun evidence => Maintains.ret _
  · split
    · exact (reconcileSuspectImport_maintains h _).seq fun _ => Maintains.ret _
    · exact Maintains.raise _
  · split
    · exact Maintains.ret _
    · exact (restoreInventory_maintains h _ _).seq fun _ => Maintains.ret _

end

end

/-! ## Generation changes -/

section
variable {I : PstWorld → Prop} {R : PstRepository → PstRepository → Prop}
  {A : String → PstEventBody → Prop} {env : PstEnv} {gated : Bool} {importId : Nat} {u : String}

theorem switchGeneration_maintains {replacesId : Nat} {old : String} (h : Enduring I R A)
    (hactivate : ∀ now repo db, repo.activateGeneration now importId replacesId = .ok db → R repo db)
    (hother : ∀ repo db : PstRepository, db.tables.imports = repo.tables.imports → R repo db)
    (happend : ∀ body, A u body) :
    Maintains I (switchGeneration env gated importId u replacesId old) := by
  refine h.query.seq fun newRecord => h.query.seq fun oldRecord => ?_
  split
  · split
    · exact Enduring.raised _ _
    refine h.verify.seq fun verified => h.ensure.seq fun _ => ?_
    refine (h.append (happend _)).seq fun _ => h.flush.seq fun _ => h.ensure.seq fun _ => ?_
    refine h.begin.seq fun _ => Maintains.seq (h.transaction ?_) fun _ => ?_
    · refine h.ensure.seq fun _ => h.timestamp.seq fun now => ?_
      refine (h.write (hactivate now)).seq fun _ => h.ensure.seq fun _ => ?_
      refine (h.append (happend _)).seq fun _ => h.ensure.seq fun _ => h.flush.seq fun _ => ?_
      exact h.ensure.seq fun _ => h.commit
    · refine h.ensure.seq fun _ => (h.append (happend _)).seq fun _ => h.ensure.seq fun _ => ?_
      refine h.flush.seq fun _ => h.ensure.seq fun _ => ?_
      exact (h.audit hother).seq fun _ => Maintains.ret _
  · exact Enduring.raised _ _

end

theorem liftPst_rule {α : Type} {P : PstWorld → Prop} {x : Except Error α} :
    Triple P (liftPst x) (fun a w => P w ∧ x = .ok a) fun _ => P := by
  intro w hw
  cases x with
  | ok a => exact ⟨hw,rfl⟩
  | error e => exact hw

/-! ## Operations of the worker -/

/-- What a write of the worker does to the imports.  Not every operation switches. -/
inductive JobWrite (switches : Prop) (repo db : PstRepository) : Prop
  | stage (importId : Nat) (h : ImportWrite importId ImportStatus.IsStage repo db)
  | created (request : PstImportRequest) (snapshot : SourceFileSnapshot)
      (resolution : ImportJobResolution) (importUuid : String) (id : Nat)
      (h : repo.createImport (newImport request snapshot resolution importUuid) = .ok (id,db))
  | activated (hswitches : switches) (now : String) (importId replacesId : Nat)
      (h : repo.activateGeneration now importId replacesId = .ok db)
  | restored (hswitches : switches) (now : String) (importId : Nat)
      (h : repo.restoreGeneration now importId = .ok db)

/-- Only a job that was told to reimport does. -/
theorem PstTables.resolveImportJob_decision {t : PstTables} {source : String}
    {decision : Option ImportJobDecision} {r : ImportJobResolution}
    (h : t.resolveImportJob source decision = .ok r) (haction : r.action = .reimport) :
    decision = some .reimport := by
  unfold resolveImportJob at h
  split at h
  · split at h
    · cases h
      cases haction
    · cases h
      cases haction
    · cases h
      cases haction
    · cases h
  · split at h
    · split at h
      · cases h
        cases haction
      · cases h
        cases haction
      · rfl
      · cases h
    · split at h
      · cases h
        cases haction
      · cases h

section
variable {I : PstWorld → Prop} {switches : Prop} {env : PstEnv} {gated : Bool}
  {request : PstImportRequest} {snapshot : SourceFileSnapshot} {resolution : ImportJobResolution}

theorem Enduring.stage (h : Enduring I (JobWrite switches) fun _ _ => True) (importId : Nat)
    (u : String) : StageInvariant I importId u :=
  h.mono (fun _ _ => .stage importId) fun _ _ _ => trivial

theorem chooseImport_maintains (h : Enduring I (JobWrite switches) fun _ _ => True) :
    Maintains I (chooseImport env request snapshot resolution) := by
  have hopen : Maintains I (openImport env request snapshot resolution) := by
    refine h.tick.seq fun t => Maintains.seq (h.write fun _ _ hdb => ?_) fun _ => ?_
    · exact .stage 0 (upsertAccount_write hdb)
    · exact (h.insert fun _ id _ => .created _ _ _ _ id).seq fun _ => Maintains.ret _
  unfold chooseImport
  split
  · exact Maintains.ret _
  · exact hopen

theorem runImport_maintains {job : ImportJob} (h : Enduring I (JobWrite switches) fun _ _ => True)
    (hswitches : resolution.action = .reimport → switches) :
    Maintains I (runImport env request snapshot resolution job) := by
  have hstage := h.stage job.importId job.importUuid
  refine h.call.seq fun _ => Maintains.seq (pstWhen_maintains fun _ => ?_) fun _ => ?_
  · refine h.call.seq fun t => (Enduring.lift _).seq fun version => ?_
    exact (runStageA_maintains hstage _).seq fun _ => Maintains.ret _
  refine (runStageB_maintains hstage 100).seq fun stageB => ?_
  refine Maintains.seq ?_ fun _ => Maintains.ret _
  unfold switchTo
  split
  · refine pstWhen_maintains fun haction => h.call.seq fun _ => Maintains.seq ?_ fun _ =>
      Maintains.ret _
    refine switchGeneration_maintains h (fun now _ _ => ?_) (fun _ _ => ?_) fun _ => trivial
    · exact .activated (hswitches haction) now _ _
    · exact fun himports => .stage 0 (.other himports)
  · exact Maintains.ret _

/-- An import job keeps what its writes keep. -/
theorem importPst_maintains
    (h : Enduring I (JobWrite (request.decision = some .reimport)) fun _ _ => True) :
    Maintains I (importPst env request) := by
  refine h.snapshotSourceFile.seq fun snapshot => h.call.seq fun _ => ?_
  refine Triple.seq h.query_tables fun found => Triple.assume fun hfound => ?_
  refine Triple.seq liftPst_rule fun resolution => Triple.assume fun hresolution => ?_
  obtain ⟨t,rfl⟩ := hfound
  have hjob : Maintains I (do
      pstWhen (resolution.action = .discardIncomplete)
        (resolution.incompleteRecords.forM (discardImport env))
      let job ← chooseImport env request snapshot resolution
      runImport env request snapshot resolution job) := by
    refine Maintains.seq (pstWhen_maintains fun _ => ?_) fun _ => ?_
    · exact Maintains.loop _ fun i _ => discardImport_maintains (h.stage _ _)
    · refine (chooseImport_maintains h).seq fun job => ?_
      exact runImport_maintains h (PstTables.resolveImportJob_decision hresolution)
  split
  · exact Enduring.raised _ _
  · exact Maintains.ret _
  · exact Maintains.ret _
  · exact hjob

theorem reconcileDetachedImport_maintains {importId : Nat} {importUuid : String}
    (h : Enduring I (JobWrite switches) fun _ _ => True) :
    Maintains I (reconcileDetachedImport env gated importId importUuid) := by
  refine h.ensure.seq fun _ => h.query.seq fun record => ?_
  split
  · exact Enduring.raised _ _
  · exact reconcileImport_maintains (h.stage _ _)

theorem restoreGeneration_maintains {importId : Nat} {importUuid old : String}
    (h : Enduring I (JobWrite True) fun _ _ => True) :
    Maintains I (restoreGeneration env gated importId importUuid old) := by
  refine h.verify.seq fun verified => h.ensure.seq fun _ => h.begin.seq fun _ => ?_
  refine Maintains.seq (h.transaction ?_) fun _ => h.query.seq fun restored => ?_
  · refine h.ensure.seq fun _ => h.timestamp.seq fun now => ?_
    refine (h.write fun _ _ => .restored trivial now _).seq fun _ => h.ensure.seq fun _ => ?_
    refine (h.append trivial).seq fun _ => h.ensure.seq fun _ => h.flush.seq fun _ => ?_
    exact h.ensure.seq fun _ => h.commit
  · split
    · exact Enduring.raised _ _
    · refine h.ensure.seq fun _ => Maintains.seq (h.audit fun _ _ himports => ?_) fun _ => ?_
      · exact .stage 0 (.other himports)
      · exact Maintains.ret _

end

/-- What was flushed is there. -/
theorem flushed_enduring :
    Enduring (fun w => ∀ u, w.flushed u ≤ (w.manifests u).events.length) (fun _ _ => True)
      fun _ _ => True where
  ticked w hw := hw
  staging w s hw := hw
  saved w path raw hw := hw
  began w hw := hw
  committed w hw := hw
  rolledBack w hw := hw
  written w db hw _ := by
    unfold PstWorld.written
    split
    · exact hw
    · exact hw
  appended w v now body events hw _ happend u := by
    refine (hw u).trans ?_
    by_cases hv : u = v
    · subst hv
      have hrecord : Recorded u (w.manifests u).events body events := ⟨now,happend⟩
      simpa [PstWorld.appended,PstWorld.setManifest] using hrecord.isPrefix.length_le
    · simp [PstWorld.appended,PstWorld.setManifest,Function.update_of_ne hv]
  flushed w v hw u := by
    by_cases hv : u = v
    · subst hv
      simp [PstWorld.flushedAll]
    · simpa [PstWorld.flushedAll,Function.update_of_ne hv] using hw u
  snapshot w v m hw hm u := by
    by_cases hv : u = v
    · subst hv
      simpa [PstWorld.setManifest,hm] using hw u
    · simpa [PstWorld.setManifest,Function.update_of_ne hv] using hw u

end MailDock
