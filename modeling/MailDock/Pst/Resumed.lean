import MailDock.Pst.Standing

/-!
# Interrupted re-imports

A re-import ends with the switch to the generation it made.  The job that resumes one was not started
as a re-import, and has no switch: the replaced generation stays active for good.

## Main definitions

- `PstTables.Parting` — what an interrupted re-import keeps
- `EndsAlike` — what is asked of a re-import that was interrupted and resumed
- `interrupted_reimport_never_ends_alike`
-/

namespace MailDock

open Hoare Relational

/-! ## Invariants of the tables -/

/-- No import of the source but this one is incomplete. -/
def PstTables.OnlyOpen (t : PstTables) (source : String) (importId : Nat) : Prop :=
  ∀ i ∈ t.imports, i.sourceSha256 = source → i.status.isIncomplete = true → i.id = importId

def PstTables.NoneOpen (t : PstTables) (source : String) : Prop :=
  ∀ i ∈ t.imports, i.sourceSha256 = source → i.status.isIncomplete = false

/-- Until the switch the active generations stay active, and after it no import of the source is
incomplete. -/
structure PstTables.Parting (source : String) (kept : Nat → Prop) (importId : Nat) (t : PstTables) :
    Prop where
  onlyOpen : t.OnlyOpen source importId
  active : t.KeepsActive kept ∨ t.NoneOpen source

section
variable {source : String} {kept : Nat → Prop} {importId : Nat} {repo db : PstRepository}
  {t : PstTables}

theorem PstTables.NoneOpen.onlyOpen (h : t.NoneOpen source) : t.OnlyOpen source importId := by
  intro i hi hsource hopen
  rw [h i hi hsource] at hopen
  cases hopen

theorem ImportWrite.onlyOpen {ok : ImportStatus → Prop} (h : ImportWrite importId ok repo db)
    (hopen : repo.tables.OnlyOpen source importId) : db.tables.OnlyOpen source importId := by
  intro j hj hsource hj'
  obtain ⟨i,hi,hsame,hstatus⟩ := h.row hj
  rw [hsame.id]
  cases hstatus with
  | inl hstatus => exact hopen i hi (hsame.sourceSha256 ▸ hsource) (hstatus ▸ hj')
  | inr hstatus => exact hstatus.1

/-- After the switch to the import no import of the source is incomplete. -/
theorem activateGeneration_noneOpen {now : String} {replacesId : Nat}
    (hopen : repo.tables.OnlyOpen source importId)
    (h : repo.activateGeneration now importId replacesId = .ok db) : db.tables.NoneOpen source := by
  obtain ⟨newRow,oldRow,hpair,rfl,rfl,htables⟩ := PstRepository.activateGeneration_ok_iff.mp h
  intro j hj hsource
  rw [htables] at hj
  obtain ⟨i,hi,-,-,hi',⟨rfl,hne,-⟩ | rfl | ⟨hid,rfl⟩⟩ := exchanged_row (exchanges_activate now)
    hpair.ids_ne hj
  · by_contra hon
    exact hne (hopen j hi hsource (by simpa using hon))
  · rfl
  · rw [repo.valid.import_eq hi hpair.memNew hid]
    have hcomplete := hpair.finished
    cases hs : newRow.status <;> simp_all [PstImport.activated,ImportStatus.isComplete,
      ImportStatus.isIncomplete]

theorem PstTables.Parting.congr (h : db.tables.imports = repo.tables.imports)
    (hparting : repo.tables.Parting source kept importId) :
    db.tables.Parting source kept importId where
  onlyOpen i hi := hparting.onlyOpen i (h ▸ hi)
  active := by
    refine hparting.active.imp (fun hactive id hid => ?_) fun hnone i hi => hnone i (h ▸ hi)
    rw [h]
    exact hactive id hid

/-- The row of a new import joins rows of which none is incomplete. -/
theorem createImport_onlyOpen {record : Nat → PstImport} {id : Nat} (hid : ∀ n, (record n).id = n)
    (hnone : repo.tables.NoneOpen source) (h : repo.createImport record = .ok (id,db)) :
    db.tables.OnlyOpen source id := by
  obtain ⟨rfl,himports⟩ := createImport_imports h
  intro i hi hsource hopen
  rw [himports,List.mem_append,List.mem_singleton] at hi
  cases hi with
  | inl hi => exact hnone.onlyOpen i hi hsource hopen
  | inr hi => rw [hi,hid]

end

theorem PstTables.NoneOpen.findIncomplete {t : PstTables} {source : String} (h : t.NoneOpen source) :
    t.findIncomplete source = [] := by
  have hempty : (t.imports.filter fun i => i.sourceSha256 == source && i.status.isIncomplete) = [] := by
    rw [List.filter_eq_nil_iff]
    intro i hi
    by_cases hsource : i.sourceSha256 = source
    · simp [h i hi hsource]
    · simp [hsource]
  unfold PstTables.findIncomplete
  rw [hempty,List.mergeSort_nil]

/-! ## The re-import -/

/-- Every look at the source finds this one. -/
def PstEnv.OnSource (env : PstEnv) (source : String) : Prop :=
  ∀ t snapshot, env.sourceFile t = .ok snapshot → snapshot.sourceSha256 = source

/-- What a job that was told to reimport does. -/
theorem PstTables.resolveImportJob_reimport {t : PstTables} {source : String}
    {r : ImportJobResolution} (h : t.resolveImportJob source (some .reimport) = .ok r) :
    t.NoneOpen source ∧ r.action = .reimport ∧ ∃ old ∈ t.imports, old.isActive = true ∧
      r.importRecord = some old ∧ r.replacesId = some old.id := by
  unfold resolveImportJob at h
  split at h
  · cases h
  · next hincomplete =>
    have hnone : t.NoneOpen source := by
      intro i hi hsource
      by_contra hopen
      have hmem : i ∈ t.findIncomplete source := by
        refine (List.mergeSort_perm _ _).symm.subset (List.mem_filter.mpr ⟨hi,?_⟩)
        simpa [hsource] using hopen
      rw [hincomplete] at hmem
      cases hmem
    split at h
    · next old hold =>
      cases h
      have hfound := (Option.filter_eq_some_iff.mp hold).1
      have hactive := List.find?_some hfound
      rw [Bool.and_eq_true] at hactive
      exact ⟨hnone,rfl,old,List.mem_of_find?_eq_some hfound,hactive.2,rfl,rfl⟩
    · cases h

/-- Until something is written, the database is the one on disk. -/
theorem Enduring.unwritten {I : PstWorld → Prop} {R : PstRepository → PstRepository → Prop}
    {A : String → PstEventBody → Prop} (h : Enduring I R A) (repo : PstRepository) :
    Enduring (fun w => I w ∧ w.db = repo ∧ w.committed = repo) (fun _ _ => False)
      fun _ _ => False where
  ticked w hw := ⟨h.ticked w hw.1,hw.2⟩
  staging w s hw := ⟨h.staging w s hw.1,hw.2⟩
  saved w path raw hw := ⟨h.saved w path raw hw.1,hw.2⟩
  began w hw := ⟨h.began w hw.1,hw.2⟩
  committed w hw := ⟨h.committed w hw.1,hw.2.1,hw.2.1⟩
  rolledBack w hw := ⟨h.rolledBack w hw.1,hw.2.2,hw.2.2⟩
  written _ _ _ hdb := hdb.elim
  appended _ _ _ _ _ _ hbody := hbody.elim
  flushed w u hw := ⟨h.flushed w u hw.1,hw.2⟩
  snapshot w u m hw hm := ⟨h.snapshot w u m hw.1 hm,hw.2⟩

theorem Enduring.query_unwritten {I : PstWorld → Prop} {R : PstRepository → PstRepository → Prop}
    {A : String → PstEventBody → Prop} {env : PstEnv} {α : Type} (h : Enduring I R A)
    (repo : PstRepository) {query : PstTables → α} :
    Triple (fun w => I w ∧ w.db = repo ∧ w.committed = repo) (queryPst env query)
      (fun a w => (I w ∧ w.db = repo ∧ w.committed = repo) ∧ a = query repo.tables) fun _ => I := by
  refine Triple.seq ((h.unwritten repo).call.weaken_error fun _ _ hw => hw.1) fun _ w hw => ?_
  exact ⟨hw,congrArg (fun repo : PstRepository => query repo.tables) hw.2.1⟩

section
variable {source : String} {kept : Nat → Prop} {env : PstEnv} {request : PstImportRequest}
  {snapshot : SourceFileSnapshot} {resolution : ImportJobResolution}

theorem Enduring.snapshot_onSource {I : PstWorld → Prop} {R : PstRepository → PstRepository → Prop}
    {A : String → PstEventBody → Prop} (h : Enduring I R A) (hsource : env.OnSource source) :
    Triple I (MailDock.snapshotSourceFile env)
      (fun (s : SourceFileSnapshot) w => I w ∧ s.sourceSha256 = source) fun _ => I := by
  refine Triple.seq (Q := fun _ => I) h.cancel fun _ => Triple.seq (Q := fun _ => I) h.call fun t => ?_
  exact liftPst_rule.strengthen_post fun s w hw => ⟨hw.1,hsource t s hw.2⟩

theorem openImport_parting :
    Triple (Both fun t => t.KeepsActive kept ∧ t.NoneOpen source)
      (openImport env request snapshot resolution)
      (fun job => Both fun t => t.OnlyOpen source job.importId ∧ t.KeepsActive kept)
      fun _ => Both fun t => t.KeepsActive kept ∧ t.NoneOpen source := by
  have h := @both_enduring fun t => t.KeepsActive kept ∧ t.NoneOpen source
  refine Triple.seq (Q := fun _ => Both _) h.tick fun t => ?_
  refine Triple.seq (Q := fun _ => Both _) (h.write fun repo db hdb hrepo => ?_) fun _ => ?_
  · have himports : db.tables.imports = repo.tables.imports := by
      unfold PstRepository.upsertAccount at hdb
      split at hdb
      · cases hdb
      · rw [PstRepository.exec_eq_ok.mp hdb]
    unfold PstTables.KeepsActive PstTables.NoneOpen
    rw [himports]
    exact hrepo
  refine Triple.seq (Q := fun importId => Both fun t => t.OnlyOpen source importId ∧ t.KeepsActive kept)
    ?_ fun importId => Triple.ret fun _ hw => hw
  refine Triple.seq (Q := fun _ => Both _) h.call fun _ w hw => ?_
  show Holds _ _ (Prog.bind (liftPst (w.db.createImport
    (newImport request snapshot resolution (env.uuid t)))) _ w)
  unfold Prog.bind
  cases hst : w.db.createImport (newImport request snapshot resolution (env.uuid t)) with
  | error e => exact hw
  | ok created =>
    obtain ⟨id,db⟩ := created
    have hnew : db.tables.OnlyOpen source id ∧ db.tables.KeepsActive kept :=
      ⟨createImport_onlyOpen (fun _ => rfl) hw.1.2 hst,createImport_keepsActive hst hw.1.1⟩
    show Both (fun t => t.OnlyOpen source id ∧ t.KeepsActive kept) (w.written db)
    unfold PstWorld.written
    split
    · exact ⟨hnew,hw.2.2.onlyOpen,hw.2.1⟩
    · exact ⟨hnew,hnew⟩

/-- The stages leave the active generations active. -/
theorem parting_stage {importId : Nat} {u : String} :
    StageInvariant (Both fun t => t.OnlyOpen source importId ∧ t.KeepsActive kept) importId u :=
  both_enduring.mono (fun _ _ h hrepo => ⟨h.onlyOpen hrepo.1,h.keepsActive hrepo.2⟩)
    fun _ _ _ => trivial

theorem switchTo_parting {job : ImportJob} :
    Maintains (Both (PstTables.Parting source kept job.importId)) (switchTo env resolution job) := by
  have h := @both_enduring (PstTables.Parting source kept job.importId)
  unfold switchTo
  split
  · refine pstWhen_maintains fun _ => h.call.seq fun _ => Maintains.seq
      (switchGeneration_maintains h ?_ ?_ fun _ => trivial) fun _ => Maintains.ret _
    · intro now repo db hdb hrepo
      have hnone := activateGeneration_noneOpen hrepo.onlyOpen hdb
      exact ⟨hnone.onlyOpen,.inr hnone⟩
    · exact fun _ _ himports hrepo => hrepo.congr himports
  · exact Maintains.ret _

/-- A re-import that stops leaves the active generations active, or no import to resume. -/
theorem importPst_parting {repo : PstRepository} (hsource : env.OnSource source)
    (hdecision : request.decision = some .reimport) (hactive : repo.tables.KeepsActive kept) :
    Triple (fun w => w.db = repo ∧ w.committed = repo) (importPst env request)
      (fun _ => Both fun t => t.KeepsActive kept ∨ t.NoneOpen source)
      fun _ => Both fun t => t.KeepsActive kept ∨ t.NoneOpen source := by
  have h := @both_enduring fun t => t.KeepsActive kept
  have hopen := h.unwritten repo
  have hend : ∀ w, Both (fun t => t.KeepsActive kept) w →
      Both (fun t => t.KeepsActive kept ∨ t.NoneOpen source) w := fun w hw => ⟨.inl hw.1,.inl hw.2⟩
  refine Triple.weaken_pre (P := fun w => Both (fun t => t.KeepsActive kept) w ∧ w.db = repo ∧
    w.committed = repo) ?_ fun w hw => ⟨⟨hw.1 ▸ hactive,hw.2 ▸ hactive⟩,hw⟩
  refine Triple.seq ((hopen.snapshot_onSource hsource).weaken_error fun _ w hw => hend w hw.1)
    fun snapshot => Triple.assume fun hsha => ?_
  subst hsha
  refine Triple.seq (hopen.call.weaken_error fun _ w hw => hend w hw.1) fun _ => ?_
  refine Triple.seq ((h.query_unwritten repo).weaken_error fun _ => hend) fun found =>
    Triple.assume fun hfound => ?_
  refine Triple.seq (liftPst_rule.weaken_error fun _ w hw => hend w hw.1) fun resolution =>
    Triple.assume fun hresolution => ?_
  rw [hfound,hdecision] at hresolution
  obtain ⟨hnone,haction,old,-,-,hrecord,-⟩ := PstTables.resolveImportJob_reimport hresolution
  have hchoose : chooseImport env request snapshot resolution =
      openImport env request snapshot resolution := by
    unfold chooseImport
    rw [haction]
  have hjob : ∀ job : ImportJob,
      Triple (Both fun t => t.OnlyOpen snapshot.sourceSha256 job.importId ∧ t.KeepsActive kept)
        (runImport env request snapshot resolution job)
        (fun _ => Both fun t => t.KeepsActive kept ∨ t.NoneOpen snapshot.sourceSha256)
        fun _ => Both fun t => t.KeepsActive kept ∨ t.NoneOpen snapshot.sourceSha256 := by
    intro job
    have hstage := @parting_stage snapshot.sourceSha256 kept job.importId job.importUuid
    have hstop : ∀ w, Both (fun t => t.OnlyOpen snapshot.sourceSha256 job.importId ∧
        t.KeepsActive kept) w →
        Both (fun t => t.KeepsActive kept ∨ t.NoneOpen snapshot.sourceSha256) w :=
      fun w hw => ⟨.inl hw.1.2,.inl hw.2.2⟩
    refine Triple.seq (hstage.call.weaken_error fun _ => hstop) fun _ => ?_
    have hfirst : Maintains (Both fun t => t.OnlyOpen snapshot.sourceSha256 job.importId ∧
        t.KeepsActive kept) (pstWhen (resolution.action ≠ .resume) (do
          let t ← pstCall env
          let version ← liftPst (env.readpstVersion t)
          let _ ← runStageA env false job ⟨request.filename,snapshot,version,request.options⟩
          pure ())) := by
      refine pstWhen_maintains fun _ => hstage.call.seq fun t => ?_
      refine (Enduring.lift _).seq fun version => ?_
      exact (runStageA_maintains hstage _).seq fun _ => Maintains.ret _
    refine Triple.seq (hfirst.weaken_error fun _ => hstop) fun _ => ?_
    refine Triple.seq ((runStageB_maintains hstage 100).weaken_error fun _ => hstop) fun stageB => ?_
    refine Triple.weaken_pre (P := Both (PstTables.Parting snapshot.sourceSha256 kept job.importId))
      ?_ fun w hw => ⟨⟨hw.1.1,.inl hw.1.2⟩,hw.2.1,.inl hw.2.2⟩
    have hswitch : Maintains (Both (PstTables.Parting snapshot.sourceSha256 kept job.importId)) (do
        switchTo env resolution job
        pure (PstImportOutcome.imported stageB.status job.importId stageB.ingestedCount
          stageB.failedCount stageB.remainingCount (resolution.action == .reimport))) :=
      switchTo_parting.seq fun _ => Maintains.ret _
    refine hswitch.consequence (fun _ hw => hw) (fun _ w hw => ?_) fun _ w hw => ?_
    · exact ⟨hw.1.active,hw.2.active⟩
    · exact ⟨hw.1.active,hw.2.active⟩
  rw [haction]
  refine Triple.weaken_pre (P := Both fun t => t.KeepsActive kept ∧ t.NoneOpen snapshot.sourceSha256)
    ?_ fun w hw => ⟨⟨hw.1.1,hw.2.1 ▸ hnone⟩,hw.1.2,hw.2.2 ▸ hnone⟩
  have hkeep : ∀ w, Both (fun t => t.KeepsActive kept ∧ t.NoneOpen snapshot.sourceSha256) w →
      Both (fun t => t.KeepsActive kept ∨ t.NoneOpen snapshot.sourceSha256) w :=
    fun w hw => ⟨.inl hw.1.1,.inl hw.2.1⟩
  refine Triple.seq (Q := fun _ => Both fun t => t.KeepsActive kept ∧
    t.NoneOpen snapshot.sourceSha256) ?_ fun _ => ?_
  · exact Triple.ret fun w hw => hw
  rw [hchoose]
  exact Triple.seq (openImport_parting.weaken_error fun _ => hkeep) hjob

/-! ## The end of a switch -/

/-- The generation is not active. -/
def PstTables.Retired (t : PstTables) (id : Nat) : Prop :=
  ∀ i ∈ t.imports, i.id = id → i.isActive = false

theorem activateGeneration_retires {now : String} {importId replacesId : Nat}
    {repo db : PstRepository} (h : repo.activateGeneration now importId replacesId = .ok db) :
    db.tables.Retired replacesId := by
  obtain ⟨newRow,oldRow,hpair,rfl,rfl,htables⟩ := PstRepository.activateGeneration_ok_iff.mp h
  intro j hj hid
  rw [htables] at hj
  obtain ⟨i,hi,-,hji,-,⟨rfl,-,hne⟩ | rfl | ⟨hshown,rfl⟩⟩ := exchanged_row (exchanges_activate now)
    hpair.ids_ne hj
  · exact absurd hid hne
  · rfl
  · exact absurd (hshown.symm.trans (hji.symm.trans hid)) hpair.ids_ne

/-! Calls that leave the database alone. -/

section
variable {P : PstRepository → PstRepository → Prop} {u : String} {gated : Bool}

theorem quiet_call : Maintains (fun w => P w.db w.committed) (pstCall env) :=
  call_maintains fun _ hw => hw

theorem quiet_timestamp : Maintains (fun w => P w.db w.committed) (pstTimestamp env) :=
  Maintains.seq (fun _ hw => hw) fun _ => Maintains.ret _

theorem quiet_ensure : Maintains (fun w => P w.db w.committed) (ensureWriteAllowed env gated) := by
  refine Maintains.seq (fun _ hw => hw) fun t => ?_
  split
  · exact Maintains.raise _
  · exact Maintains.ret _

theorem quiet_flush : Maintains (fun w => P w.db w.committed) (flushPst env u) :=
  quiet_call.seq fun _ => Maintains.write fun _ hw => hw

theorem quiet_append {body : PstEventBody} :
    Maintains (fun w => P w.db w.committed) (appendPst env u body) := by
  refine quiet_timestamp.seq fun now => quiet_call.seq fun _ => Maintains.reading fun w hw => ?_
  show P (Prog.bind (liftPst (appendPstEvent u (w.manifests u).events ⟨u,now,body⟩)) _ w).2.db _
  unfold Prog.bind
  cases happend : appendPstEvent u (w.manifests u).events ⟨u,now,body⟩ with
  | error e => exact hw
  | ok events => exact hw

end

/-- The transaction of a switch. -/
theorem switch_transaction_retires {importId replacesId : Nat} {u old : String} {gated : Bool} :
    Triple (fun _ => True) (do
        ensureWriteAllowed env gated
        let now ← pstTimestamp env
        writePst env (PstRepository.activateGeneration now importId replacesId)
        ensureWriteAllowed env gated
        appendPst env u (.generationSwitchCommitted old)
        ensureWriteAllowed env gated
        flushPst env u
        ensureWriteAllowed env gated
        commitPstBatch env)
      (fun _ => Both fun t => t.Retired replacesId) fun _ _ => True := by
  refine Triple.seq (Triple.skip _) fun _ => Triple.seq (Triple.skip _) fun now => ?_
  -- From here on it holds of the open database, until the commit takes it over.
  refine Triple.seq (Q := fun _ w => w.db.tables.Retired replacesId) ?_ fun _ => ?_
  · refine Triple.seq (Triple.skip _) fun _ w _ => ?_
    show Holds _ _ (Prog.bind (liftPst (w.db.activateGeneration now importId replacesId)) _ w)
    unfold Prog.bind
    cases hst : w.db.activateGeneration now importId replacesId with
    | error e => trivial
    | ok db =>
      have hdb : (w.written db).db = db := by
        unfold PstWorld.written
        split
        · rfl
        · rfl
      show (w.written db).db.tables.Retired replacesId
      rw [hdb]
      exact activateGeneration_retires hst
  have hquiet : ∀ {β : Type} {p : Pst β}, Maintains (fun w => w.db.tables.Retired replacesId) p →
      Triple (fun w => w.db.tables.Retired replacesId) p
        (fun _ w => w.db.tables.Retired replacesId) fun _ _ => True :=
    fun hp => hp.weaken_error fun _ _ _ => trivial
  have hensure : Maintains (fun w => w.db.tables.Retired replacesId) (ensureWriteAllowed env gated) :=
    quiet_ensure (P := fun db _ => db.tables.Retired replacesId)
  refine Triple.seq (hquiet hensure) fun _ => ?_
  refine Triple.seq (hquiet (quiet_append (P := fun db _ => db.tables.Retired replacesId))) fun _ => ?_
  refine Triple.seq (hquiet hensure) fun _ => ?_
  refine Triple.seq (hquiet (quiet_flush (P := fun db _ => db.tables.Retired replacesId))) fun _ => ?_
  refine Triple.seq (hquiet hensure) fun _ => ?_
  refine Triple.seq (hquiet (quiet_call (P := fun db _ => db.tables.Retired replacesId))) fun _ => ?_
  exact Triple.write fun w hw => ⟨hw,hw⟩

/-- The end of a switch, after its transaction. -/
theorem switch_end_retires {R : PstRepository → PstRepository → Prop} {id : Nat} {u accountId : String}
    {body : PstEventBody} {detail : String} {gated : Bool} {v : GenerationVerification}
    {A : String → PstEventBody → Prop} {I : PstWorld → Prop} (h : Enduring I R A) (hbody : A u body)
    (hother : ∀ repo db : PstRepository, db.tables.imports = repo.tables.imports → R repo db)
    (hI : ∀ w, I w → Both (fun t => t.Retired id) w) :
    Triple I (do
        ensureWriteAllowed env gated
        appendPst env u body
        ensureWriteAllowed env gated
        flushPst env u
        ensureWriteAllowed env gated
        recordPstAudit env "pst_supersede" accountId detail
        pure v)
      (fun _ => Both fun t => t.Retired id) fun _ _ => True := by
  have hend : Maintains I (do
      ensureWriteAllowed env gated
      appendPst env u body
      ensureWriteAllowed env gated
      flushPst env u
      ensureWriteAllowed env gated
      recordPstAudit env "pst_supersede" accountId detail
      pure v) := by
    refine h.ensure.seq fun _ => (h.append hbody).seq fun _ => h.ensure.seq fun _ => ?_
    refine h.flush.seq fun _ => h.ensure.seq fun _ => ?_
    exact (h.audit hother).seq fun _ => Maintains.ret _
  exact hend.consequence (fun _ hw => hw) (fun _ => hI) fun _ _ _ => trivial

/-- A switch that returns leaves the replaced generation inactive. -/
theorem switchGeneration_retires {importId replacesId : Nat} {u old : String} {gated : Bool} :
    Triple (fun _ => True) (switchGeneration env gated importId u replacesId old)
      (fun _ => Both fun t => t.Retired replacesId) fun _ _ => True := by
  refine Triple.seq (Triple.skip _) fun newRecord => Triple.seq (Triple.skip _) fun oldRecord => ?_
  split
  · split
    · exact Triple.raise fun _ _ => trivial
    refine Triple.seq (Triple.skip _) fun verified => Triple.seq (Triple.skip _) fun _ => ?_
    refine Triple.seq (Triple.skip _) fun _ => Triple.seq (Triple.skip _) fun _ => ?_
    refine Triple.seq (Triple.skip _) fun _ => Triple.seq (Triple.skip _) fun _ => ?_
    refine Triple.seq (catching_rule switch_transaction_retires (fun e => ?_) fun _ _ => trivial)
      fun _ => ?_
    · exact Triple.seq (Triple.skip _) fun _ => Triple.raise fun _ _ => trivial
    · refine switch_end_retires both_enduring trivial ?_ fun _ hw => hw
      exact fun repo db himports hrepo i hi => hrepo i (himports ▸ hi)
  · exact Triple.raise fun _ _ => trivial

/-- A re-import that returns has retired an active generation. -/
theorem importPst_retires {repo : PstRepository} (hdecision : request.decision = some .reimport) :
    Triple (fun w => w.db = repo ∧ w.committed = repo) (importPst env request)
      (fun _ w => ∃ old ∈ repo.tables.imports, old.isActive = true ∧
        w.committed.tables.Retired old.id)
      fun _ _ => True := by
  have h := @both_enduring fun _ => True
  have hopen := h.unwritten repo
  refine Triple.weaken_pre (P := fun w => Both (fun _ => True) w ∧ w.db = repo ∧ w.committed = repo) ?_
    fun w hw => ⟨⟨trivial,trivial⟩,hw⟩
  refine Triple.seq (hopen.snapshotSourceFile.weaken_error fun _ _ _ => trivial) fun snapshot => ?_
  refine Triple.seq (hopen.call.weaken_error fun _ _ _ => trivial) fun _ => ?_
  refine Triple.seq ((h.query_unwritten repo).weaken_error fun _ _ _ => trivial) fun found =>
    Triple.assume fun hfound => ?_
  refine Triple.seq (liftPst_rule.weaken_error fun _ _ _ => trivial) fun resolution =>
    Triple.assume fun hresolution => ?_
  rw [hfound,hdecision] at hresolution
  obtain ⟨-,haction,old,hold,hactive,hrecord,hreplaces⟩ :=
    PstTables.resolveImportJob_reimport hresolution
  rw [haction]
  refine Triple.weaken_pre (P := fun _ => True) ?_ fun _ _ => trivial
  refine Triple.seq (Triple.skip _) fun _ => Triple.seq (Triple.skip _) fun job => ?_
  refine Triple.seq (Triple.skip _) fun _ => Triple.seq (Triple.skip _) fun _ => ?_
  refine Triple.seq (Triple.skip _) fun stageB => ?_
  refine Triple.seq (Q := fun _ => Both fun t => t.Retired old.id) ?_ fun _ => ?_
  · unfold switchTo
    rw [hreplaces,hrecord]
    show Triple _ (pstWhen (resolution.action = .reimport) _) _ _
    unfold pstWhen
    rw [if_pos haction]
    refine Triple.seq (Triple.skip _) fun _ => ?_
    exact Triple.seq switchGeneration_retires fun _ => Triple.ret fun _ hw => hw
  · exact Triple.ret fun w hw => ⟨old,hold,hactive,hw.2⟩

end

/-! ## Two runs -/

/-- The generations with their flags and statuses, and the local states of the messages, are the
same. -/
structure SameOutcome (t t' : PstTables) : Prop where
  generations : ∀ id active status,
    (∃ i ∈ t.imports, i.id = id ∧ i.isActive = active ∧ i.status = status) ↔
      ∃ i ∈ t'.imports, i.id = id ∧ i.isActive = active ∧ i.status = status
  messages : ∀ accountId key state,
    (∃ m ∈ t.mail.messages, m.accountId = accountId ∧ m.sourceItemKey = key ∧ m.localState = state) ↔
      ∃ m ∈ t'.mail.messages, m.accountId = accountId ∧ m.sourceItemKey = key ∧ m.localState = state

/-- Messages of an inactive generation and of the one it replaces are active. -/
def PstTables.Mixed (t : PstTables) : Prop :=
  ∃ new ∈ t.imports, ∃ old ∈ t.imports, new.replacesId = some old.id ∧ new.isActive = false ∧
    (∃ m ∈ t.mail.messages, t.holds new.id m = true ∧ m.localState = .active) ∧
    ∃ m ∈ t.mail.messages, t.holds old.id m = true ∧ m.localState = .active

/-- A job on the source, in any environment, to its end or to any point at which it stops. -/
def ImportStep (source : String) (decision : ImportJobDecision) (d d' : PstDisk) : Prop :=
  ∃ env request tick, env.OnSource source ∧ request.decision = some decision ∧
    (importPst env request (d.opened tick)).2.Survives d'

/-- A re-import that returns. -/
def ReimportReturns (source : String) (d d' : PstDisk) : Prop :=
  ∃ env request tick outcome, env.OnSource source ∧ request.decision = some .reimport ∧
    (importPst env request (d.opened tick)).1 = .ok outcome ∧
    (importPst env request (d.opened tick)).2.Survives d'

/-- The re-import that was stopped at `stopped` and resumed to `ended` ends as the one that was not
stopped, and no database that was committed on the way mixes the generations. -/
structure EndsAlike (source : String) (uninterrupted stopped ended : PstDisk) : Prop where
  outcome : SameOutcome uninterrupted.db.tables ended.db.tables
  unmixed : ∀ d', Relation.ReflTransGen (ImportStep source .resume) stopped d' → ¬ d'.db.tables.Mixed

/-- Resumed jobs leave active generations active. -/
theorem resumed_keepsActive {source : String} {d d' : PstDisk} {id : Nat}
    (h : Relation.ReflTransGen (ImportStep source .resume) d d')
    (hactive : ∃ i ∈ d.db.tables.imports, i.id = id ∧ i.isActive = true) :
    ∃ i ∈ d'.db.tables.imports, i.id = id ∧ i.isActive = true := by
  induction h with
  | refl => exact hactive
  | tail _ hstep ih =>
    obtain ⟨env,request,tick,-,hdecision,hsurvives⟩ := hstep
    have hstep : JobStep (.importPst request) _ _ := ⟨env,tick,hsurvives⟩
    refine hstep.keepsActive ?_ (fun n => n = id) ?_ id rfl
    · simp [JobOp.Switches,hdecision]
    · exact fun n hn => hn ▸ ih

/-- A re-import that was interrupted while it could be resumed never ends as the uninterrupted one:
the replaced generation stays active. -/
theorem interrupted_reimport_never_ends_alike {source : String} {d uninterrupted stopped ended : PstDisk}
    (hreturns : ReimportReturns source d uninterrupted)
    (hstopped : ImportStep source .reimport d stopped)
    (hopen : stopped.db.tables.findIncomplete source ≠ [])
    (hresumed : Relation.ReflTransGen (ImportStep source .resume) stopped ended) :
    ¬ EndsAlike source uninterrupted stopped ended := by
  intro halike
  obtain ⟨env,request,tick,outcome,-,hdecision,hok,hsurvives⟩ := hreturns
  have hretires : Triple _ _ _ _ := @importPst_retires env request d.db hdecision
  have hretired := hretires (d.opened tick) ⟨rfl,rfl⟩
  obtain ⟨old,hold,hactive,hretired⟩ : ∃ old ∈ d.db.tables.imports, old.isActive = true ∧
      uninterrupted.db.tables.Retired old.id := by
    rw [hsurvives.db]
    rcases hrun : importPst env request (d.opened tick) with ⟨r,w⟩
    rw [hrun] at hok hretired
    cases hok
    exact hretired
  obtain ⟨env',request',tick',hsource,hdecision',hsurvives'⟩ := hstopped
  have hkept : d.db.tables.KeepsActive fun id => id = old.id :=
    fun id hid => ⟨old,hold,hid.symm,hactive⟩
  have hparting := Triple.final (importPst_parting hsource hdecision' hkept) (s := d.opened tick')
    ⟨rfl,rfl⟩
  -- The import can be resumed, so it was not switched to.
  have hstill : ∃ i ∈ stopped.db.tables.imports, i.id = old.id ∧ i.isActive = true := by
    rw [hsurvives'.db]
    cases hparting.2 with
    | inl h => exact h old.id rfl
    | inr h =>
      refine absurd ?_ hopen
      rw [hsurvives'.db]
      exact h.findIncomplete
  obtain ⟨i,hi,hid,hon⟩ := resumed_keepsActive hresumed hstill
  obtain ⟨j,hj,hjid,hjon,-⟩ := (halike.outcome.generations old.id true i.status).mpr
    ⟨i,hi,hid,hon,rfl⟩
  rw [hretired j hj hjid] at hjon
  cases hjon

/-! A re-import that is interrupted in Stage B, and resumed. -/

def reimportRequest : PstImportRequest := { plainRequest with decision := some .reimport }

/-- Stage A has published its marker. -/
def stoppedDisk : PstDisk :=
  importedDisk
    { sourceEnv secondUuid (.ok {}) with fault := fun t => if t = 49 then some .crash else none }
    reimportRequest completeDisk

def endedDisk : PstDisk :=
  importedDisk (sourceEnv secondUuid (.ok {})) { plainRequest with decision := some .resume } stoppedDisk

def switchedOverDisk : PstDisk :=
  importedDisk (sourceEnv secondUuid (.ok {})) reimportRequest completeDisk

theorem sourceEnv_onSource (importUuid : String) (extract : Except Error StagingTree)
    (fault : Nat → Option Failure) :
    PstEnv.OnSource { sourceEnv importUuid extract with fault := fault } zeroHash := by
  intro t snapshot h
  cases h
  rfl

/-- The re-import of an archive with a message, interrupted once that message is stored. -/
def stoppedMailDisk : PstDisk :=
  importedDisk
    { sourceEnv secondUuid (.ok mailTree) with
      fault := fun t => if t = 69 then some .crash else none }
    reimportRequest mailDisk

def endedMailDisk : PstDisk :=
  importedDisk (sourceEnv secondUuid (.ok mailTree)) { plainRequest with decision := some .resume }
    stoppedMailDisk

theorem interrupted_reimport_never_ends_alike_message :
    ¬ EndsAlike zeroHash replacedDisk stoppedMailDisk endedMailDisk := by
  obtain ⟨hreturns,hopen⟩ : (importPst (sourceEnv secondUuid (.ok mailTree)) reimportRequest
        (mailDisk.opened 0)).1 = .ok (.imported .completed 2 1 0 0 true) ∧
      stoppedMailDisk.db.tables.findIncomplete zeroHash ≠ [] := by
    decide +kernel
  refine @interrupted_reimport_never_ends_alike zeroHash mailDisk replacedDisk stoppedMailDisk
    endedMailDisk ?_ ?_ ?_ (.single ?_)
  · exact ⟨sourceEnv secondUuid (.ok mailTree),reimportRequest,0,
      .imported .completed 2 1 0 0 true,sourceEnv_onSource _ _ _,rfl,hreturns,
      importedDisk_survives _ _ _⟩
  · exact ⟨_,reimportRequest,0,sourceEnv_onSource _ _ _,rfl,importedDisk_survives _ _ _⟩
  · exact hopen
  · exact ⟨sourceEnv secondUuid (.ok mailTree),_,0,sourceEnv_onSource _ _ _,rfl,
      importedDisk_survives _ _ _⟩

/-- The re-import that is not interrupted switches, and the resumed one does not. -/
theorem resumed_reimport_not_switched :
    (switchedOverDisk.db.tables.imports.map fun i => (i.isActive,i.status)) =
      [(false,.superseded),(true,.completed)] ∧
    (stoppedDisk.db.tables.imports.map fun i => (i.isActive,i.status)) =
      [(true,.completed),(false,.ingesting)] ∧
    (importPst (sourceEnv secondUuid (.ok {})) { plainRequest with decision := some .resume }
        (stoppedDisk.opened 0)).1 = .ok (.imported .completed 2 0 0 0 false) ∧
    (endedDisk.db.tables.imports.map fun i => (i.isActive,i.status)) =
      [(true,.completed),(false,.completed)] := by
  decide +kernel

end MailDock
