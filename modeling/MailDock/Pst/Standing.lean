import MailDock.Pst.StageKeeps

/-!
# Which imports stand

An import that is active should be under way or done.  The status and the flag are columns of their
own, and of the writes of the worker only those that give an import up set one without the other.

## Main definitions

- `PstTables.Stands` — the active imports of a source are under way or done
- `PstWorld.Spares` — no write has given up an active import of the source
- `JobOp`, `JobStep`, `JobRun` — the operations of the worker, and their runs
- `active_generation_invariants` — what holds in every state of a run that gives up no active import
-/

namespace MailDock

open Hoare Relational

/-! ## Rows -/

/-- The active imports of the source are under way or done. -/
def PstTables.Stands (t : PstTables) (source : String) : Prop :=
  ∀ i ∈ t.imports, i.sourceSha256 = source → i.isActive = true → i.status.IsStanding

def PstTables.KeepsActive (t : PstTables) (kept : Nat → Prop) : Prop :=
  ∀ id, kept id → ∃ i ∈ t.imports, i.id = id ∧ i.isActive = true

/-- The write gives a row that is active one of the statuses of an import that was given up. -/
def PstTables.GivesUp (source : String) (t t' : PstTables) : Prop :=
  ∃ i ∈ t.imports, i.sourceSha256 = source ∧ i.isActive = true ∧
    ∃ j ∈ t'.imports, j.id = i.id ∧ j.status.IsLapsed

instance PstTables.decidableGivesUp (source : String) (t t' : PstTables) :
    Decidable (t.GivesUp source t') :=
  inferInstanceAs (Decidable (∃ i ∈ t.imports, _ ∧ _ ∧ ∃ j ∈ t'.imports, _))

section
variable {source : String} {kept : Nat → Prop} {t : PstTables} {repo db : PstRepository}
  {importId : Nat} {ok : ImportStatus → Prop} {switches : Prop}

theorem SameImport.refl (i : PstImport) : SameImport i i := ⟨rfl,rfl,rfl,rfl,rfl,rfl⟩

/-- Where a row comes from. -/
theorem ImportWrite.row (h : ImportWrite importId ok repo db) {j : PstImport}
    (hj : j ∈ db.tables.imports) : ∃ i ∈ repo.tables.imports, SameImport i j ∧
      (j.status = i.status ∨ i.id = importId ∧ ok j.status) := by
  cases h with
  | status s hs f hf h =>
    rw [h,mem_update] at hj
    obtain ⟨hj,-⟩ | ⟨i,hi,hid,rfl⟩ := hj
    · exact ⟨j,hj,SameImport.refl j,.inl rfl⟩
    · exact ⟨i,hi,(hf i).1,.inr ⟨by simpa using hid,(hf i).2 ▸ hs⟩⟩
  | other h =>
    rw [h] at hj
    exact ⟨j,hj,SameImport.refl j,.inl rfl⟩

/-- Where a row goes. -/
theorem ImportWrite.keepsRow (h : ImportWrite importId ok repo db) {i : PstImport}
    (hi : i ∈ repo.tables.imports) : ∃ j ∈ db.tables.imports, SameImport i j := by
  cases h with
  | status s hs f hf h =>
    cases hp : i.id == importId with
    | false => exact ⟨i,by rw [h,mem_update]; exact .inl ⟨hi,hp⟩,SameImport.refl i⟩
    | true => exact ⟨f i,by rw [h,mem_update]; exact .inr ⟨i,hi,hp,rfl⟩,(hf i).1⟩
  | other h => exact ⟨i,by rw [h]; exact hi,SameImport.refl i⟩

theorem ImportWrite.keepsActive (h : ImportWrite importId ok repo db)
    (hactive : repo.tables.KeepsActive kept) : db.tables.KeepsActive kept := by
  intro id hid
  obtain ⟨i,hi,rfl,hon⟩ := hactive id hid
  obtain ⟨j,hj,hsame⟩ := h.keepsRow hi
  exact ⟨j,hj,hsame.id,hsame.isActive ▸ hon⟩

/-- The rows of a generation change. -/
theorem exchanged_row {now : String} {shown retired : Nat} {onShown onRetired : PstImport → PstImport}
    (hf : Exchanges onShown onRetired) (hne : shown ≠ retired) {j : PstImport}
    (hj : j ∈ (t.exchanged now shown retired onShown onRetired).imports) :
    ∃ i ∈ t.imports, j.importUuid = i.importUuid ∧ j.id = i.id ∧
      j.sourceSha256 = i.sourceSha256 ∧
        (j = i ∧ i.id ≠ shown ∧ i.id ≠ retired ∨ j = onRetired i ∨ i.id = shown ∧ j = onShown i) := by
  rw [PstTables.mem_exchanged_imports,mem_update] at hj
  obtain ⟨hj,hid⟩ | ⟨x,hx,hid,rfl⟩ := hj
  · obtain ⟨hj,hid'⟩ | ⟨i,hi,-,rfl⟩ := mem_update.mp hj
    · exact ⟨j,hj,rfl,rfl,rfl,.inl ⟨rfl,by simpa using hid,by simpa using hid'⟩⟩
    · exact ⟨i,hi,hf.retired.importUuid i,hf.retired.id i,hf.retired.sourceSha256 i,.inr (.inl rfl)⟩
  · have hid : x.id = shown := by simpa using hid
    obtain ⟨hx,-⟩ | ⟨i,-,hi,rfl⟩ := mem_update.mp hx
    · exact ⟨x,hx,hf.shown.importUuid x,hf.shown.id x,hf.shown.sourceSha256 x,.inr (.inr ⟨hid,rfl⟩)⟩
    · have hi : i.id = retired := by simpa using hi
      exact absurd (hid.symm.trans ((hf.retired.id i).trans hi)) hne

/-- A generation change shows a row that is under way or done. -/
theorem exchanged_stands {now : String} {shown retired : Nat}
    {onShown onRetired : PstImport → PstImport} (hf : Exchanges onShown onRetired)
    (hne : shown ≠ retired)
    (hstanding : ∀ i ∈ t.imports, i.id = shown → (onShown i).status.IsStanding)
    (hstands : t.Stands source) :
    (t.exchanged now shown retired onShown onRetired).Stands source := by
  intro j hj hsource hactive
  obtain ⟨i,hi,-,-,-,⟨rfl,-⟩ | rfl | ⟨hid,rfl⟩⟩ := exchanged_row hf hne hj
  · exact hstands j hi hsource hactive
  · rw [hf.retires] at hactive
    cases hactive
  · exact hstanding i hi hid

theorem PstTables.Activatable.ids_ne {newRow oldRow : PstImport}
    (h : repo.tables.Activatable newRow oldRow) : newRow.id ≠ oldRow.id := by
  intro hid
  have hactive := h.active
  rw [← repo.valid.import_eq h.memNew h.memOld hid,h.inactive] at hactive
  cases hactive

/-- The row of a new import comes last. -/
theorem createImport_imports {record : Nat → PstImport} {id : Nat}
    (h : repo.createImport record = .ok (id,db)) : id = repo.tables.nextImportId ∧
      db.tables.imports = repo.tables.imports ++ [record repo.tables.nextImportId] := by
  unfold PstRepository.createImport at h
  rw [Except.bind_eq_ok_iff] at h
  obtain ⟨created,hcreated,h⟩ := h
  cases h
  refine ⟨rfl,?_⟩
  rw [PstRepository.exec_eq_ok.mp hcreated]
  rfl

theorem createImport_keepsActive {record : Nat → PstImport} {id : Nat}
    (h : repo.createImport record = .ok (id,db)) (hactive : repo.tables.KeepsActive kept) :
    db.tables.KeepsActive kept := by
  intro id hid
  obtain ⟨i,hi,hrow⟩ := hactive id hid
  exact ⟨i,by rw [(createImport_imports h).2]; exact List.mem_append_left _ hi,hrow⟩

/-- A write that gives up no active import leaves the active ones under way or done. -/
theorem JobWrite.stands (h : JobWrite switches repo db)
    (hspares : ¬ repo.tables.GivesUp source db.tables) (hstands : repo.tables.Stands source) :
    db.tables.Stands source := by
  cases h with
  | stage importId h =>
    intro j hj hsource hactive
    obtain ⟨i,hi,hsame,hstatus⟩ := h.row hj
    have hsource : i.sourceSha256 = source := hsame.sourceSha256 ▸ hsource
    have hactive : i.isActive = true := hsame.isActive ▸ hactive
    rcases hstatus with hstatus | ⟨-,hstanding | hlapsed⟩
    · rw [hstatus]
      exact hstands i hi hsource hactive
    · exact hstanding
    · exact absurd ⟨i,hi,hsource,hactive,j,hj,hsame.id,hlapsed⟩ hspares
  | created request snapshot resolution importUuid id h =>
    intro i hi hsource hactive
    rw [(createImport_imports h).2,List.mem_append,List.mem_singleton] at hi
    cases hi with
    | inl hi => exact hstands i hi hsource hactive
    | inr hi =>
      rw [hi]
      exact .inr rfl
  | activated _ now importId replacesId h =>
    obtain ⟨newRow,oldRow,hpair,rfl,rfl,htables⟩ := PstRepository.activateGeneration_ok_iff.mp h
    rw [htables]
    refine exchanged_stands (exchanges_activate now) hpair.ids_ne (fun i hi hid => .inl ?_) hstands
    rw [repo.valid.import_eq hi hpair.memNew hid]
    exact hpair.finished
  | restored _ now importId h =>
    obtain ⟨target,current,-,-,hcurrent,-,htables⟩ := PstRepository.restoreGeneration_ok_iff.mp h
    have hne : importId ≠ current.id := (PstTables.newestActive_eq_some hcurrent).2.2.1.symm
    rw [htables]
    exact exchanged_stands (exchanges_restore now) hne (fun _ _ _ => .inl rfl) hstands

/-- Where nothing is switched, no write takes the flag from a row. -/
theorem JobWrite.keepsActive (h : JobWrite switches repo db) (hswitches : ¬ switches)
    (hactive : repo.tables.KeepsActive kept) : db.tables.KeepsActive kept := by
  cases h with
  | stage importId h => exact h.keepsActive hactive
  | created request snapshot resolution importUuid id h => exact createImport_keepsActive h hactive
  | activated h => exact absurd h hswitches
  | restored h => exact absurd h hswitches

end

/-! ## Invariants of the worker -/

/-- A predicate of the tables of the open and of the committed database. -/
def Both (J : PstTables → Prop) (w : PstWorld) : Prop := J w.db.tables ∧ J w.committed.tables

theorem both_enduring {J : PstTables → Prop} :
    Enduring (Both J) (fun repo db => J repo.tables → J db.tables) fun _ _ => True where
  ticked w hw := hw
  staging w s hw := hw
  saved w path raw hw := hw
  began w hw := hw
  committed w hw := ⟨hw.1,hw.1⟩
  rolledBack w hw := ⟨hw.2,hw.2⟩
  written w db hw hdb := by
    unfold PstWorld.written
    split
    · exact ⟨hdb hw.1,hw.2⟩
    · exact ⟨hdb hw.1,hdb hw.1⟩
  appended w u now body events hw _ _ := hw
  flushed w u hw := hw
  snapshot w u m hw _ := hw

/-- An effect that gives up an active import of the source. -/
def PstEffect.GivesUp (source : String) : PstEffect → Prop
  | write before after => before.tables.GivesUp source after.tables
  | _ => False

instance PstEffect.decidableGivesUp (source : String) :
    (e : PstEffect) → Decidable (e.GivesUp source)
  | .write before after => inferInstanceAs (Decidable (before.tables.GivesUp source after.tables))
  | .append .. | .flush _ | .commit _ | .save _ | .delete _ => inferInstanceAs (Decidable False)

/-- No write so far has given up an active import of the source. -/
def PstWorld.Spares (source : String) (w : PstWorld) : Prop := ∀ e ∈ w.log, ¬ e.GivesUp source

instance PstWorld.decidableSpares (source : String) (w : PstWorld) : Decidable (w.Spares source) :=
  inferInstanceAs (Decidable (∀ e ∈ w.log, _))

section
variable {source : String} {switches : Prop}

theorem PstWorld.Spares.of_suffix {w w' : PstWorld} (h : w'.Spares source)
    (hlog : w.log <:+ w'.log) : w.Spares source :=
  fun e he => h e (hlog.subset he)

theorem PstWorld.Spares.of_written {w : PstWorld} {db : PstRepository}
    (h : (w.written db).Spares source) :
    w.Spares source ∧ ¬ w.db.tables.GivesUp source db.tables := by
  unfold written at h
  split at h
  · exact ⟨h.of_suffix (List.suffix_cons _ _),h _ List.mem_cons_self⟩
  · refine ⟨h.of_suffix ?_,h _ (List.mem_cons_of_mem _ List.mem_cons_self)⟩
    exact (List.suffix_cons _ _).trans (List.suffix_cons _ _)

/-- As long as no write gives up an active import, those that are active are under way or done. -/
theorem spared_enduring :
    Enduring (fun w => w.Spares source → Both (fun t => t.Stands source) w) (JobWrite switches)
      fun _ _ => True := by
  have h := @both_enduring fun t => t.Stands source
  constructor
  · exact fun w hw hspares => h.ticked w (hw hspares)
  · exact fun w s hw hspares => h.staging w s (hw hspares)
  · exact fun w path raw hw hspares =>
      h.saved w path raw (hw (hspares.of_suffix (List.suffix_cons _ _)))
  · exact fun w hw hspares => h.began w (hw hspares)
  · exact fun w hw hspares => h.committed w (hw (hspares.of_suffix (List.suffix_cons _ _)))
  · exact fun w hw hspares => h.rolledBack w (hw hspares)
  · intro w db hw hdb hspares
    obtain ⟨hbefore,hgives⟩ := hspares.of_written
    exact h.written w db (hw hbefore) (hdb.stands hgives)
  · intro w u now body events hw _ happend hspares
    refine h.appended w u now body events (hw (hspares.of_suffix ?_)) trivial happend
    unfold PstWorld.appended
    split
    · exact List.suffix_rfl
    · exact List.suffix_cons _ _
  · exact fun w u hw hspares => h.flushed w u (hw (hspares.of_suffix (List.suffix_cons _ _)))
  · exact fun w u m hw hm hspares => h.snapshot w u m (hw hspares) hm

end

/-! ## Runs -/

/-- The operations of the worker on generations. -/
inductive JobOp
  | importPst (request : PstImportRequest)
  | reconcileDetachedImport (gated : Bool) (importId : Nat) (importUuid : String)
  | restoreGeneration (gated : Bool) (importId : Nat) (importUuid supersededImportUuid : String)

def JobOp.leaves (env : PstEnv) (w : PstWorld) : JobOp → PstWorld
  | importPst request => (MailDock.importPst env request w).2
  | reconcileDetachedImport gated importId importUuid =>
    (MailDock.reconcileDetachedImport env gated importId importUuid w).2
  | restoreGeneration gated importId importUuid supersededImportUuid =>
    (MailDock.restoreGeneration env gated importId importUuid supersededImportUuid w).2

/-- One operation on a disk, in any environment, to its end or to any point at which it stops, and
what a crash there leaves.  Every database that is committed on the way is that of some such point. -/
def JobStep (op : JobOp) (d d' : PstDisk) : Prop :=
  ∃ env tick, (op.leaves env (d.opened tick)).Survives d'

/-- A run of the worker in which no write gives up an active import of the source. -/
inductive JobRun (source : String) (start : PstDisk) : PstDisk → Prop
  | start : JobRun source start start
  | step {d d' : PstDisk} (h : JobRun source start d) (op : JobOp) (env : PstEnv) (tick : Nat)
      (hspares : (op.leaves env (d.opened tick)).Spares source)
      (hsurvives : (op.leaves env (d.opened tick)).Survives d') : JobRun source start d'

/-- The active imports of the source are under way or done. -/
def PstDisk.Stands (source : String) (d : PstDisk) : Prop := d.db.tables.Stands source

/-- The operation may change which generation is active. -/
def JobOp.Switches : JobOp → Prop
  | importPst request => request.decision = some .reimport
  | reconcileDetachedImport .. => False
  | restoreGeneration .. => True

/-- An operation keeps what its writes keep. -/
theorem JobOp.keeps {I : PstWorld → Prop} (op : JobOp)
    (h : Enduring I (JobWrite op.Switches) fun _ _ => True) {env : PstEnv} {w : PstWorld} (hw : I w) :
    I (op.leaves env w) := by
  cases op with
  | importPst request => exact (importPst_maintains h).final hw
  | reconcileDetachedImport gated importId importUuid =>
    exact (reconcileDetachedImport_maintains h).final hw
  | restoreGeneration gated importId importUuid old =>
    exact (restoreGeneration_maintains h).final hw

/-- What an operation leaves may be left by a crash that loses nothing. -/
theorem JobOp.survives (op : JobOp) (env : PstEnv) (d : PstDisk) (tick : Nat) :
    (op.leaves env (d.opened tick)).Survives (op.leaves env (d.opened tick)).disk :=
  PstWorld.survives_disk (op.keeps (flushed_enduring.mono (fun _ _ _ => trivial) fun _ _ h => h)
    fun _ => le_rfl)

theorem JobOp.stands {source : String} {d d' : PstDisk} {env : PstEnv} {tick : Nat} (op : JobOp)
    (h : d.Stands source) (hspares : (op.leaves env (d.opened tick)).Spares source)
    (hsurvives : (op.leaves env (d.opened tick)).Survives d') : d'.Stands source := by
  have hstart : (d.opened tick).Spares source → Both (fun t => t.Stands source) (d.opened tick) :=
    fun _ => ⟨h,h⟩
  have hleft := (op.keeps spared_enduring hstart hspares).2
  rw [← hsurvives.db] at hleft
  exact hleft

/-- An operation that cannot switch leaves the active generations active. -/
theorem JobStep.keepsActive {d d' : PstDisk} {op : JobOp} (hstep : JobStep op d d')
    (hop : ¬ op.Switches) (kept : Nat → Prop) (h : d.db.tables.KeepsActive kept) :
    d'.db.tables.KeepsActive kept := by
  obtain ⟨env,tick,hsurvives⟩ := hstep
  have henduring : Enduring (Both fun t => t.KeepsActive kept) (JobWrite op.Switches)
      fun _ _ => True :=
    both_enduring.mono (fun _ _ hdb => hdb.keepsActive hop) fun _ _ h => h
  have hstart : Both (fun t => t.KeepsActive kept) (d.opened tick) := ⟨h,h⟩
  rw [hsurvives.db]
  exact (op.keeps henduring hstart).2

theorem JobRun.stands {source : String} {start d : PstDisk} (h : JobRun source start d)
    (hstart : start.Stands source) : d.Stands source := by
  induction h with
  | start => exact hstart
  | step _ op env tick hspares hsurvives ih => exact op.stands ih hspares hsurvives

/-- A job goes on to create an import of its source. -/
def ImportJobAction.Creates : ImportJobAction → Prop
  | .new | .discardIncomplete | .reimport => True
  | _ => False

/-- The uniqueness of the active generation lets the row of a new import in.  A discard changes no
flag before that. -/
def PstTables.AcceptsNew (t : PstTables) (request : PstImportRequest) (source : String) : Prop :=
  ∀ snapshot resolution importUuid, snapshot.sourceSha256 = source →
    t.resolveImportJob source request.decision = .ok resolution → resolution.action.Creates →
    UniqueOn PstTables.activeSource
      (t.createImport (newImport request snapshot resolution importUuid)).imports

/-- What is to hold of the generations of a source. -/
structure PstDisk.Sound (source : String) (d : PstDisk) : Prop where
  atMostOne : ∀ i ∈ d.db.tables.imports, ∀ j ∈ d.db.tables.imports, i.sourceSha256 = source →
    j.sourceSha256 = source → i.isActive = true → j.isActive = true → i = j
  noneGivenUp : ∀ i ∈ d.db.tables.imports, i.sourceSha256 = source → i.isActive = true →
    i.status ≠ .abandoned ∧ i.status ≠ .suspect
  acceptsNew : ∀ request : PstImportRequest, (request.decision = some .discardIncomplete →
      ∀ i ∈ d.db.tables.imports, i.sourceSha256 = source → i.isActive = false) →
    d.db.tables.AcceptsNew request source

/-- A row that is inactive, or the first active one of its source, breaks no uniqueness. -/
theorem PstTables.Valid.createImport_unique {t : PstTables} (ht : t.Valid) {record : Nat → PstImport}
    (h : ∀ n, (record n).isActive = true → ∀ i ∈ t.imports, i.sourceSha256 = (record n).sourceSha256 →
      i.isActive = false) :
    UniqueOn PstTables.activeSource (t.createImport record).imports := by
  refine ht.activeSource.concat fun i hi => ?_
  cases hactive : (record t.nextImportId).isActive with
  | false =>
    by_cases hi' : i.isActive = true
    · exact .inr (by simp [PstTables.activeSource,hi',hactive])
    · exact .inl (by simp [PstTables.activeSource,hi'])
  | true =>
    by_cases hsource : i.sourceSha256 = (record t.nextImportId).sourceSha256
    · exact .inl (by simp [PstTables.activeSource,h _ hactive i hi hsource])
    · refine .inr ?_
      by_cases hi' : i.isActive = true
      · simpa [PstTables.activeSource,hi',hactive] using hsource
      · simp [PstTables.activeSource,hi',hactive]

/-- A source with neither an incomplete nor an active complete import has no active one. -/
theorem PstTables.Stands.inactive {t : PstTables} {source : String} (ht : t.Valid)
    (h : t.Stands source) (hincomplete : t.findIncomplete source = [])
    (hactive : (t.findActive source).filter (fun active => active.status.isComplete) = none)
    {i : PstImport} (hi : i ∈ t.imports) (hsource : i.sourceSha256 = source) : i.isActive = false := by
  by_contra hon
  have hon : i.isActive = true := by simpa using hon
  cases h i hi hsource hon with
  | inl hcomplete =>
    cases hfound : t.findActive source with
    | none =>
      have := List.find?_eq_none.mp hfound i hi
      simp [hsource,hon] at this
    | some j =>
      have hj := List.find?_some hfound
      rw [Bool.and_eq_true,beq_iff_eq] at hj
      have heq : j = i := ht.active_eq (List.mem_of_find?_eq_some hfound) hi hj.2 hon
        (hj.1.trans hsource.symm)
      rw [hfound,heq] at hactive
      simp [Option.filter,hcomplete] at hactive
  | inr hopen =>
    have hmem : i ∈ t.findIncomplete source := by
      refine (List.mergeSort_perm _ _).symm.subset (List.mem_filter.mpr ⟨hi,?_⟩)
      simp [hsource,hopen]
    rw [hincomplete] at hmem
    cases hmem

theorem PstTables.Stands.acceptsNew {t : PstTables} {source : String} (ht : t.Valid)
    (h : t.Stands source) {request : PstImportRequest}
    (hdiscard : request.decision = some .discardIncomplete →
      ∀ i ∈ t.imports, i.sourceSha256 = source → i.isActive = false) :
    t.AcceptsNew request source := by
  intro snapshot resolution importUuid hsource hresolution hcreates
  refine ht.createImport_unique fun n hactive i hi hi' => ?_
  have hi' : i.sourceSha256 = source := hi'.trans hsource
  unfold resolveImportJob at hresolution
  split at hresolution
  · split at hresolution
    · cases hresolution
      exact hcreates.elim
    · cases hresolution
      exact hcreates.elim
    · next hdecision => exact hdiscard hdecision i hi hi'
    · cases hresolution
  · next hincomplete =>
    split at hresolution
    · split at hresolution
      · cases hresolution
        exact hcreates.elim
      · cases hresolution
        exact hcreates.elim
      · -- The row of a re-import is not active.
        cases hresolution
        cases hactive
      · cases hresolution
    · next hnone => exact h.inactive ht hincomplete hnone hi hi'

/-- In every state of a run that gives up no active import of the source, at most one generation of
it is active, none that is active was given up, a new import is let in, also after a discard when no
generation is active, and the next job, if it does not reimport, leaves the active generations
active. -/
theorem active_generation_invariants {source : String} {start d : PstDisk}
    (hstart : start.Stands source) (hrun : JobRun source start d) :
    d.Sound source ∧ ∀ request d', request.decision ≠ some .reimport →
      JobStep (.importPst request) d d' → ∀ i ∈ d.db.tables.imports, i.sourceSha256 = source →
        i.isActive = true → ∃ j ∈ d'.db.tables.imports, j.id = i.id ∧ j.isActive = true := by
  have hstands := hrun.stands hstart
  constructor
  · constructor
    · exact fun i hi j hj hi' hj' hia hja => d.db.valid.active_eq hi hj hia hja (hi'.trans hj'.symm)
    · intro i hi hsource hactive
      cases hstands i hi hsource hactive with
      | inl h => cases hs : i.status <;> simp_all [ImportStatus.isComplete]
      | inr h => cases hs : i.status <;> simp_all [ImportStatus.isIncomplete]
    · exact fun request => hstands.acceptsNew d.db.valid
  · intro request d' hdecision hstep i hi _ hactive
    refine hstep.keepsActive hdecision (fun id => id = i.id) ?_ i.id rfl
    exact fun id hid => ⟨i,hi,hid.symm,hactive⟩

/-! A first import that fails in Stage A, and a re-import that is discarded. -/

def zeroHash : String := "0000000000000000000000000000000000000000000000000000000000000000"

/-- A source that can be read, and what `readpst` makes of it. -/
def sourceEnv (importUuid : String) (extract : Except Error StagingTree) : PstEnv where
  sha256 _ := zeroHash
  stagedMessage _ := {}
  clock _ := "2024-01-01T00:00:00+00:00"
  uuid _ := importUuid
  extract _ := extract
  sourceFile _ := .ok ⟨zeroHash,0,0,none⟩

def emptyPstDisk : PstDisk := { db := PstRepository.empty }

def plainRequest : PstImportRequest := ⟨"a.pst",⟨"a","utf-8",false⟩,none⟩

def firstUuid : String := "11111111-1111-4111-8111-111111111111"

def secondUuid : String := "22222222-2222-4222-8222-222222222222"

def extractionFailed : Except Error StagingTree := .error ⟨.unreadableArchive,"readpst failed"⟩

/-- The disk after an import. -/
def importedDisk (env : PstEnv) (request : PstImportRequest) (d : PstDisk) : PstDisk :=
  (importPst env request (d.opened 0)).2.disk

theorem importedDisk_survives (env : PstEnv) (request : PstImportRequest) (d : PstDisk) :
    (importPst env request (d.opened 0)).2.Survives (importedDisk env request d) :=
  (JobOp.importPst request).survives env d 0

theorem JobRun.imported {source : String} {start d : PstDisk} (h : JobRun source start d)
    (env : PstEnv) (request : PstImportRequest)
    (hspares : (importPst env request (d.opened 0)).2.Spares source) :
    JobRun source start (importedDisk env request d) :=
  h.step (.importPst request) env 0 hspares (importedDisk_survives env request d)

theorem JobRun.restored {source : String} {start d : PstDisk} (h : JobRun source start d)
    (env : PstEnv) (gated : Bool) (importId : Nat) (importUuid old : String)
    (hspares : (restoreGeneration env gated importId importUuid old (d.opened 0)).2.Spares source) :
    JobRun source start (restoreGeneration env gated importId importUuid old (d.opened 0)).2.disk :=
  h.step (.restoreGeneration gated importId importUuid old) env 0 hspares (JobOp.survives _ env d 0)

def completeDisk : PstDisk := importedDisk (sourceEnv firstUuid (.ok {})) plainRequest emptyPstDisk

/-- An archive with one message. -/
def mailTree : StagingTree where
  files := [(⟨[⟨"Inbox",by decide,by decide,by decide,by decide⟩],
    ⟨"1.eml",by decide,by decide,by decide,by decide⟩⟩,[1])]
  nodup := by decide

/-- A database whose messages have the column `remote_state`. -/
def columnDisk : PstDisk := { db := ⟨{ hasRemoteState := true },by decide⟩ }

def mailDisk : PstDisk := importedDisk (sourceEnv firstUuid (.ok mailTree)) plainRequest columnDisk

/-- The disk after a re-import has replaced the first generation. -/
def replacedDisk : PstDisk :=
  importedDisk (sourceEnv secondUuid (.ok mailTree)) { plainRequest with decision := some .reimport }
    mailDisk

/-- The disk after the first generation was restored. -/
def shownAgainDisk : PstDisk :=
  (restoreGeneration (sourceEnv firstUuid (.ok mailTree)) false 1 firstUuid secondUuid
    (replacedDisk.opened 0)).2.disk

/-- An import, a re-import that replaces it, and a restore of the first generation. -/
theorem active_generation_invariants_restored :
    (shownAgainDisk.db.tables.imports.map fun i => (i.isActive,i.status)) =
      [(true,.completed),(false,.superseded)] ∧
    shownAgainDisk.db.tables.mail.messages.map Message.localState = [.active,.trashed] ∧
    shownAgainDisk.Sound zeroHash := by
  obtain ⟨hfirst,hsecond,hthird,himports,hmessages⟩ :
      (importPst (sourceEnv firstUuid (.ok mailTree)) plainRequest
        (columnDisk.opened 0)).2.Spares zeroHash ∧
      (importPst (sourceEnv secondUuid (.ok mailTree))
        { plainRequest with decision := some .reimport } (mailDisk.opened 0)).2.Spares zeroHash ∧
      (restoreGeneration (sourceEnv firstUuid (.ok mailTree)) false 1 firstUuid secondUuid
        (replacedDisk.opened 0)).2.Spares zeroHash ∧
      (shownAgainDisk.db.tables.imports.map fun i => (i.isActive,i.status)) =
        [(true,.completed),(false,.superseded)] ∧
      shownAgainDisk.db.tables.mail.messages.map Message.localState = [.active,.trashed] := by
    decide +kernel
  have hrun : JobRun zeroHash columnDisk shownAgainDisk :=
    ((JobRun.start.imported _ _ hfirst).imported _ _ hsecond).restored _ _ _ _ _ hthird
  exact ⟨himports,hmessages,
    (active_generation_invariants (fun i hi => absurd hi List.not_mem_nil) hrun).1⟩

/-- The disk after a re-import that was interrupted in Stage A. -/
def interruptedDisk : PstDisk :=
  importedDisk
    { sourceEnv secondUuid (.ok {}) with fault := fun t => if t = 12 then some .crash else none }
    { plainRequest with decision := some .reimport } completeDisk

/-- The failed import is abandoned and still active, and no import of the source can be created any
more.  After a complete import and an interrupted re-import, a discard cannot create its import. -/
theorem abandoned_import_blocks :
    JobStep (.importPst plainRequest) emptyPstDisk
      (importedDisk (sourceEnv firstUuid extractionFailed) plainRequest emptyPstDisk) ∧
    ((importedDisk (sourceEnv firstUuid extractionFailed) plainRequest
        emptyPstDisk).db.tables.imports.map fun i => (i.isActive,i.status)) = [(true,.abandoned)] ∧
    (importPst (sourceEnv secondUuid (.ok {})) plainRequest
        ((importedDisk (sourceEnv firstUuid extractionFailed) plainRequest
          emptyPstDisk).opened 0)).1 =
      .error (.raised ⟨.database,"SQLite operation failed: create PST import"⟩) ∧
    (interruptedDisk.db.tables.imports.map fun i => (i.isActive,i.status)) =
      [(true,.completed),(false,.extracting)] ∧
    (importPst (sourceEnv "33333333-3333-4333-8333-333333333333" (.ok {}))
        { plainRequest with decision := some .discardIncomplete } (interruptedDisk.opened 0)).1 =
      .error (.raised ⟨.database,"SQLite operation failed: create PST import"⟩) := by
  refine ⟨⟨_,0,importedDisk_survives _ _ _⟩,?_⟩
  decide +kernel

end MailDock
