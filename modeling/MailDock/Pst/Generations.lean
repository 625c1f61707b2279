import Mathlib.Data.List.MinMax
import MailDock.Pst.Tables

/-!
# Changes of the active generation

`activate_generation`, `restore_generation` and `rollback_generation_switch` of
`infrastructure/database/pst_import_repository.py`.  Each checks the two generations and then runs
the same four statements: the messages of one generation become active, those of the other are
trashed, and the two rows of `pst_imports` change places.

## Main definitions

- `PstRepository.exchange`, `PstTables.exchanged` — the four statements, and the tables after them
- `PstRepository.activateGeneration`, `restoreGeneration`, `rollbackGenerationSwitch`
-/

namespace MailDock

open Relational

/-- `is_active = 0, status = 'superseded', superseded_at = …`. -/
def PstImport.superseded (now : String) (i : PstImport) : PstImport :=
  { i with isActive := false, status := .superseded, supersededAt := some now }

/-- `is_active = 1`. -/
def PstImport.activated (i : PstImport) : PstImport := { i with isActive := true }

/-- `is_active = 1, status = 'completed', superseded_at = NULL`. -/
def PstImport.restored (i : PstImport) : PstImport :=
  { i with isActive := true, status := .completed, supersededAt := none }

/-- `is_active = 0, status = 'completed'`. -/
def PstImport.withdrawn (i : PstImport) : PstImport :=
  { i with isActive := false, status := .completed }

namespace PstTables

/-- `WHERE is_active = 1 AND id != ? ORDER BY id DESC LIMIT 1`; the source is not asked for. -/
def newestActive (t : PstTables) (importId : Nat) : Option PstImport :=
  (t.imports.filter fun i => i.isActive && i.id != importId).argmax PstImport.id

/-- The tables after the four statements of a generation change. -/
def exchanged (now : String) (shown retired : Nat) (onShown onRetired : PstImport → PstImport)
    (t : PstTables) : PstTables :=
  (((t.setGenerationState shown .active none).setGenerationState retired .trashed
    (some now)).updateImport retired onRetired).updateImport shown onShown

end PstTables

namespace PstRepository

/-- `_run_generation_change`: whatever the body raises, the caller sees an error of the database,
and the transaction is rolled back. -/
def runGenerationChange (operation : String) (body : Except Error PstRepository) :
    Except Error PstRepository :=
  match body with
  | .ok repo => .ok repo
  | .error _ => .error ⟨.database,"Could not " ++ operation⟩

/-- The four statements of a generation change.  The times they read are one here. -/
def exchange (now : String) (shown retired : Nat) (onShown onRetired : PstImport → PstImport)
    (repo : PstRepository) : Except Error PstRepository := do
  let repo ← exec "show PST messages" (repo.tables.setGenerationState shown .active none)
  let repo ← exec "trash PST messages" (repo.tables.setGenerationState retired .trashed (some now))
  let repo ← exec "retire PST generation" (repo.tables.updateImport retired onRetired)
  exec "show PST generation" (repo.tables.updateImport shown onShown)

def activateGeneration (now : String) (importId replacesId : Nat) (repo : PstRepository) :
    Except Error PstRepository :=
  runGenerationChange "activate PST generation" <|
    match repo.tables.findImport importId,repo.tables.findImport replacesId with
    | some newRow,some oldRow =>
      if !newRow.status.isComplete then
        .error ⟨.value,"Only a completed PST generation can become active"⟩
      else if newRow.isActive || newRow.replacesId != some replacesId then
        .error ⟨.value,"The new PST generation is not an inactive replacement"⟩
      else if !oldRow.isActive || !oldRow.status.isComplete then
        .error ⟨.value,"The replaced PST generation is not active"⟩
      else exchange now importId replacesId PstImport.activated (PstImport.superseded now) repo
    | _,_ => .error ⟨.value,"PST generation does not exist"⟩

def restoreGeneration (now : String) (importId : Nat) (repo : PstRepository) :
    Except Error PstRepository :=
  runGenerationChange "restore PST generation" <|
    match repo.tables.findImport importId with
    | none => .error ⟨.value,"PST generation is not restorable"⟩
    | some target =>
      if target.isActive || target.status != .superseded then
        .error ⟨.value,"PST generation is not restorable"⟩
      else
        match repo.tables.newestActive importId with
        | none => .error ⟨.value,"No active PST generation to replace"⟩
        | some current =>
          if current.replacesId != some importId || !current.status.isComplete then
            .error ⟨.value,"PST generations are not an adjacent replacement pair"⟩
          else exchange now importId current.id PstImport.restored (PstImport.superseded now) repo

def rollbackGenerationSwitch (now : String) (importId replacesId : Nat) (repo : PstRepository) :
    Except Error PstRepository :=
  runGenerationChange "rollback PST generation switch" <|
    match repo.tables.findImport importId,repo.tables.findImport replacesId with
    | some newRow,some oldRow =>
      if newRow.replacesId != some replacesId then
        .error ⟨.value,"PST generations are not an adjacent replacement pair"⟩
      else if newRow.isActive && !oldRow.isActive then
        exchange now replacesId importId PstImport.restored PstImport.withdrawn repo
      else if !newRow.isActive && oldRow.isActive then .ok repo
      else .error ⟨.value,"PST generation switch has an invalid database state"⟩
    | _,_ => .error ⟨.value,"PST generations are not an adjacent replacement pair"⟩

end PstRepository

/-! ## What the statements do -/

/-- A change of a generation leaves its identity, its source and its predecessor alone. -/
structure PstImport.Keeps (f : PstImport → PstImport) : Prop where
  id : ∀ i, (f i).id = i.id
  importUuid : ∀ i, (f i).importUuid = i.importUuid
  accountId : ∀ i, (f i).accountId = i.accountId
  sourceSha256 : ∀ i, (f i).sourceSha256 = i.sourceSha256
  replacesId : ∀ i, (f i).replacesId = i.replacesId

namespace PstImport

theorem keeps_superseded (now : String) : Keeps (superseded now) :=
  ⟨fun _ => rfl,fun _ => rfl,fun _ => rfl,fun _ => rfl,fun _ => rfl⟩

theorem keeps_activated : Keeps activated :=
  ⟨fun _ => rfl,fun _ => rfl,fun _ => rfl,fun _ => rfl,fun _ => rfl⟩

theorem keeps_restored : Keeps restored :=
  ⟨fun _ => rfl,fun _ => rfl,fun _ => rfl,fun _ => rfl,fun _ => rfl⟩

theorem keeps_withdrawn : Keeps withdrawn :=
  ⟨fun _ => rfl,fun _ => rfl,fun _ => rfl,fun _ => rfl,fun _ => rfl⟩

end PstImport

/-- The functions of a generation change: one row becomes active, the other inactive. -/
structure Exchanges (onShown onRetired : PstImport → PstImport) : Prop where
  shown : PstImport.Keeps onShown
  retired : PstImport.Keeps onRetired
  shows : ∀ i, (onShown i).isActive = true
  retires : ∀ i, (onRetired i).isActive = false

theorem exchanges_activate (now : String) :
    Exchanges PstImport.activated (PstImport.superseded now) :=
  ⟨PstImport.keeps_activated,PstImport.keeps_superseded now,fun _ => rfl,fun _ => rfl⟩

theorem exchanges_restore (now : String) :
    Exchanges PstImport.restored (PstImport.superseded now) :=
  ⟨PstImport.keeps_restored,PstImport.keeps_superseded now,fun _ => rfl,fun _ => rfl⟩

theorem exchanges_rollback : Exchanges PstImport.restored PstImport.withdrawn :=
  ⟨PstImport.keeps_restored,PstImport.keeps_withdrawn,fun _ => rfl,fun _ => rfl⟩

namespace PstTables

variable {t : PstTables} {now : String} {shown retired : Nat}
  {onShown onRetired : PstImport → PstImport}

theorem newestActive_eq_some {importId : Nat} {c : PstImport}
    (h : t.newestActive importId = some c) :
    c ∈ t.imports ∧ c.isActive = true ∧ c.id ≠ importId ∧
      ∀ i ∈ t.imports, i.isActive = true → i.id ≠ importId → i.id ≤ c.id := by
  have hc := List.argmax_mem h
  have hmax : ∀ i ∈ t.imports, i.isActive = true → i.id ≠ importId → i.id ≤ c.id := by
    intro i hi hactive hne
    exact List.le_of_mem_argmax (List.mem_filter.mpr ⟨hi,by simp [hactive,hne]⟩) h
  simp only [List.mem_filter,Bool.and_eq_true,bne_iff_ne,ne_eq] at hc
  exact ⟨hc.1,hc.2.1,hc.2.2,hmax⟩

/-- The row of a generation after the exchange. -/
theorem mem_exchanged_imports (i : PstImport) :
    i ∈ (t.exchanged now shown retired onShown onRetired).imports ↔
      i ∈ update (fun i => i.id == shown) onShown
        (update (fun i => i.id == retired) onRetired t.imports) :=
  Iff.rfl

theorem Valid.retire (ht : t.Valid) (id : Nat) (hf : PstImport.Keeps onRetired)
    (hoff : ∀ i, (onRetired i).isActive = false) : (t.updateImport id onRetired).Valid := by
  refine ht.updateImport (fun i => ⟨hf.id i,hf.importUuid i,hf.accountId i,hf.replacesId i⟩) ?_
  refine List.pairwise_map.mpr (ht.activeSource.imp ?_)
  intro a b hab
  by_cases ha : (a.id == id) = true
  · left
    simp [ha,PstTables.activeSource,hoff]
  by_cases hb : (b.id == id) = true
  · cases hkey : PstTables.activeSource a with
    | none => simp [ha,hkey]
    | some k => simp [ha,hb,PstTables.activeSource,hoff]
  · simpa [ha,hb] using hab

/-- The last statement is accepted when no third generation of the source is active. -/
theorem Valid.exchanged_iff (ht : t.Valid) (now : String) (retired : Nat)
    (hf : Exchanges onShown onRetired) {s : PstImport}
    (hs : s ∈ t.imports) (hid : s.id = shown) :
    (t.exchanged now shown retired onShown onRetired).Valid ↔
      ∀ i ∈ t.imports, i.isActive = true → i.id ≠ shown → i.id ≠ retired →
        i.sourceSha256 ≠ s.sourceSha256 := by
  set u := ((t.setGenerationState shown .active none).setGenerationState retired .trashed
    (some now)).updateImport retired onRetired with hu
  have hu : u.Valid := ((ht.setGenerationState _ _ _).setGenerationState _ _ _).retire _ hf.retired
    hf.retires
  have himports : u.imports = update (fun i => i.id == retired) onRetired t.imports := rfl
  -- The row to show, as the third statement left it.
  have hrow : ∃ r ∈ u.imports, r.id = shown ∧ r.sourceSha256 = s.sourceSha256 := by
    by_cases hr : s.id = retired
    · exact ⟨onRetired s,by rw [himports,mem_update]; exact .inr ⟨s,hs,by simp [hr],rfl⟩,
        (hf.retired.id s).trans hid,hf.retired.sourceSha256 s⟩
    · exact ⟨s,by rw [himports,mem_update]; exact .inl ⟨hs,by simp [hr]⟩,hid,rfl⟩
  obtain ⟨r,hr,hrid,hrs⟩ := hrow
  have hshown : onShown r ∈ (u.updateImport shown onShown).imports :=
    mem_update.mpr (.inr ⟨r,hr,by simp [hrid],rfl⟩)
  constructor
  · intro hv i hi hactive hne hne' hsource
    have hmem : i ∈ (u.updateImport shown onShown).imports := by
      refine mem_update.mpr (.inl ⟨?_,by simp [hne]⟩)
      rw [himports]
      exact mem_update.mpr (.inl ⟨hi,by simp [hne']⟩)
    have heq := hv.active_eq hmem hshown hactive (hf.shows r)
      (by rw [hsource,hf.shown.sourceSha256,hrs])
    exact hne (by rw [heq,hf.shown.id,hrid])
  · intro hfree
    refine hu.updateImport (fun i =>
      ⟨hf.shown.id i,hf.shown.importUuid i,hf.shown.accountId i,hf.shown.replacesId i⟩) ?_
    refine List.pairwise_map.mpr (List.Pairwise.imp_of_mem ?_ (hu.activeSource.and hu.importId))
    -- Two rows that are both there after the update, in either order.
    have hother : ∀ a ∈ u.imports, ∀ b ∈ u.imports, a.id = shown → b.id ≠ shown →
        PstTables.activeSource b ≠ some a.sourceSha256 := by
      intro a ha b hb haid hbid hkey
      have hb' : b.isActive = true ∧ b.sourceSha256 = a.sourceSha256 := by
        unfold PstTables.activeSource at hkey
        split at hkey
        · next h => exact ⟨h,by simpa using hkey⟩
        · cases hkey
      rw [himports] at hb
      rcases mem_update.mp hb with ⟨hb,hne⟩ | ⟨c,-,-,rfl⟩
      · refine hfree b hb hb'.1 hbid (by simpa using hne) ?_
        rw [hb'.2,hu.import_eq ha hr (haid.trans hrid.symm),hrs]
      · rw [hf.retires] at hb'
        exact Bool.false_ne_true hb'.1
    intro a b ha hb hab
    obtain ⟨hab,hids⟩ := hab
    have hids : a.id ≠ b.id := by simpa using hids
    have hkey : ∀ i, PstTables.activeSource (onShown i) = some i.sourceSha256 := by
      intro i
      simp [PstTables.activeSource,hf.shows,hf.shown.sourceSha256]
    by_cases ha' : a.id = shown
    · have hb' : b.id ≠ shown := fun h => hids (ha'.trans h.symm)
      right
      simpa [ha',hb',hkey] using (hother a ha b hb ha' hb').symm
    by_cases hb' : b.id = shown
    · right
      simpa [ha',hb',hkey] using hother b hb a ha hb' ha'
    · simpa [ha',hb'] using hab

end PstTables

namespace PstRepository

variable {repo : PstRepository} {now : String} {shown retired : Nat}
  {onShown onRetired : PstImport → PstImport}

/-- Only the last of the four statements can be refused. -/
theorem exchange_eq (hf : Exchanges onShown onRetired) :
    exchange now shown retired onShown onRetired repo =
      exec "show PST generation" (repo.tables.exchanged now shown retired onShown onRetired) := by
  have h1 := repo.valid.setGenerationState shown .active none
  have h2 := h1.setGenerationState retired .trashed (some now)
  have h3 := h2.retire retired hf.retired hf.retires
  show (exec _ _ >>= fun _ => _) = _
  rw [exec_of_valid h1]
  show (exec _ _ >>= fun _ => _) = _
  rw [exec_of_valid h2]
  show (exec _ _ >>= fun _ => _) = _
  rw [exec_of_valid h3]
  rfl

theorem runGenerationChange_eq_ok {operation : String} {body : Except Error PstRepository}
    {r : PstRepository} : runGenerationChange operation body = .ok r ↔ body = .ok r := by
  cases body with
  | ok _ => exact Iff.rfl
  | error _ => simp [runGenerationChange]

/-- A generation change that fails says so and no more. -/
theorem runGenerationChange_error {operation : String} {body : Except Error PstRepository}
    {e : Error} (h : runGenerationChange operation body = .error e) :
    e = ⟨.database,"Could not " ++ operation⟩ := by
  cases body with
  | ok _ => cases h
  | error _ =>
    cases h
    rfl

end PstRepository

/-- `activate_generation` accepts the pair of generations. -/
structure PstTables.Activatable (t : PstTables) (newRow oldRow : PstImport) : Prop where
  memNew : newRow ∈ t.imports
  memOld : oldRow ∈ t.imports
  finished : newRow.status.isComplete = true
  inactive : newRow.isActive = false
  replaces : newRow.replacesId = some oldRow.id
  active : oldRow.isActive = true
  complete : oldRow.status.isComplete = true

/-- `restore_generation` accepts the generation. -/
structure PstTables.Restorable (t : PstTables) (target : PstImport) : Prop where
  mem : target ∈ t.imports
  inactive : target.isActive = false
  superseded : target.status = .superseded

/-- The generation is a finished replacement of the one with this id. -/
def PstImport.Replaces (i : PstImport) (id : Nat) : Prop :=
  i.replacesId = some id ∧ i.status.isComplete = true

instance (i : PstImport) (id : Nat) : Decidable (i.Replaces id) :=
  inferInstanceAs (Decidable (_ ∧ _))

namespace PstRepository

variable {repo r : PstRepository} {now : String}

theorem activateGeneration_ok_iff {importId replacesId : Nat} :
    activateGeneration now importId replacesId repo = .ok r ↔
      ∃ newRow oldRow, repo.tables.Activatable newRow oldRow ∧ newRow.id = importId ∧
        oldRow.id = replacesId ∧ r.tables = repo.tables.exchanged now importId replacesId
          PstImport.activated (PstImport.superseded now) := by
  rw [activateGeneration,runGenerationChange_eq_ok]
  constructor
  · intro h
    split at h
    · next newRow oldRow hnew hold =>
      obtain ⟨hnew,hnewId⟩ := PstTables.findImport_eq_some hnew
      obtain ⟨hold,holdId⟩ := PstTables.findImport_eq_some hold
      split_ifs at h with h1 h2 h3
      rw [exchange_eq (exchanges_activate now),exec_eq_ok] at h
      simp only [Bool.not_eq_true',Bool.not_eq_false,Bool.or_eq_true,bne_iff_ne,ne_eq,not_or,
        Bool.not_eq_true,not_not] at h1 h2 h3
      exact ⟨newRow,oldRow,⟨hnew,hold,h1,h2.1,holdId ▸ h2.2,h3.1,h3.2⟩,hnewId,holdId,h⟩
    · cases h
  · rintro ⟨newRow,oldRow,⟨hnew,hold,h1,h2,h3,h4,h5⟩,rfl,rfl,hr⟩
    rw [repo.valid.findImport_of_mem hnew,repo.valid.findImport_of_mem hold]
    simp only [h1,h2,h3,h4,h5,Bool.not_true,Bool.false_eq_true,if_false,Bool.false_or,bne_self_eq_false]
    rw [exchange_eq (exchanges_activate now),exec_eq_ok]
    exact hr

theorem restoreGeneration_ok_iff {importId : Nat} :
    restoreGeneration now importId repo = .ok r ↔
      ∃ target current, repo.tables.Restorable target ∧ target.id = importId ∧
        repo.tables.newestActive importId = some current ∧ current.Replaces importId ∧
        r.tables = repo.tables.exchanged now importId current.id PstImport.restored
          (PstImport.superseded now) := by
  rw [restoreGeneration,runGenerationChange_eq_ok]
  constructor
  · intro h
    split at h
    · cases h
    · next target htarget =>
      obtain ⟨htarget,hid⟩ := PstTables.findImport_eq_some htarget
      split_ifs at h with h1
      split at h
      · cases h
      · next current hcurrent =>
        split_ifs at h with h2
        rw [exchange_eq (exchanges_restore now),exec_eq_ok] at h
        simp only [Bool.or_eq_true,bne_iff_ne,ne_eq,not_or,Bool.not_eq_true,not_not,
          Bool.not_eq_true',Bool.not_eq_false] at h1 h2
        exact ⟨target,current,⟨htarget,h1.1,h1.2⟩,hid,hcurrent,⟨h2.1,h2.2⟩,h⟩
  · rintro ⟨target,current,⟨htarget,h1,h2⟩,rfl,hcurrent,⟨h3,h4⟩,hr⟩
    rw [repo.valid.findImport_of_mem htarget,hcurrent]
    simp only [h1,h2,h3,h4,Bool.false_or,bne_self_eq_false,Bool.false_eq_true,if_false,Bool.not_true]
    rw [exchange_eq (exchanges_restore now),exec_eq_ok]
    exact hr

theorem rollbackGenerationSwitch_ok_iff {importId replacesId : Nat} :
    rollbackGenerationSwitch now importId replacesId repo = .ok r ↔
      ∃ newRow ∈ repo.tables.imports, ∃ oldRow ∈ repo.tables.imports, newRow.id = importId ∧
        oldRow.id = replacesId ∧ newRow.replacesId = some replacesId ∧
        ((newRow.isActive = true ∧ oldRow.isActive = false ∧
            r.tables = repo.tables.exchanged now replacesId importId PstImport.restored
              PstImport.withdrawn) ∨
          (newRow.isActive = false ∧ oldRow.isActive = true ∧ r = repo)) := by
  rw [rollbackGenerationSwitch,runGenerationChange_eq_ok]
  constructor
  · intro h
    split at h
    · next newRow oldRow hnew hold =>
      obtain ⟨hnew,hnewId⟩ := PstTables.findImport_eq_some hnew
      obtain ⟨hold,holdId⟩ := PstTables.findImport_eq_some hold
      split_ifs at h with h1 h2 h3
      · rw [exchange_eq exchanges_rollback,exec_eq_ok] at h
        simp only [bne_iff_ne,ne_eq,not_not,Bool.and_eq_true,Bool.not_eq_true'] at h1 h2
        exact ⟨newRow,hnew,oldRow,hold,hnewId,holdId,h1,.inl ⟨h2.1,h2.2,h⟩⟩
      · simp only [bne_iff_ne,ne_eq,not_not,Bool.and_eq_true,Bool.not_eq_true'] at h1 h3
        cases h
        exact ⟨newRow,hnew,oldRow,hold,hnewId,holdId,h1,.inr ⟨h3.1,h3.2,rfl⟩⟩
    · cases h
  · rintro ⟨newRow,hnew,oldRow,hold,rfl,rfl,h1,h2⟩
    rw [repo.valid.findImport_of_mem hnew,repo.valid.findImport_of_mem hold]
    rcases h2 with ⟨h2,h3,hr⟩ | ⟨h2,h3,rfl⟩
    · simp only [h1,h2,h3,bne_self_eq_false,Bool.false_eq_true,if_false,Bool.not_false,Bool.and_self,
        if_true]
      rw [exchange_eq exchanges_rollback,exec_eq_ok]
      exact hr
    · simp [h1,h2,h3]

end PstRepository

end MailDock
