import MailDock.Pst.Generations

/-!
# Generations of different sources

Two databases that agree on the rows of one source, compared under a generation change of that
source.  `activate_generation` and `rollback_generation_switch` name both rows they change.
`restore_generation` looks for the active generation itself, over all sources.

## Main definitions

- `AgreeOn`, `Unchanged` — two databases agree on a source, and differ on it only
- `Isolated` — the outcome and the effect of an operation depend on, and touch, one source only

## Main results

- `generation_changes_isolated_iff`
-/

namespace MailDock

open Relational

namespace PstTables

/-- The id is that of a generation of the source. -/
def ImportOf (t : PstTables) (source : String) (id : Nat) : Prop :=
  ∃ i ∈ t.imports, i.id = id ∧ i.sourceSha256 = source

/-- The id is that of a message of one of the generations of the source. -/
def MessageOf (t : PstTables) (source : String) (id : Nat) : Prop :=
  ∃ x ∈ t.items, x.messageRowId = some id ∧ t.ImportOf source x.importId

end PstTables

/-- The rows of the source, with their items and messages, are the same in both databases. -/
structure AgreeOn (source : String) (t u : PstTables) : Prop where
  imports : ∀ i, i.sourceSha256 = source → (i ∈ t.imports ↔ i ∈ u.imports)
  items : ∀ x, t.ImportOf source x.importId → (x ∈ t.items ↔ x ∈ u.items)
  messages : ∀ m, t.MessageOf source m.id → (m ∈ t.mail.messages ↔ m ∈ u.mail.messages)

/-- Everything but the rows and the messages of the source is as it was. -/
structure Unchanged (source : String) (t u : PstTables) : Prop where
  imports : ∀ i, i.sourceSha256 ≠ source → (i ∈ u.imports ↔ i ∈ t.imports)
  messages : ∀ m, ¬ t.MessageOf source m.id → (m ∈ u.mail.messages ↔ m ∈ t.mail.messages)
  rest : u = { t with
    imports := u.imports
    mail := { t.mail with messages := u.mail.messages } }

/-- On two databases that may differ in other sources, an operation ends alike and has the same
effect on the source, and it changes nothing else. -/
structure Isolated (source : String) (op : PstRepository → Except Error PstRepository)
    (r r' : PstRepository) : Prop where
  fails : ∀ e, op r = .error e ↔ op r' = .error e
  agrees : ∀ u u', op r = .ok u → op r' = .ok u' → AgreeOn source u.tables u'.tables
  frame : ∀ u, op r = .ok u → Unchanged source r.tables u.tables
  frame' : ∀ u', op r' = .ok u' → Unchanged source r'.tables u'.tables

section
variable {source : String} {t u : PstTables}

namespace AgreeOn

theorem importOf (h : AgreeOn source t u) (id : Nat) :
    t.ImportOf source id ↔ u.ImportOf source id := by
  constructor
  · rintro ⟨i,hi,hid,hs⟩
    exact ⟨i,(h.imports i hs).mp hi,hid,hs⟩
  · rintro ⟨i,hi,hid,hs⟩
    exact ⟨i,(h.imports i hs).mpr hi,hid,hs⟩

/-- A generation of the source holds the same messages in both databases. -/
theorem holds_eq (h : AgreeOn source t u) {id : Nat} (hid : t.ImportOf source id) (m : Message) :
    t.holds id m = u.holds id m := by
  have hmem : ∀ x, x.importId = id → (x ∈ t.items ↔ x ∈ u.items) := fun x hx =>
    h.items x (hx ▸ hid)
  rw [Bool.eq_iff_iff]
  simp only [PstTables.holds,List.any_eq_true,Bool.and_eq_true,beq_iff_eq]
  constructor
  · rintro ⟨x,hx,himport,hmessage⟩
    exact ⟨x,(hmem x himport).mp hx,himport,hmessage⟩
  · rintro ⟨x,hx,himport,hmessage⟩
    exact ⟨x,(hmem x himport).mpr hx,himport,hmessage⟩

end AgreeOn

theorem PstTables.messageOf_of_holds {id : Nat} (hid : t.ImportOf source id) {m : Message}
    (h : t.holds id m = true) : t.MessageOf source m.id := by
  simp only [PstTables.holds,List.any_eq_true,Bool.and_eq_true,beq_iff_eq] at h
  obtain ⟨x,hx,rfl,hmessage⟩ := h
  exact ⟨x,hx,hmessage,hid⟩

/-! ## The statements of a generation change -/

theorem PstTables.importOf_updateImport {f : PstImport → PstImport} (hf : PstImport.Keeps f)
    (id n : Nat) : (t.updateImport id f).ImportOf source n ↔ t.ImportOf source n := by
  constructor
  · rintro ⟨i,hi,hn,hs⟩
    rcases mem_update.mp hi with ⟨hi,-⟩ | ⟨j,hj,-,rfl⟩
    · exact ⟨i,hi,hn,hs⟩
    · exact ⟨j,hj,(hf.id j).symm.trans hn,(hf.sourceSha256 j).symm.trans hs⟩
  · rintro ⟨i,hi,hn,hs⟩
    by_cases hid : i.id = id
    · exact ⟨f i,mem_update.mpr (.inr ⟨i,hi,by simp [hid],rfl⟩),(hf.id i).trans hn,
        (hf.sourceSha256 i).trans hs⟩
    · exact ⟨i,mem_update.mpr (.inl ⟨hi,by simp [hid]⟩),hn,hs⟩

/-- Which messages belong to the source is a matter of the items alone. -/
theorem PstTables.messageOf_updateImport {f : PstImport → PstImport} (hf : PstImport.Keeps f)
    (id n : Nat) : (t.updateImport id f).MessageOf source n ↔ t.MessageOf source n := by
  constructor
  · rintro ⟨x,hx,hn,hs⟩
    exact ⟨x,hx,hn,(importOf_updateImport hf id _).mp hs⟩
  · rintro ⟨x,hx,hn,hs⟩
    exact ⟨x,hx,hn,(importOf_updateImport hf id _).mpr hs⟩

theorem AgreeOn.updateImport (h : AgreeOn source t u) {f : PstImport → PstImport}
    (hf : PstImport.Keeps f) (id : Nat) :
    AgreeOn source (t.updateImport id f) (u.updateImport id f) where
  imports := by
    intro i hs
    have hpast : ∀ j, f j = i → j.sourceSha256 = source := fun j hj =>
      (hf.sourceSha256 j).symm.trans (hj ▸ hs)
    show i ∈ update _ f t.imports ↔ i ∈ update _ f u.imports
    rw [mem_update,mem_update]
    constructor
    · rintro (⟨hi,hid⟩ | ⟨j,hj,hid,hji⟩)
      · exact .inl ⟨(h.imports i hs).mp hi,hid⟩
      · exact .inr ⟨j,(h.imports j (hpast j hji)).mp hj,hid,hji⟩
    · rintro (⟨hi,hid⟩ | ⟨j,hj,hid,hji⟩)
      · exact .inl ⟨(h.imports i hs).mpr hi,hid⟩
      · exact .inr ⟨j,(h.imports j (hpast j hji)).mpr hj,hid,hji⟩
  items := fun x hx => h.items x ((PstTables.importOf_updateImport hf id _).mp hx)
  messages := fun m hm => h.messages m ((PstTables.messageOf_updateImport hf id _).mp hm)

theorem AgreeOn.setGenerationState (h : AgreeOn source t u) {id : Nat}
    (hid : t.ImportOf source id) (state : LocalState) (trashedAt : Option String) :
    AgreeOn source (t.setGenerationState id state trashedAt)
      (u.setGenerationState id state trashedAt) where
  imports := h.imports
  items := h.items
  messages := by
    intro m hm
    have hpast : ∀ n : Message, n.id = m.id → (n ∈ t.mail.messages ↔ n ∈ u.mail.messages) :=
      fun n hn => h.messages n (hn ▸ hm)
    show m ∈ update _ _ t.mail.messages ↔ m ∈ update _ _ u.mail.messages
    rw [mem_update,mem_update]
    constructor
    · rintro (⟨hm',hold⟩ | ⟨n,hn,hold,rfl⟩)
      · exact .inl ⟨(hpast m rfl).mp hm',by rw [← h.holds_eq hid]; exact hold⟩
      · exact .inr ⟨n,(hpast n rfl).mp hn,by rw [← h.holds_eq hid]; exact hold,rfl⟩
    · rintro (⟨hm',hold⟩ | ⟨n,hn,hold,rfl⟩)
      · exact .inl ⟨(hpast m rfl).mpr hm',by rw [h.holds_eq hid]; exact hold⟩
      · exact .inr ⟨n,(hpast n rfl).mpr hn,by rw [h.holds_eq hid]; exact hold,rfl⟩

theorem Unchanged.refl (t : PstTables) : Unchanged source t t :=
  ⟨fun _ _ => Iff.rfl,fun _ _ => Iff.rfl,rfl⟩

theorem Unchanged.trans {v : PstTables} (h : Unchanged source t u) (h' : Unchanged source u v)
    (hof : ∀ id, u.MessageOf source id ↔ t.MessageOf source id) : Unchanged source t v where
  imports := fun i hi => (h'.imports i hi).trans (h.imports i hi)
  messages := fun m hm => (h'.messages m (fun hu => hm ((hof _).mp hu))).trans (h.messages m hm)
  rest := by
    have hv := h'.rest
    rw [h.rest] at hv
    exact hv

theorem Unchanged.updateImport (t : PstTables) {n : Nat}
    (hid : ∀ i ∈ t.imports, i.id = n → i.sourceSha256 = source) {f : PstImport → PstImport}
    (hf : PstImport.Keeps f) : Unchanged source t (t.updateImport n f) where
  imports := by
    intro i hs
    show i ∈ update _ f t.imports ↔ i ∈ t.imports
    rw [mem_update]
    constructor
    · rintro (⟨hi,-⟩ | ⟨j,hj,hjn,rfl⟩)
      · exact hi
      · exact absurd ((hf.sourceSha256 j).trans (hid j hj (by simpa using hjn))) hs
    · intro hi
      have hne : i.id ≠ n := fun hn => hs (hid i hi hn)
      exact .inl ⟨hi,by simp [hne]⟩
  messages := fun _ _ => Iff.rfl
  rest := rfl

theorem Unchanged.setGenerationState (t : PstTables) (id : Nat) (hid : t.ImportOf source id)
    (state : LocalState) (trashedAt : Option String) :
    Unchanged source t (t.setGenerationState id state trashedAt) where
  imports := fun _ _ => Iff.rfl
  messages := by
    intro m hm
    have hout : ∀ n : Message, n.id = m.id → t.holds id n = false := by
      intro n hn
      by_contra hold
      exact hm (hn ▸ PstTables.messageOf_of_holds hid (by simpa using hold))
    show m ∈ update _ _ t.mail.messages ↔ m ∈ t.mail.messages
    rw [mem_update]
    constructor
    · rintro (⟨hm',-⟩ | ⟨n,-,hold,rfl⟩)
      · exact hm'
      · rw [hout n rfl] at hold
        cases hold
    · exact fun hm' => .inl ⟨hm',hout m rfl⟩
  rest := rfl

variable {now : String} {shown retired : Nat} {onShown onRetired : PstImport → PstImport}

theorem AgreeOn.exchanged (h : AgreeOn source t u) (hf : Exchanges onShown onRetired)
    (hshown : t.ImportOf source shown) (hretired : t.ImportOf source retired) :
    AgreeOn source (t.exchanged now shown retired onShown onRetired)
      (u.exchanged now shown retired onShown onRetired) :=
  (((h.setGenerationState hshown _ _).setGenerationState (t := t.setGenerationState _ _ _) hretired
    _ _).updateImport hf.retired _).updateImport hf.shown _

theorem Unchanged.exchanged (ht : t.Valid) (hf : Exchanges onShown onRetired)
    (hshown : t.ImportOf source shown) (hretired : t.ImportOf source retired) :
    Unchanged source t (t.exchanged now shown retired onShown onRetired) := by
  have hrow : ∀ {n}, t.ImportOf source n → ∀ i ∈ t.imports, i.id = n → i.sourceSha256 = source := by
    rintro n ⟨j,hj,hjn,hs⟩ i hi hin
    rw [ht.import_eq hi hj (hin.trans hjn.symm)]
    exact hs
  set a := t.setGenerationState shown .active none
  set b := a.setGenerationState retired .trashed (some now)
  have h1 : Unchanged source t a := .setGenerationState t shown hshown _ _
  have h2 : Unchanged source t b :=
    h1.trans (.setGenerationState a retired hretired _ _) fun _ => Iff.rfl
  have h3 : Unchanged source t (b.updateImport retired onRetired) :=
    h2.trans (.updateImport b (hrow hretired) hf.retired) fun _ => Iff.rfl
  refine h3.trans (.updateImport (b.updateImport retired onRetired) ?_ hf.shown)
    fun id => PstTables.messageOf_updateImport hf.retired _ _
  intro i hi hin
  rcases mem_update.mp hi with ⟨hi,-⟩ | ⟨j,hj,-,rfl⟩
  · exact hrow hshown i hi hin
  · rw [hf.retired.sourceSha256]
    exact hrow hshown j hj ((hf.retired.id j).symm.trans hin)

end

/-! ## The operations -/

section
variable {source : String} {r r' : PstRepository} {now : String}

/-- An operation that succeeds alike on both databases, with tables that agree, is isolated. -/
theorem Isolated.of_ok_iff {op : PstRepository → Except Error PstRepository} {failure : Error}
    (hfail : ∀ q e, op q = .error e → e = failure) {P Q : Prop} {t v : PstTables}
    (hop : ∀ u, op r = .ok u ↔ P ∧ u.tables = t) (hop' : ∀ u, op r' = .ok u ↔ Q ∧ u.tables = v)
    (hiff : P ∧ t.Valid ↔ Q ∧ v.Valid) (hagree : P → AgreeOn source t v)
    (hframe : P → Unchanged source r.tables t) (hframe' : Q → Unchanged source r'.tables v) :
    Isolated source op r r' := by
  have hok : ∀ {q : PstRepository} {R : Prop} {w : PstTables},
      (∀ u, op q = .ok u ↔ R ∧ u.tables = w) → ((∃ u, op q = .ok u) ↔ R ∧ w.Valid) := by
    intro q R w hq
    constructor
    · intro ⟨u,hu⟩
      obtain ⟨hR,hw⟩ := (hq u).mp hu
      exact ⟨hR,hw ▸ u.valid⟩
    · intro ⟨hR,hw⟩
      exact ⟨⟨w,hw⟩,(hq _).mpr ⟨hR,rfl⟩⟩
  have hsame : (∃ u, op r = .ok u) ↔ ∃ u, op r' = .ok u := by rw [hok hop,hok hop',hiff]
  have herror : ∀ q e, op q = .error e ↔ e = failure ∧ ¬ ∃ u, op q = .ok u := by
    intro q e
    cases hq : op q with
    | ok u => simp
    | error e' =>
      have he := hfail q e' hq
      simp [he,eq_comm]
  constructor
  · intro e
    rw [herror,herror,hsame]
  · intro u u' hu hu'
    rw [((hop u).mp hu).2,((hop' u').mp hu').2]
    exact hagree ((hop u).mp hu).1
  · intro u hu
    rw [((hop u).mp hu).2]
    exact hframe ((hop u).mp hu).1
  · intro u' hu'
    rw [((hop' u').mp hu').2]
    exact hframe' ((hop' u').mp hu').1

/-- An operation that fails on both is isolated. -/
theorem Isolated.of_fails {op : PstRepository → Except Error PstRepository} {failure : Error}
    (hfail : ∀ q e, op q = .error e → e = failure) (h : ∀ u, op r ≠ .ok u)
    (h' : ∀ u, op r' ≠ .ok u) : Isolated source op r r' :=
  .of_ok_iff (P := False) (Q := False) (t := r.tables) (v := r'.tables) hfail
    (fun u => by simp [h u]) (fun u => by simp [h' u]) (by simp) False.elim False.elim False.elim

/-- Whether a third generation of the source is in the way depends on the source only. -/
theorem AgreeOn.exchanged_valid_iff (h : AgreeOn source r.tables r'.tables)
    {onShown onRetired : PstImport → PstImport} (hf : Exchanges onShown onRetired)
    {shown retired : Nat} (hshown : r.tables.ImportOf source shown) :
    (r.tables.exchanged now shown retired onShown onRetired).Valid ↔
      (r'.tables.exchanged now shown retired onShown onRetired).Valid := by
  obtain ⟨s,hs,hid,hsource⟩ := hshown
  rw [r.valid.exchanged_iff now retired hf hs hid,
    r'.valid.exchanged_iff now retired hf ((h.imports s hsource).mp hs) hid]
  constructor
  · intro hfree i hi hactive hne hne' heq
    exact hfree i ((h.imports i (heq.trans hsource)).mpr hi) hactive hne hne' heq
  · intro hfree i hi hactive hne hne' heq
    exact hfree i ((h.imports i (heq.trans hsource)).mp hi) hactive hne hne' heq

theorem PstTables.ImportOf.source_eq {id : Nat} (h : r.tables.ImportOf source id) {i : PstImport}
    (hi : i ∈ r.tables.imports) (hid : i.id = id) : i.sourceSha256 = source := by
  obtain ⟨j,hj,hjid,hs⟩ := h
  rw [r.valid.import_eq hi hj (hid.trans hjid.symm)]
  exact hs

theorem activateGeneration_isolated (h : AgreeOn source r.tables r'.tables)
    {importId replacesId : Nat} (hnew : r.tables.ImportOf source importId)
    (hold : r.tables.ImportOf source replacesId) :
    Isolated source (PstRepository.activateGeneration now importId replacesId) r r' := by
  have hnew' := (h.importOf _).mp hnew
  have hold' := (h.importOf _).mp hold
  have hop : ∀ q u : PstRepository,
      PstRepository.activateGeneration now importId replacesId q = .ok u ↔
        (∃ newRow oldRow, q.tables.Activatable newRow oldRow ∧ newRow.id = importId ∧
          oldRow.id = replacesId) ∧ u.tables = q.tables.exchanged now importId replacesId
            PstImport.activated (PstImport.superseded now) := by
    intro q u
    rw [PstRepository.activateGeneration_ok_iff]
    constructor
    · intro ⟨a,b,hab,ha,hb,hu⟩
      exact ⟨⟨a,b,hab,ha,hb⟩,hu⟩
    · intro ⟨⟨a,b,hab,ha,hb⟩,hu⟩
      exact ⟨a,b,hab,ha,hb,hu⟩
  refine .of_ok_iff (fun q e => PstRepository.runGenerationChange_error) (hop r) (hop r') ?_
    (fun _ => h.exchanged (exchanges_activate now) hnew hold)
    (fun _ => .exchanged r.valid (exchanges_activate now) hnew hold)
    fun _ => .exchanged r'.valid (exchanges_activate now) hnew' hold'
  · refine and_congr ?_ (h.exchanged_valid_iff (exchanges_activate now) hnew)
    constructor
    · intro ⟨a,b,hab,ha,hb⟩
      exact ⟨a,b,{ hab with
        memNew := (h.imports a (hnew.source_eq hab.memNew ha)).mp hab.memNew
        memOld := (h.imports b (hold.source_eq hab.memOld hb)).mp hab.memOld },ha,hb⟩
    · intro ⟨a,b,hab,ha,hb⟩
      exact ⟨a,b,{ hab with
        memNew := (h.imports a (hnew'.source_eq hab.memNew ha)).mpr hab.memNew
        memOld := (h.imports b (hold'.source_eq hab.memOld hb)).mpr hab.memOld },ha,hb⟩

/-- The two branches of a rollback in one: the tables it leaves. -/
def PstTables.rolledBack (now : String) (importId replacesId : Nat) (t : PstTables) : PstTables :=
  if t.imports.any (fun i => i.id == importId && i.isActive) then
    t.exchanged now replacesId importId PstImport.restored PstImport.withdrawn
  else t

theorem rollbackGenerationSwitch_isolated (h : AgreeOn source r.tables r'.tables)
    {importId replacesId : Nat} (hnew : r.tables.ImportOf source importId)
    (hold : r.tables.ImportOf source replacesId) :
    Isolated source (PstRepository.rollbackGenerationSwitch now importId replacesId) r r' := by
  have hnew' := (h.importOf _).mp hnew
  have hold' := (h.importOf _).mp hold
  have hactive : ∀ (q : PstRepository) {i : PstImport}, i ∈ q.tables.imports → i.id = importId →
      q.tables.rolledBack now importId replacesId = if i.isActive then
        q.tables.exchanged now replacesId importId PstImport.restored PstImport.withdrawn
      else q.tables := by
    intro q i hi hid
    have hany : q.tables.imports.any (fun i => i.id == importId && i.isActive) = i.isActive := by
      rw [Bool.eq_iff_iff,List.any_eq_true]
      constructor
      · intro ⟨j,hj,hj'⟩
        rw [Bool.and_eq_true,beq_iff_eq] at hj'
        rw [← q.valid.import_eq hj hi (hj'.1.trans hid.symm)]
        exact hj'.2
      · intro hi'
        exact ⟨i,hi,by simp [hid,hi']⟩
    rw [PstTables.rolledBack,hany]
  have hrows : ∀ i, i.id = importId ∨ i.id = replacesId →
      (i ∈ r.tables.imports ↔ i ∈ r'.tables.imports) := by
    intro i hid
    by_cases hs : i.sourceSha256 = source
    · exact h.imports i hs
    · constructor
      · intro hi
        cases hid with
        | inl hid => exact absurd (hnew.source_eq hi hid) hs
        | inr hid => exact absurd (hold.source_eq hi hid) hs
      · intro hi
        cases hid with
        | inl hid => exact absurd (hnew'.source_eq hi hid) hs
        | inr hid => exact absurd (hold'.source_eq hi hid) hs
  obtain ⟨n,hn,hnid,hns⟩ := hnew
  have hn' := (h.imports n hns).mp hn
  have hop : ∀ q u : PstRepository,
      PstRepository.rollbackGenerationSwitch now importId replacesId q = .ok u ↔
        (∃ newRow oldRow, newRow ∈ q.tables.imports ∧ oldRow ∈ q.tables.imports ∧
          newRow.id = importId ∧ oldRow.id = replacesId ∧ newRow.replacesId = some replacesId ∧
          newRow.isActive ≠ oldRow.isActive) ∧
          u.tables = q.tables.rolledBack now importId replacesId := by
    intro q u
    rw [PstRepository.rollbackGenerationSwitch_ok_iff]
    constructor
    · rintro ⟨a,ha,b,hb,haid,hbid,hab,⟨hao,hbo,hu⟩ | ⟨hao,hbo,rfl⟩⟩
      · refine ⟨⟨a,b,ha,hb,haid,hbid,hab,by simp [hao,hbo]⟩,?_⟩
        rw [hactive q ha haid,hao]
        exact hu
      · refine ⟨⟨a,b,ha,hb,haid,hbid,hab,by simp [hao,hbo]⟩,?_⟩
        rw [hactive u ha haid,hao]
        rfl
    · intro ⟨⟨a,b,ha,hb,haid,hbid,hab,hne⟩,hu⟩
      rw [hactive q ha haid] at hu
      refine ⟨a,ha,b,hb,haid,hbid,hab,?_⟩
      cases hao : a.isActive with
      | true => exact .inl ⟨rfl,by simpa [hao] using hne.symm,by simpa [hao] using hu⟩
      | false => exact .inr ⟨rfl,by simpa [hao] using hne.symm,PstRepository.ext (by simpa [hao] using hu)⟩
  refine .of_ok_iff (fun q e => PstRepository.runGenerationChange_error) (hop r) (hop r') ?_
    (fun _ => ?_) (fun _ => ?_) fun _ => ?_
  · refine and_congr ?_ ?_
    · constructor
      · intro ⟨a,b,ha,hb,haid,hbid,hab⟩
        exact ⟨a,b,(hrows a (.inl haid)).mp ha,(hrows b (.inr hbid)).mp hb,haid,hbid,hab⟩
      · intro ⟨a,b,ha,hb,haid,hbid,hab⟩
        exact ⟨a,b,(hrows a (.inl haid)).mpr ha,(hrows b (.inr hbid)).mpr hb,haid,hbid,hab⟩
    · rw [hactive r hn hnid,hactive r' hn' hnid]
      split
      · exact h.exchanged_valid_iff exchanges_rollback hold
      · exact ⟨fun _ => r'.valid,fun _ => r.valid⟩
  · rw [hactive r hn hnid,hactive r' hn' hnid]
    split
    · exact h.exchanged exchanges_rollback hold ⟨n,hn,hnid,hns⟩
    · exact h
  · rw [hactive r hn hnid]
    split
    · exact .exchanged r.valid exchanges_rollback hold ⟨n,hn,hnid,hns⟩
    · exact .refl _
  · rw [hactive r' hn' hnid]
    split
    · exact .exchanged r'.valid exchanges_rollback hold' hnew'
    · exact .refl _

/-- When the restore of a generation is isolated.  The newest active generation of all sources has
to be that of this source in both databases or in neither, as far as it matters: while the source
has an active generation, the unique index refuses any other; while it has none, only a generation
of another source that claims to replace this one would be taken. -/
def RestoreIsolated (source : String) (target : PstImport) (t u : PstTables) : Prop :=
  t.Restorable target →
    (∀ own ∈ t.imports, own.sourceSha256 = source → own.isActive = true → own.Replaces target.id →
      (t.newestActive target.id = some own ↔ u.newestActive target.id = some own)) ∧
    ((∀ i ∈ t.imports, i.sourceSha256 = source → i.isActive = false) →
      ∀ c, c.Replaces target.id → t.newestActive target.id ≠ some c ∧ u.newestActive target.id ≠ some c)

theorem AgreeOn.restorable (h : AgreeOn source r.tables r'.tables) {target : PstImport}
    (hs : target.sourceSha256 = source) :
    r.tables.Restorable target ↔ r'.tables.Restorable target := by
  constructor
  · intro ⟨hmem,hoff,hstatus⟩
    exact ⟨(h.imports _ hs).mp hmem,hoff,hstatus⟩
  · intro ⟨hmem,hoff,hstatus⟩
    exact ⟨(h.imports _ hs).mpr hmem,hoff,hstatus⟩

/-- A restore that succeeds takes the active generation of the source, if there is one. -/
theorem restoreGeneration_takes {target own : PstImport} (hown : own ∈ r.tables.imports)
    (hsource : own.sourceSha256 = target.sourceSha256) (hactive : own.isActive = true)
    {u : PstRepository} (hu : PstRepository.restoreGeneration now target.id r = .ok u)
    (htarget : target ∈ r.tables.imports) :
    r.tables.newestActive target.id = some own ∧ own.Replaces target.id := by
  obtain ⟨g,c,hg,hgid,hc,hreplaces,hu⟩ := PstRepository.restoreGeneration_ok_iff.mp hu
  have hgt : g = target := r.valid.import_eq hg.mem htarget hgid
  have hfree := (r.valid.exchanged_iff now c.id (exchanges_restore now) htarget rfl).mp (hu ▸ u.valid)
  have hne : own.id ≠ target.id := by
    intro hid
    have heq := r.valid.import_eq hown htarget hid
    rw [heq,← hgt,hg.inactive] at hactive
    cases hactive
  have hid : own.id = c.id := by
    by_contra hne'
    exact hfree own hown hactive hne hne' hsource
  have heq := r.valid.import_eq hown (PstTables.newestActive_eq_some hc).1 hid
  exact ⟨heq ▸ hc,heq ▸ hreplaces⟩

/-- The other way round: it succeeds when it finds that generation. -/
theorem restoreGeneration_succeeds (now : String) {target own : PstImport} (htarget : r.tables.Restorable target)
    (hown : r.tables.newestActive target.id = some own) (hreplaces : own.Replaces target.id)
    (hfree : ∀ i ∈ r.tables.imports, i.sourceSha256 = target.sourceSha256 → i.isActive = true →
      i = own) :
    ∃ u, PstRepository.restoreGeneration now target.id r = .ok u := by
  have hvalid := (r.valid.exchanged_iff now own.id (exchanges_restore now)
    htarget.mem rfl).mpr fun i hi hactive _ hne hsource => hne (by rw [hfree i hi hsource hactive])
  exact ⟨⟨_,hvalid⟩,PstRepository.restoreGeneration_ok_iff.mpr
    ⟨target,own,htarget,rfl,hown,hreplaces,rfl⟩⟩

/-- The restore of a generation of this source leaves those of the others alone only if it retires
one of this source. -/
theorem restoreGeneration_retires {target c : PstImport} {u : PstRepository}
    (hu : PstRepository.restoreGeneration now target.id r = .ok u)
    (hc : r.tables.newestActive target.id = some c)
    (hframe : Unchanged source r.tables u.tables) : c.sourceSha256 = source := by
  by_contra hs
  obtain ⟨g,c',-,-,hc',-,hu⟩ := PstRepository.restoreGeneration_ok_iff.mp hu
  obtain rfl : c' = c := Option.some.inj (hc'.symm.trans hc)
  obtain ⟨hmem,hactive,hne,-⟩ := PstTables.newestActive_eq_some hc
  have hkept := (hframe.imports c' hs).mpr hmem
  have hretired : c'.superseded now ∈ u.tables.imports := by
    rw [hu]
    exact mem_update.mpr (.inl ⟨mem_update.mpr (.inr ⟨c',hmem,by simp,rfl⟩),
      by simpa [PstImport.superseded] using hne⟩)
  have heq := u.valid.import_eq hkept hretired rfl
  rw [heq] at hactive
  cases hactive

/-- Two restores that retire the same generation of the source. -/
theorem restoreGeneration_isolated_of_taken (h : AgreeOn source r.tables r'.tables)
    {target own : PstImport} (hrest : r.tables.Restorable target)
    (hrest' : r'.tables.Restorable target) (hs : target.sourceSha256 = source)
    (hsource : own.sourceSha256 = source) (hpick : r.tables.newestActive target.id = some own)
    (hpick' : r'.tables.newestActive target.id = some own) (hreplaces : own.Replaces target.id) :
    Isolated source (PstRepository.restoreGeneration now target.id) r r' := by
  have hop : ∀ q : PstRepository, q.tables.Restorable target →
      q.tables.newestActive target.id = some own → ∀ u,
      PstRepository.restoreGeneration now target.id q = .ok u ↔ True ∧
        u.tables = q.tables.exchanged now target.id own.id PstImport.restored
          (PstImport.superseded now) := by
    intro q hq hpick u
    rw [PstRepository.restoreGeneration_ok_iff,true_and]
    constructor
    · intro ⟨g,c,_,_,hc,_,hu⟩
      rw [Option.some.inj (hpick.symm.trans hc)]
      exact hu
    · exact fun hu => ⟨target,own,hq,rfl,hpick,hreplaces,hu⟩
  have hown := (PstTables.newestActive_eq_some hpick).1
  have hshown : r.tables.ImportOf source target.id := ⟨target,hrest.mem,rfl,hs⟩
  have hretired : r.tables.ImportOf source own.id := ⟨own,hown,rfl,hsource⟩
  refine .of_ok_iff (fun q e => PstRepository.runGenerationChange_error) (hop r hrest hpick)
    (hop r' hrest' hpick') ?_ (fun _ => h.exchanged (exchanges_restore now) hshown hretired)
    (fun _ => .exchanged r.valid (exchanges_restore now) hshown hretired)
    fun _ => .exchanged r'.valid (exchanges_restore now) ((h.importOf _).mp hshown)
      ((h.importOf _).mp hretired)
  rw [true_and,true_and]
  exact h.exchanged_valid_iff (exchanges_restore now) hshown

theorem restoreGeneration_isolated_iff (h : AgreeOn source r.tables r'.tables) {target : PstImport}
    (htarget : target ∈ r.tables.imports) (hs : target.sourceSha256 = source) :
    Isolated source (PstRepository.restoreGeneration now target.id) r r' ↔
      RestoreIsolated source target r.tables r'.tables := by
  have htarget' := (h.imports target hs).mp htarget
  have herror : ∀ q e, PstRepository.restoreGeneration now target.id q = .error e → e =
      ⟨.database,"Could not " ++ "restore PST generation"⟩ :=
    fun q e => PstRepository.runGenerationChange_error
  constructor
  · intro hiso hrest
    have hrest' := (h.restorable hs).mp hrest
    have hiff : (∃ u, PstRepository.restoreGeneration now target.id r = .ok u) ↔
        ∃ u, PstRepository.restoreGeneration now target.id r' = .ok u := by
      cases hr : PstRepository.restoreGeneration now target.id r with
      | error e => simp [(hiso.fails e).mp hr]
      | ok u =>
        cases hr' : PstRepository.restoreGeneration now target.id r' with
        | error e => simp [(hiso.fails e).mpr hr'] at hr
        | ok u' => simp
    refine ⟨fun own hown hsource hactive hreplaces => ?_,fun hnone c hc => ?_⟩
    · have hown' := (h.imports own hsource).mp hown
      have honly : ∀ q : PstRepository, own ∈ q.tables.imports → ∀ i ∈ q.tables.imports,
          i.sourceSha256 = target.sourceSha256 → i.isActive = true → i = own :=
        fun q hq i hi hi' hia =>
          q.valid.active_eq hi hq hia hactive (hi'.trans (hs.trans hsource.symm))
      constructor
      · intro hpick
        obtain ⟨u,hu⟩ := hiff.mp (restoreGeneration_succeeds now hrest hpick hreplaces (honly r hown))
        exact (restoreGeneration_takes hown' (hsource.trans hs.symm) hactive hu htarget').1
      · intro hpick
        obtain ⟨u,hu⟩ :=
          hiff.mpr (restoreGeneration_succeeds now hrest' hpick hreplaces (honly r' hown'))
        exact (restoreGeneration_takes hown (hsource.trans hs.symm) hactive hu htarget).1
    · have hnone' : ∀ i ∈ r'.tables.imports, i.sourceSha256 = source → i.isActive = false :=
        fun i hi hi' => hnone i ((h.imports i hi').mpr hi) hi'
      constructor
      · intro hpick
        obtain ⟨hmem,hactive,-⟩ := PstTables.newestActive_eq_some hpick
        obtain ⟨u,hu⟩ := restoreGeneration_succeeds now hrest hpick hc fun i hi hi' hia => by
          rw [hnone i hi (hi'.trans hs)] at hia
          cases hia
        have hforeign := restoreGeneration_retires hu hpick (hiso.frame u hu)
        rw [hnone c hmem hforeign] at hactive
        cases hactive
      · intro hpick
        obtain ⟨hmem,hactive,-⟩ := PstTables.newestActive_eq_some hpick
        obtain ⟨u,hu⟩ := restoreGeneration_succeeds now hrest' hpick hc fun i hi hi' hia => by
          rw [hnone' i hi (hi'.trans hs)] at hia
          cases hia
        have hforeign := restoreGeneration_retires hu hpick (hiso.frame' u hu)
        rw [hnone' c hmem hforeign] at hactive
        cases hactive
  · intro hcond
    by_cases hrest : r.tables.Restorable target
    · have hrest' := (h.restorable hs).mp hrest
      obtain ⟨hsame,hnone⟩ := hcond hrest
      by_cases hown : ∃ own ∈ r.tables.imports, own.sourceSha256 = source ∧ own.isActive = true
      · obtain ⟨own,hown,hsource,hactive⟩ := hown
        have hown' := (h.imports own hsource).mp hown
        have hseq := hsource.trans hs.symm
        by_cases htake : own.Replaces target.id ∧ r.tables.newestActive target.id = some own
        · -- Both restores retire the generation of this source.
          have hpick' := (hsame own hown hsource hactive htake.1).mp htake.2
          exact restoreGeneration_isolated_of_taken h hrest hrest' hs hsource htake.2 hpick' htake.1
        · refine .of_fails herror ?_ ?_
          · intro u hu
            have := restoreGeneration_takes hown hseq hactive hu htarget
            exact htake ⟨this.2,this.1⟩
          · intro u hu
            have := restoreGeneration_takes hown' hseq hactive hu htarget'
            exact htake ⟨this.2,(hsame own hown hsource hactive this.2).mpr this.1⟩
      · have hoff : ∀ i ∈ r.tables.imports, i.sourceSha256 = source → i.isActive = false := by
          intro i hi hi'
          by_contra hia
          exact hown ⟨i,hi,hi',by simpa using hia⟩
        refine .of_fails herror ?_ ?_
        · intro u hu
          obtain ⟨-,c,-,-,hc,hreplaces,-⟩ := PstRepository.restoreGeneration_ok_iff.mp hu
          exact (hnone hoff c hreplaces).1 hc
        · intro u hu
          obtain ⟨-,c,-,-,hc,hreplaces,-⟩ := PstRepository.restoreGeneration_ok_iff.mp hu
          exact (hnone hoff c hreplaces).2 hc
    · have hno : ∀ q : PstRepository, target ∈ q.tables.imports → ¬ q.tables.Restorable target →
          ∀ u, PstRepository.restoreGeneration now target.id q ≠ .ok u := by
        intro q hq hnot u hu
        obtain ⟨g,-,hg,hgid,-⟩ := PstRepository.restoreGeneration_ok_iff.mp hu
        rw [q.valid.import_eq hg.mem hq hgid] at hg
        exact hnot hg
      exact .of_fails herror (hno r htarget hrest)
        (hno r' htarget' fun hr' => hrest ((h.restorable hs).mpr hr'))

/-- A switch and its rollback never look beyond the source of the two generations; the restore of a
generation does, and is isolated exactly when that makes no difference. -/
theorem generation_changes_isolated_iff (h : AgreeOn source r.tables r'.tables) (now : String) :
    (∀ importId replacesId, r.tables.ImportOf source importId →
      r.tables.ImportOf source replacesId →
      Isolated source (PstRepository.activateGeneration now importId replacesId) r r' ∧
        Isolated source (PstRepository.rollbackGenerationSwitch now importId replacesId) r r') ∧
    ∀ target ∈ r.tables.imports, target.sourceSha256 = source →
      (Isolated source (PstRepository.restoreGeneration now target.id) r r' ↔
        RestoreIsolated source target r.tables r'.tables) := by
  refine ⟨fun importId replacesId hnew hold => ?_,fun target htarget hs => ?_⟩
  · exact ⟨activateGeneration_isolated h hnew hold,rollbackGenerationSwitch_isolated h hnew hold⟩
  · exact restoreGeneration_isolated_iff h htarget hs

end

/-- One source with a superseded generation and the active one that replaced it. -/
def oneSource : PstTables where
  mail := { accounts := [{ id := "pst_a" },{ id := "pst_b" }] }
  imports := [
    { id := 1, importUuid := "u1", accountId := "pst_a", sourceFilename := "a.pst"
      sourceSha256 := "a", status := .superseded },
    { id := 2, importUuid := "u2", accountId := "pst_a", sourceFilename := "a.pst"
      sourceSha256 := "a", status := .completed, isActive := true, replacesId := some 1 }]
  nextImportId := 4

/-- The same with a completed import of another file. -/
def twoSources : PstTables :=
  { oneSource with imports := oneSource.imports ++ [
    { id := 3, importUuid := "u3", accountId := "pst_b", sourceFilename := "b.pst"
      sourceSha256 := "b", status := .completed, isActive := true }] }

def oneSourceRepository : PstRepository := ⟨oneSource,by decide⟩

def twoSourcesRepository : PstRepository := ⟨twoSources,by decide⟩

theorem oneSource_agrees_twoSources : AgreeOn "a" oneSource twoSources where
  imports := by
    intro i hi
    constructor
    · exact fun h => List.mem_append_left _ h
    · intro h
      rcases List.mem_append.mp h with h | h
      · exact h
      · rw [List.mem_singleton.mp h] at hi
        simp at hi
  items := fun _ _ => Iff.rfl
  messages := fun _ _ => Iff.rfl

/-- The active generation is younger than the import of the other file. -/
def youngerSource (others : List PstImport) : PstTables where
  mail := { accounts := [{ id := "pst_a" },{ id := "pst_b" }] }
  imports := [
    { id := 1, importUuid := "u1", accountId := "pst_a", sourceFilename := "a.pst"
      sourceSha256 := "a", status := .superseded },
    { id := 5, importUuid := "u5", accountId := "pst_a", sourceFilename := "a.pst"
      sourceSha256 := "a", status := .completed, isActive := true, replacesId := some 1 }] ++ others
  nextImportId := 6

def youngerRepository : PstRepository := ⟨youngerSource [],by decide⟩

def youngerOfTwoRepository : PstRepository :=
  ⟨youngerSource [
    { id := 3, importUuid := "u3", accountId := "pst_b", sourceFilename := "b.pst"
      sourceSha256 := "b", status := .completed, isActive := true }],by decide⟩

theorem youngerSource_agrees : AgreeOn "a" youngerRepository.tables youngerOfTwoRepository.tables where
  imports := by
    intro i hi
    constructor
    · exact fun h => List.mem_append_left _ h
    · intro h
      rcases List.mem_append.mp h with h | h
      · exact List.mem_append_left _ h
      · rw [List.mem_singleton.mp h] at hi
        simp at hi
  items := fun _ _ => Iff.rfl
  messages := fun _ _ => Iff.rfl

/-- The first generation of the younger source is restored alike with and without the other one. -/
theorem generation_changes_isolated_youngerSource :
    Isolated "a" (PstRepository.activateGeneration "t" 1 5) youngerRepository
        youngerOfTwoRepository ∧
      Isolated "a" (PstRepository.rollbackGenerationSwitch "t" 5 1) youngerRepository
        youngerOfTwoRepository ∧
      Isolated "a" (PstRepository.restoreGeneration "t" 1) youngerRepository
        youngerOfTwoRepository ∧
      (PstRepository.restoreGeneration "t" 1 youngerOfTwoRepository).isOk = true := by
  obtain ⟨hswitch,hrestore⟩ :=
    @generation_changes_isolated_iff "a" youngerRepository youngerOfTwoRepository
      youngerSource_agrees "t"
  have hfirst : youngerRepository.tables.ImportOf "a" 1 := ⟨_,List.mem_cons_self,rfl,rfl⟩
  have hsecond : youngerRepository.tables.ImportOf "a" 5 :=
    ⟨_,List.mem_cons_of_mem _ List.mem_cons_self,rfl,rfl⟩
  refine ⟨(hswitch 1 5 hfirst hsecond).1,(hswitch 5 1 hsecond hfirst).2,?_,by decide⟩
  refine (hrestore _ List.mem_cons_self rfl).mpr fun _ => ⟨?_,?_⟩
  · decide
  · intro hnone
    exact absurd (hnone _ (List.mem_cons_of_mem _ List.mem_cons_self) rfl) (by decide)

/-- With an import of another file in the database, the first generation of this one can no longer
be restored. -/
theorem restoreGeneration_not_isolated :
    AgreeOn "a" oneSourceRepository.tables twoSourcesRepository.tables ∧
      oneSourceRepository.tables.ImportOf "a" 1 ∧
      ¬ Isolated "a" (PstRepository.restoreGeneration "t" 1) oneSourceRepository
        twoSourcesRepository := by
  refine ⟨oneSource_agrees_twoSources,⟨_,List.mem_cons_self,rfl,rfl⟩,fun h => ?_⟩
  have hfails : PstRepository.restoreGeneration "t" 1 twoSourcesRepository =
      .error ⟨.database,"Could not restore PST generation"⟩ := by decide
  have hok : PstRepository.restoreGeneration "t" 1 oneSourceRepository ≠
      .error ⟨.database,"Could not restore PST generation"⟩ := by decide
  exact hok ((h.fails _).mpr hfails)

end MailDock
