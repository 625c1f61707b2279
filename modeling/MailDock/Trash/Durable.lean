import MailDock.Trash.Program

/-!
# What a purge leaves on disk

The message rows, the events and the files a purge may leave behind when it stops at any
point.  A row whose key has a purge event is either purged or is the one row whose
purge is under way; such a row still has the path its events name.  A file is gone as
soon as the last row that refers to it has its `purged` event.

## Main definitions

- `Durable` — the invariant of the disk
- `Pending` — a record that may be purged now, possibly for the second time
-/

namespace MailDock

open Relational

/-! ## Events and rows -/

/-- Ids and keys are unique, as in every valid database. -/
structure Keyed (ms : List Message) : Prop where
  id : ∀ m ∈ ms, ∀ m' ∈ ms, m.id = m'.id → m = m'
  key : ∀ m ∈ ms, ∀ m' ∈ ms, m.accountId = m'.accountId → m.sourceItemKey = m'.sourceItemKey →
    m = m'

theorem Repository.keyed (db : Repository) : Keyed db.tables.messages where
  id m hm m' hm' hid := db.valid.messageId.eq_of_key hm hm' rfl (congrArg some hid.symm)
  key m hm m' hm' haccount hkey := db.valid.messageKey.eq_of_key hm hm' rfl
    (by rw [haccount,hkey])

theorem PurgeEvent.isOf.unique {ms : List Message} (hkeyed : Keyed ms) {e : PurgeEvent}
    {m m' : Message} (hm : m ∈ ms) (hm' : m' ∈ ms) (h : e.isOf m) (h' : e.isOf m') : m = m' :=
  hkeyed.key m hm m' hm' (h.1.symm.trans h'.1) (h.2.symm.trans h'.2)

namespace Trash

/-- Some `purged` event is about the message. -/
def Completed (events : List ManifestEvent) (m : Message) : Prop :=
  ∃ e, .purged e ∈ events ∧ e.isOf m

/-- Some purge event is about the message. -/
def Started (events : List ManifestEvent) (m : Message) : Prop :=
  ∃ e, (.purgeIntent e ∈ events ∨ .purged e ∈ events) ∧ e.isOf m

theorem Completed.started {events : List ManifestEvent} {m : Message} (h : Completed events m) :
    Started events m := by
  obtain ⟨e,he,hm⟩ := h
  exact ⟨e,.inr he,hm⟩

theorem Completed.append {events : List ManifestEvent} {m : Message} (h : Completed events m)
    (after : List ManifestEvent) : Completed (events ++ after) m := by
  obtain ⟨e,he,hm⟩ := h
  exact ⟨e,List.mem_append_left _ he,hm⟩

theorem Started.append {events : List ManifestEvent} {m : Message} (h : Started events m)
    (after : List ManifestEvent) : Started (events ++ after) m := by
  obtain ⟨e,he,hm⟩ := h
  exact ⟨e,he.imp (List.mem_append_left _) (List.mem_append_left _),hm⟩

theorem completed_append_intent {events : List ManifestEvent} {i : PurgeEvent} {m : Message} :
    Completed (events ++ [.purgeIntent i]) m ↔ Completed events m := by
  simp [Completed]

theorem completed_append_purged {events : List ManifestEvent} {e : PurgeEvent} {m : Message} :
    Completed (events ++ [.purged e]) m ↔ Completed events m ∨ e.isOf m := by
  constructor
  · rintro ⟨e',he,hm⟩
    rcases List.mem_append.mp he with he | he
    · exact .inl ⟨e',he,hm⟩
    · cases List.mem_singleton.mp he
      exact .inr hm
  · rintro (h | hm)
    · exact h.append _
    · exact ⟨e,by simp,hm⟩

theorem started_append_intent {events : List ManifestEvent} {i : PurgeEvent} {m : Message} :
    Started (events ++ [.purgeIntent i]) m ↔ Started events m ∨ i.isOf m := by
  constructor
  · rintro ⟨e,he,hm⟩
    rcases he with he | he
    · rcases List.mem_append.mp he with he | he
      · exact .inl ⟨e,.inl he,hm⟩
      · cases List.mem_singleton.mp he
        exact .inr hm
    · rcases List.mem_append.mp he with he | he
      · exact .inl ⟨e,.inr he,hm⟩
      · cases List.mem_singleton.mp he
  · rintro (h | hm)
    · exact h.append _
    · exact ⟨i,by simp,hm⟩

theorem started_append_purged {events : List ManifestEvent} {e : PurgeEvent} {m : Message} :
    Started (events ++ [.purged e]) m ↔ Started events m ∨ e.isOf m := by
  constructor
  · rintro ⟨e',he,hm⟩
    rcases he with he | he
    · rcases List.mem_append.mp he with he | he
      · exact .inl ⟨e',.inl he,hm⟩
      · cases List.mem_singleton.mp he
    · rcases List.mem_append.mp he with he | he
      · exact .inl ⟨e',.inr he,hm⟩
      · cases List.mem_singleton.mp he
        exact .inr hm
  · rintro (h | hm)
    · exact h.append _
    · exact ⟨e,by simp,hm⟩

/-- The row an event is about: already purged, or in the trash with what the event names. -/
def RowOf (e : PurgeEvent) (m : Message) : Prop :=
  e.isOf m ∧ (m.localState = .purged ∨ m.localState = .trashed ∧
    m.relativePath = some e.relativePath ∧ m.fileHash = some e.fileHash)

/-! ## The invariant -/

/-- Some other row that is not purged refers to the file. -/
def SharedPath (ms : List Message) (id : Nat) (relativePath : String) : Prop :=
  ∃ m ∈ ms, m.id ≠ id ∧ m.localState ≠ .purged ∧ m.relativePath = some relativePath

structure Durable (ms : List Message) (events : List ManifestEvent)
    (files : List (String × Bytes)) : Prop where
  /-- Rows that share a file are of one account. -/
  account : ∀ m ∈ ms, ∀ m' ∈ ms, ∀ p, m.relativePath = some p → m'.relativePath = some p →
    m.accountId = m'.accountId
  row : ∀ e, (.purgeIntent e ∈ events ∨ .purged e ∈ events) → ∃ m ∈ ms, RowOf e m
  owner : ∀ e, (.purgeIntent e ∈ events ∨ .purged e ∈ events) → ∀ m ∈ ms,
    m.relativePath = some e.relativePath → m.accountId = e.accountId
  named : ∀ i, .purgeIntent i ∈ events → i.relativePath ≠ "" ∧ i.fileHash ≠ ""
  recorded : ∀ m ∈ ms, m.localState = .purged → m.relativePath = none ∧ Completed events m
  /-- At most one purge is under way. -/
  single : ∀ m ∈ ms, ∀ m' ∈ ms, m.localState ≠ .purged → m'.localState ≠ .purged →
    Started events m → Started events m' → m = m'
  /-- An intent that leaves the file alone has a reason to. -/
  shared : ∀ i, .purgeIntent i ∈ events → i.physicalDelete = false → ∀ m ∈ ms, i.isOf m →
    m.localState ≠ .purged → ¬ Completed events m → SharedPath ms m.id i.relativePath
  gone : ∀ e, .purged e ∈ events → (∀ m ∈ ms, m.localState ≠ .purged →
    m.relativePath = some e.relativePath → Completed events m) →
      files.lookup e.relativePath = none

/-- No purge is under way. -/
def Idle (ms : List Message) (events : List ManifestEvent) : Prop :=
  ∀ m ∈ ms, m.localState ≠ .purged → ¬ Started events m

/-- A record that may be purged: its row is in the trash, or was purged since it was read. -/
structure Pending (ms : List Message) (events : List ManifestEvent) (record row : Message)
    (relativePath fileHash : String) : Prop where
  mem : row ∈ ms
  id : row.id = record.id
  accountId : row.accountId = record.accountId
  sourceItemKey : row.sourceItemKey = record.sourceItemKey
  state : (row.localState = .purged ∧
      ∃ e, .purged e ∈ events ∧ e.isOf row ∧ e.relativePath = relativePath) ∨
    row.localState = .trashed ∧ row.relativePath = some relativePath ∧
      row.fileHash = some fileHash

section
variable {ms : List Message} {events : List ManifestEvent} {files : List (String × Bytes)}
  {record row : Message} {relativePath fileHash now : String} {count : Nat} {physical : Bool}

theorem Pending.isOf (h : Pending ms events record row relativePath fileHash) :
    (purgeEvent record relativePath fileHash now count physical).isOf row :=
  ⟨h.accountId.symm,h.sourceItemKey.symm⟩

theorem Pending.rowOf (h : Pending ms events record row relativePath fileHash) :
    RowOf (purgeEvent record relativePath fileHash now count physical) row := by
  refine ⟨h.isOf,?_⟩
  rcases h.state with ⟨hpurged,-⟩ | htrashed
  · exact .inl hpurged
  · exact .inr htrashed

theorem Pending.append (h : Pending ms events record row relativePath fileHash)
    (after : List ManifestEvent) :
    Pending ms (events ++ after) record row relativePath fileHash where
  mem := h.mem
  id := h.id
  accountId := h.accountId
  sourceItemKey := h.sourceItemKey
  state := by
    rcases h.state with ⟨hpurged,e,he,hm⟩ | htrashed
    · exact .inl ⟨hpurged,e,List.mem_append_left _ he,hm⟩
    · exact .inr htrashed

/-- Every row that refers to the file of the record is of its account. -/
theorem Pending.account (hpending : Pending ms events record row relativePath fileHash)
    (h : Durable ms events files) {m : Message} (hm : m ∈ ms)
    (hpath : m.relativePath = some relativePath) : m.accountId = record.accountId := by
  rcases hpending.state with ⟨-,e,he,hisOf,hp⟩ | ⟨-,hrow,-⟩
  · rw [h.owner e (.inr he) m hm (by rw [hp,hpath]),hisOf.1,hpending.accountId]
  · rw [h.account m hm row hpending.mem relativePath hpath hrow,hpending.accountId]

theorem Pending.path_eq (hpending : Pending ms events record row relativePath fileHash)
    (h : Durable ms events files) {p : String} (hpath : row.relativePath = some p) :
    p = relativePath := by
  rcases hpending.state with ⟨hpurged,-⟩ | ⟨-,hrow,-⟩
  · rw [(h.recorded row hpending.mem hpurged).1] at hpath
    cases hpath
  · exact Option.some.inj (hpath.symm.trans hrow)

/-- The rows of a database, where no purge is under way, after one is announced. -/
theorem Durable.announce (h : Durable ms events files) (hkeyed : Keyed ms) (hidle : Idle ms events)
    (hpending : Pending ms events record row relativePath fileHash)
    (hnamed : relativePath ≠ "" ∧ fileHash ≠ "") (hshared : physical = false → SharedPath ms record.id relativePath) :
    Durable ms (events ++ [.purgeIntent (purgeEvent record relativePath fileHash now count
      physical)]) files where
  account := h.account
  row := by
    rintro e (he | he)
    · rcases List.mem_append.mp he with he | he
      · exact h.row e (.inl he)
      · cases List.mem_singleton.mp he
        exact ⟨row,hpending.mem,hpending.rowOf⟩
    · rcases List.mem_append.mp he with he | he
      · exact h.row e (.inr he)
      · cases List.mem_singleton.mp he
  owner := by
    rintro e (he | he) m hm hpath
    · rcases List.mem_append.mp he with he | he
      · exact h.owner e (.inl he) m hm hpath
      · cases List.mem_singleton.mp he
        exact hpending.account h hm hpath
    · rcases List.mem_append.mp he with he | he
      · exact h.owner e (.inr he) m hm hpath
      · cases List.mem_singleton.mp he
  named := by
    intro i hi
    rcases List.mem_append.mp hi with hi | hi
    · exact h.named i hi
    · cases List.mem_singleton.mp hi
      exact hnamed
  recorded m hm hpurged := ⟨(h.recorded m hm hpurged).1,(h.recorded m hm hpurged).2.append _⟩
  single := by
    intro m hm m' hm' hstate hstate' hstarted hstarted'
    have hm := (started_append_intent.mp hstarted).resolve_left (hidle m hm hstate)
    have hm' := (started_append_intent.mp hstarted').resolve_left (hidle m' hm' hstate')
    exact PurgeEvent.isOf.unique hkeyed ‹m ∈ ms› ‹m' ∈ ms› hm hm'
  shared := by
    intro i hi hphysical m hm hisOf hstate hcompleted
    rcases List.mem_append.mp hi with hi | hi
    · exact absurd ⟨i,.inl hi,hisOf⟩ (hidle m hm hstate)
    · cases List.mem_singleton.mp hi
      rw [hisOf.unique hkeyed hm hpending.mem hpending.isOf,hpending.id]
      exact hshared hphysical
  gone := by
    intro e he hall
    rcases List.mem_append.mp he with he | he
    · refine h.gone e he fun m hm hstate hpath => ?_
      exact completed_append_intent.mp (hall m hm hstate hpath)
    · cases List.mem_singleton.mp he

theorem lookup_filter_ne {p q : String} (hnone : files.lookup p = none) :
    (files.filter fun f => f.1 != q).lookup p = none := by
  rw [List.lookup_eq_none_iff] at hnone ⊢
  exact fun f hf => hnone f (List.mem_of_mem_filter hf)

theorem lookup_filter_self (q : String) : (files.filter fun f => f.1 != q).lookup q = none := by
  rw [List.lookup_eq_none_iff]
  intro f hf
  have hne : (f.1 != q) = true := (List.mem_filter.mp hf).2
  simp only [bne_iff_ne] at hne
  simpa using Ne.symm hne

/-- Deleting a file never brings one back. -/
theorem Durable.unlink (h : Durable ms events files) (q : String) :
    Durable ms events (files.filter fun f => f.1 != q) where
  account := h.account
  row := h.row
  owner := h.owner
  named := h.named
  recorded := h.recorded
  single := h.single
  shared := h.shared
  gone e he hall := lookup_filter_ne (h.gone e he hall)

/-- The `purged` event of a record whose file is gone or still has another referrer. -/
theorem Durable.complete (h : Durable ms events files) (hkeyed : Keyed ms)
    (hpending : Pending ms events record row relativePath fileHash)
    (hstarted : row.localState ≠ .purged → Started events row)
    (hfile : files.lookup relativePath = none ∨ SharedPath ms record.id relativePath) :
    Durable ms (events ++ [.purged (purgeEvent record relativePath fileHash now count physical)])
      files where
  account := h.account
  row := by
    rintro e (he | he)
    · rcases List.mem_append.mp he with he | he
      · exact h.row e (.inl he)
      · cases List.mem_singleton.mp he
    · rcases List.mem_append.mp he with he | he
      · exact h.row e (.inr he)
      · cases List.mem_singleton.mp he
        exact ⟨row,hpending.mem,hpending.rowOf⟩
  owner := by
    rintro e (he | he) m hm hpath
    · rcases List.mem_append.mp he with he | he
      · exact h.owner e (.inl he) m hm hpath
      · cases List.mem_singleton.mp he
    · rcases List.mem_append.mp he with he | he
      · exact h.owner e (.inr he) m hm hpath
      · cases List.mem_singleton.mp he
        exact hpending.account h hm hpath
  named := by
    intro i hi
    rcases List.mem_append.mp hi with hi | hi
    · exact h.named i hi
    · cases List.mem_singleton.mp hi
  recorded m hm hpurged := ⟨(h.recorded m hm hpurged).1,(h.recorded m hm hpurged).2.append _⟩
  single := by
    have hbefore : ∀ m ∈ ms, m.localState ≠ .purged → Started (events ++ [.purged (purgeEvent record
        relativePath fileHash now count physical)]) m → Started events m := by
      intro m hm hstate hm'
      rcases started_append_purged.mp hm' with hm' | hisOf
      · exact hm'
      · rw [hisOf.unique hkeyed hm hpending.mem hpending.isOf] at hstate ⊢
        exact hstarted hstate
    intro m hm m' hm' hstate hstate' hs hs'
    exact h.single m hm m' hm' hstate hstate' (hbefore m hm hstate hs) (hbefore m' hm' hstate' hs')
  shared := by
    intro i hi hphysical m hm hisOf hstate hcompleted
    rcases List.mem_append.mp hi with hi | hi
    · refine h.shared i hi hphysical m hm hisOf hstate fun hc => ?_
      exact hcompleted (hc.append _)
    · cases List.mem_singleton.mp hi
  gone := by
    intro e he hall
    have hothers : ∀ m ∈ ms, m.localState ≠ .purged → m.relativePath = some e.relativePath →
        m ≠ row → Completed events m := by
      intro m hm hstate hpath hne
      refine (completed_append_purged.mp (hall m hm hstate hpath)).resolve_right fun hisOf => ?_
      exact hne (hisOf.unique hkeyed hm hpending.mem hpending.isOf)
    by_cases hp : e.relativePath = relativePath
    · rcases hfile with hgone | ⟨m,hm,hid,hstate,hpath⟩
      · rw [hp]
        exact hgone
      · have hne : m ≠ row := fun heq => hid (heq ▸ hpending.id)
        have hm' : Completed events m := hothers m hm hstate (hp ▸ hpath) hne
        rcases hpending.state with ⟨hpurged,e',he',-,hp'⟩ | ⟨htrashed,-⟩
        · -- the record was purged before, and its first event speaks about the same file
          rw [hp,← hp']
          refine h.gone e' he' fun m hm hstate hpath => ?_
          exact hothers m hm hstate (by rw [hpath,hp',hp]) fun heq => hstate (heq ▸ hpurged)
        · -- two purges would be under way
          have hrow : row.localState ≠ .purged := by rw [htrashed]; decide
          exact absurd (h.single m hm row hpending.mem hstate hrow hm'.started (hstarted hrow)) hne
    · have he' : .purged e ∈ events := by
        refine (List.mem_append.mp he).resolve_right fun he => hp ?_
        cases List.mem_singleton.mp he
        rfl
      refine h.gone e he' fun m hm hstate hpath => hothers m hm hstate hpath ?_
      rintro rfl
      rcases hpending.state with ⟨hpurged,-⟩ | ⟨-,hrow,-⟩
      · exact hstate hpurged
      · exact hp (Option.some.inj (hpath.symm.trans hrow))

/-! ## Changes of the rows -/

/-- The row of a message after `_finish_purge_database`. -/
def purgedRow (m : Message) : Message :=
  { m with localState := .purged, trashedAt := none, relativePath := none, fileHash := none }

/-- Purging a row whose `purged` event is there. -/
theorem Durable.finish (h : Durable ms events files) (hkeyed : Keyed ms) (hrow : row ∈ ms)
    (hcompleted : Completed events row) :
    Durable (update (fun m => m.id == row.id) purgedRow ms) events files := by
  have hcases : ∀ {m}, m ∈ update (fun m => m.id == row.id) purgedRow ms →
      m ∈ ms ∧ m.id ≠ row.id ∨ m = purgedRow row := by
    intro m hm
    rcases mem_update.mp hm with ⟨hm,hid⟩ | ⟨a,ha,hid,rfl⟩
    · exact .inl ⟨hm,by simpa using hid⟩
    · rw [hkeyed.id a ha row hrow (by simpa using hid)]
      exact .inr rfl
  have hmem : ∀ {m}, m ∈ ms → m.id ≠ row.id →
      m ∈ update (fun m => m.id == row.id) purgedRow ms := by
    intro m hm hid
    exact mem_update.mpr (.inl ⟨hm,by simpa using hid⟩)
  have hpurged : purgedRow row ∈ update (fun m => m.id == row.id) purgedRow ms :=
    mem_update.mpr (.inr ⟨row,hrow,by simp,rfl⟩)
  have halive : ∀ {m}, m ∈ update (fun m => m.id == row.id) purgedRow ms →
      m.localState ≠ .purged → m ∈ ms ∧ m.id ≠ row.id := by
    intro m hm hstate
    refine (hcases hm).resolve_right ?_
    rintro rfl
    exact hstate rfl
  exact
  { account := by
      intro m hm m' hm' p hp hp'
      rcases hcases hm with ⟨hm,-⟩ | rfl
      · rcases hcases hm' with ⟨hm',-⟩ | rfl
        · exact h.account m hm m' hm' p hp hp'
        · cases hp'
      · cases hp
    row := by
      intro e he
      obtain ⟨m,hm,hisOf,hstate⟩ := h.row e he
      by_cases hid : m.id = row.id
      · cases hkeyed.id m hm row hrow hid
        exact ⟨purgedRow row,hpurged,hisOf,.inl rfl⟩
      · exact ⟨m,hmem hm hid,hisOf,hstate⟩
    owner := by
      intro e he m hm hpath
      rcases hcases hm with ⟨hm,-⟩ | rfl
      · exact h.owner e he m hm hpath
      · cases hpath
    named := h.named
    recorded := by
      intro m hm hstate
      rcases hcases hm with ⟨hm,-⟩ | rfl
      · exact h.recorded m hm hstate
      · exact ⟨rfl,hcompleted⟩
    single := by
      intro m hm m' hm' hstate hstate' hs hs'
      exact h.single m (halive hm hstate).1 m' (halive hm' hstate').1 hstate hstate' hs hs'
    shared := by
      intro i hi hphysical m hm hisOf hstate hnot
      obtain ⟨hm,hid⟩ := halive hm hstate
      obtain ⟨m',hm',hid',hstate',hpath⟩ := h.shared i hi hphysical m hm hisOf hstate hnot
      refine ⟨m',hmem hm' fun heq => ?_,hid',hstate',hpath⟩
      -- the purged row and this one would both be under way
      cases hkeyed.id m' hm' row hrow heq
      exact hid (congrArg Message.id (h.single m hm row hm' hstate hstate' ⟨i,.inl hi,hisOf⟩
        hcompleted.started))
    gone := by
      intro e he hall
      refine h.gone e he fun m hm hstate hpath => ?_
      by_cases hid : m.id = row.id
      · cases hkeyed.id m hm row hrow hid
        exact hcompleted
      · exact hall m (hmem hm hid) hstate hpath }

/-- The local state of a row that is not purged changes, while no purge is under way. -/
theorem Durable.relabel (h : Durable ms events files) (hkeyed : Keyed ms) (hidle : Idle ms events)
    (hrow : row ∈ ms) (hstate : row.localState ≠ .purged) {state : LocalState}
    (hnew : state ≠ .purged) (trashedAt : Option String) :
    Durable (update (fun m => m.id == row.id)
        (fun m => { m with localState := state, trashedAt := trashedAt }) ms) events files ∧
      Idle (update (fun m => m.id == row.id)
        (fun m => { m with localState := state, trashedAt := trashedAt }) ms) events := by
  have hcases : ∀ {m}, m ∈ update (fun m => m.id == row.id)
        (fun m => { m with localState := state, trashedAt := trashedAt }) ms →
      m ∈ ms ∧ m.id ≠ row.id ∨ m = { row with localState := state, trashedAt := trashedAt } := by
    intro m hm
    rcases mem_update.mp hm with ⟨hm,hid⟩ | ⟨a,ha,hid,rfl⟩
    · exact .inl ⟨hm,by simpa using hid⟩
    · rw [hkeyed.id a ha row hrow (by simpa using hid)]
      exact .inr rfl
  have hmem : ∀ {m}, m ∈ ms → m.id ≠ row.id → m ∈ update (fun m => m.id == row.id)
      (fun m => { m with localState := state, trashedAt := trashedAt }) ms := by
    intro m hm hid
    exact mem_update.mpr (.inl ⟨hm,by simpa using hid⟩)
  have hlabelled : { row with localState := state, trashedAt := trashedAt } ∈
      update (fun m => m.id == row.id)
        (fun m => { m with localState := state, trashedAt := trashedAt }) ms :=
    mem_update.mpr (.inr ⟨row,hrow,by simp,rfl⟩)
  -- every row of the new table comes from a row with the same path and account
  have hold : ∀ {m}, m ∈ update (fun m => m.id == row.id)
        (fun m => { m with localState := state, trashedAt := trashedAt }) ms →
      ∃ a ∈ ms, a.relativePath = m.relativePath ∧ a.accountId = m.accountId := by
    intro m hm
    rcases hcases hm with ⟨hm,-⟩ | rfl
    · exact ⟨m,hm,rfl,rfl⟩
    · exact ⟨row,hrow,rfl,rfl⟩
  have hidle' : Idle (update (fun m => m.id == row.id)
      (fun m => { m with localState := state, trashedAt := trashedAt }) ms) events := by
    intro m hm hm' hstarted
    rcases hcases hm with ⟨hm,-⟩ | rfl
    · exact hidle m hm hm' hstarted
    · exact hidle row hrow hstate hstarted
  refine ⟨?_,hidle'⟩
  exact
  { account := by
      intro m hm m' hm' p hp hp'
      obtain ⟨a,ha,hpa,haccount⟩ := hold hm
      obtain ⟨a',ha',hpa',haccount'⟩ := hold hm'
      rw [← haccount,← haccount']
      exact h.account a ha a' ha' p (hpa.trans hp) (hpa'.trans hp')
    row := by
      intro e he
      obtain ⟨m,hm,hrowOf⟩ := h.row e he
      refine ⟨m,hmem hm fun hid => ?_,hrowOf⟩
      cases hkeyed.id m hm row hrow hid
      exact hidle row hrow hstate ⟨e,he,hrowOf.1⟩
    owner := by
      intro e he m hm hpath
      obtain ⟨a,ha,hpa,haccount⟩ := hold hm
      rw [← haccount]
      exact h.owner e he a ha (hpa.trans hpath)
    named := h.named
    recorded := by
      intro m hm hpurged
      rcases hcases hm with ⟨hm,-⟩ | rfl
      · exact h.recorded m hm hpurged
      · exact absurd hpurged hnew
    single := fun m hm m' _ hm' _ hs _ => absurd hs (hidle' m hm hm')
    shared := fun i hi _ m hm hisOf hm' _ => absurd ⟨i,.inl hi,hisOf⟩ (hidle' m hm hm')
    gone := by
      intro e he hall
      refine h.gone e he fun m hm hm' hpath => ?_
      by_cases hid : m.id = row.id
      · cases hkeyed.id m hm row hrow hid
        obtain ⟨e',he',hisOf⟩ := hall _ hlabelled hnew hpath
        exact ⟨e',he',hisOf⟩
      · exact hall m (hmem hm hid) hm' hpath }

end

end Trash

end MailDock
