import MailDock.Trash.Crash

/-!
# One purge

What `_finish_purge_database` and `_complete_purge` do to a durable disk.  A purge only
touches the row of its message: every other row that is not purged stays as it is, and
a record that could be purged before still can be.

## Main definitions

- `Progress` — what is left of the rows and events of an earlier point
-/

namespace MailDock.Trash

open Hoare Relational

/-! ## Rows after a purge -/

/-- Rows are only purged, and a purge started since then is finished. -/
structure Progress (ms : List Message) (events : List ManifestEvent) (ms' : List Message)
    (events' : List ManifestEvent) : Prop where
  alive : ∀ m ∈ ms', m.localState ≠ .purged → m ∈ ms ∧ (Started events' m → Started events m) ∧
    (Completed events' m → Completed events m)
  mono : ∀ e ∈ events, e ∈ events'
  pending : ∀ record row relativePath fileHash, Pending ms events record row relativePath fileHash →
    ∃ row', Pending ms' events' record row' relativePath fileHash

section
variable {ms ms' ms'' : List Message} {events events' events'' : List ManifestEvent} {row : Message}

theorem Progress.refl (ms : List Message) (events : List ManifestEvent) :
    Progress ms events ms events where
  alive _ hm _ := ⟨hm,id,id⟩
  mono _ he := he
  pending _ row _ _ h := ⟨row,h⟩

theorem Progress.trans (h : Progress ms events ms' events') (h' : Progress ms' events' ms'' events'') :
    Progress ms events ms'' events'' where
  alive := by
    intro m hm hstate
    obtain ⟨hm',hstarted',hcompleted'⟩ := h'.alive m hm hstate
    obtain ⟨hm,hstarted,hcompleted⟩ := h.alive m hm' hstate
    exact ⟨hm,fun hs => hstarted (hstarted' hs),fun hc => hcompleted (hcompleted' hc)⟩
  mono e he := h'.mono e (h.mono e he)
  pending := by
    intro record row relativePath fileHash hpending
    obtain ⟨row',hpending'⟩ := h.pending record row relativePath fileHash hpending
    exact h'.pending record row' relativePath fileHash hpending'

theorem Progress.idle (h : Progress ms events ms' events') (hidle : Idle ms events) :
    Idle ms' events' := by
  intro m hm hstate hstarted
  obtain ⟨hm',hbefore,-⟩ := h.alive m hm hstate
  exact hidle m hm' hstate (hbefore hstarted)

/-- A purged row stays purged. -/
theorem Progress.purged (h : Progress ms events ms' events') {p : Message → Prop}
    (hp : ∀ m ∈ ms, p m → m.localState = .purged) : ∀ m ∈ ms', p m → m.localState = .purged := by
  intro m hm hpm
  by_contra hstate
  exact hstate (hp m (h.alive m hm hstate).1 hpm)

theorem mem_update_purgedRow (hkeyed : Keyed ms) (hrow : row ∈ ms) {m : Message}
    (hm : m ∈ update (fun m => m.id == row.id) purgedRow ms) :
    m ∈ ms ∧ m.id ≠ row.id ∨ m = purgedRow row := by
  rcases mem_update.mp hm with ⟨hm,hid⟩ | ⟨a,ha,hid,rfl⟩
  · exact .inl ⟨hm,by simpa using hid⟩
  · rw [hkeyed.id a ha row hrow (by simpa using hid)]
    exact .inr rfl

/-- The row of the message is purged, and all new events are about it. -/
theorem Progress.finish (hkeyed : Keyed ms) (hrow : row ∈ ms) {new : List ManifestEvent}
    (hnew : ∀ e, (.purgeIntent e ∈ new ∨ .purged e ∈ new) → e.isOf row)
    (hevent : ∀ p, row.relativePath = some p →
      ∃ e, .purged e ∈ events ++ new ∧ e.isOf row ∧ e.relativePath = p) :
    Progress ms events (update (fun m => m.id == row.id) purgedRow ms) (events ++ new) where
  alive := by
    intro m hm hstate
    rcases mem_update_purgedRow hkeyed hrow hm with ⟨hm,hid⟩ | rfl
    · -- no new event is about another row
      have hnot : ∀ e : PurgeEvent, e.isOf m → ¬ (.purgeIntent e ∈ new ∨ .purged e ∈ new) :=
        fun e hisOf h => hid (congrArg Message.id (hisOf.unique hkeyed hm hrow (hnew e h)))
      refine ⟨hm,?_,?_⟩
      · rintro ⟨e,he | he,hisOf⟩
        · exact ⟨e,.inl ((List.mem_append.mp he).resolve_right fun h => hnot e hisOf (.inl h)),hisOf⟩
        · exact ⟨e,.inr ((List.mem_append.mp he).resolve_right fun h => hnot e hisOf (.inr h)),hisOf⟩
      · rintro ⟨e,he,hisOf⟩
        exact ⟨e,(List.mem_append.mp he).resolve_right fun h => hnot e hisOf (.inr h),hisOf⟩
    · exact absurd rfl hstate
  mono _ he := List.mem_append_left _ he
  pending := by
    intro record row' relativePath fileHash hpending
    by_cases hid : row'.id = row.id
    · -- the record is about the purged row
      cases hkeyed.id row' hpending.mem row hrow hid
      refine ⟨purgedRow row,mem_update.mpr (.inr ⟨row,hrow,by simp,rfl⟩),hpending.id,
        hpending.accountId,hpending.sourceItemKey,.inl ⟨rfl,?_⟩⟩
      rcases hpending.state with ⟨-,e,he,hisOf,hpath⟩ | ⟨-,hpath,-⟩
      · exact ⟨e,List.mem_append_left _ he,hisOf,hpath⟩
      · obtain ⟨e,he,hisOf,hp⟩ := hevent relativePath hpath
        exact ⟨e,he,hisOf,hp⟩
    · have hmem : row' ∈ update (fun m => m.id == row.id) purgedRow ms :=
        mem_update.mpr (.inl ⟨hpending.mem,by simpa using hid⟩)
      exact ⟨row',hmem,hpending.id,hpending.accountId,hpending.sourceItemKey,
        (hpending.append new).state⟩

end

/-! ## The database -/

section
variable {d : Disk} {env : Env} {db : Repository} {events : List ManifestEvent}
  {files : List (String × Bytes)} {record row : Message} {relativePath fileHash now : String}
  {count : Nat} {physical : Bool}

/-- The two statements that change the row, as one. -/
theorem update_purgedRow (id : Nat) (ms : List Message) :
    update (fun m => m.id == id) (fun m => { m with localState := .purged, trashedAt := none })
      (update (fun m => m.id == id) (fun m => { m with relativePath := none, fileHash := none }) ms) =
    update (fun m => m.id == id) purgedRow ms := by
  unfold update
  rw [List.map_map]
  refine List.map_congr_left fun m _ => ?_
  by_cases hid : m.id = id
  · simp [hid,purgedRow]
  · simp [hid]

/-- The writes of the batch leave the other rows alone. -/
theorem finishPurgeDatabase_rule (hrow : row ∈ db.tables.messages) (hid : row.id = record.id)
    (hcompleted : Completed events row) :
    Triple (At d db events files) (finishPurgeDatabase env record physical)
      (fun _ w => ∃ db', db'.tables.messages =
          update (fun m => m.id == row.id) purgedRow db.tables.messages ∧ At d db' events files w)
      fun _ => Stopped d := by
  intro w hat
  have hdurable := hat.disk_durable.finish db.keyed hrow hcompleted
  refine (At.begin_rule.seq fun _ => InBatch.write_rule.seq fun _ => ?_) w hat
  rintro w ⟨db₁,hop₁,h₁⟩
  refine (InBatch.write_rule.seq fun _ => ?_) w h₁
  rintro w ⟨db₂,hop₂,h₂⟩
  refine (InBatch.write_rule.seq fun _ => ?_) w h₂
  rintro w ⟨db₃,hop₃,h₃⟩
  have hmessages₁ : db₁.tables.messages = db.tables.messages := by
    rw [Repository.exec_eq_ok.mp hop₁]
    rfl
  have hmessages₂ : db₂.tables.messages = update (fun m => m.id == record.id)
      (fun m => { m with relativePath := none, fileHash := none }) db.tables.messages := by
    rw [Repository.exec_eq_ok.mp hop₂,← hmessages₁]
    rfl
  have hmessages₃ : db₃.tables.messages =
      update (fun m => m.id == row.id) purgedRow db.tables.messages := by
    rw [Repository.exec_eq_ok.mp hop₃,hid,← update_purgedRow,← hmessages₂]
    rfl
  rw [← hmessages₃] at hdurable
  refine (InBatch.query_rule.seq fun audited => ?_) w h₃
  split
  · refine (InBatch.commit_rule hdurable).strengthen_post fun _ w h => ⟨db₃,hmessages₃,h⟩
  · refine InBatch.timestamp_rule.seq fun now => InBatch.write_rule.seq fun _ => ?_
    rintro w ⟨db₄,hop₄,h₄⟩
    have hmessages₄ : db₄.tables.messages = db₃.tables.messages := by
      rw [Repository.exec_eq_ok.mp hop₄]
      rfl
    rw [← hmessages₄] at hdurable
    refine ((InBatch.commit_rule hdurable).strengthen_post fun _ w h => ?_) w h₄
    exact ⟨db₄,hmessages₄.trans hmessages₃,h⟩

/-! ## The whole purge -/

/-- What a purge needs before it deletes anything: an intent on disk, and a decision about the
file that fits the rows. -/
structure Announced (ms : List Message) (events : List ManifestEvent)
    (files : List (String × Bytes)) (record row : Message) (relativePath fileHash : String)
    (physical : Bool) : Prop where
  pending : Pending ms events record row relativePath fileHash
  intent : ∃ i, .purgeIntent i ∈ events ∧ i.isOf row ∧ i.relativePath = relativePath
  alone : physical = true → ¬ SharedPath ms record.id relativePath
  kept : physical = false → SharedPath ms record.id relativePath ∨
    files.lookup relativePath = none

/-- Nobody but the purged row refers to the file. -/
theorem Announced.guard (h : Announced db.tables.messages events files record row relativePath
    fileHash physical) (hphysical : physical = true) {m : Message} (hm : m ∈ db.tables.messages)
    (hpath : m.relativePath = some relativePath) : m.localState = .purged ∨
      ∃ i, .purgeIntent i ∈ events ∧ i.isOf m ∧ i.relativePath = relativePath := by
  by_cases hid : m.id = record.id
  · rw [db.keyed.id m hm row h.pending.mem (hid.trans h.pending.id.symm)]
    exact .inr h.intent
  · by_contra hnot
    exact h.alone hphysical ⟨m,hm,hid,fun hpurged => hnot (.inl hpurged),hpath⟩

/-- The first step of `executePurge`, after which the file is gone or still referred to. -/
theorem deleteFile_rule (h : Announced db.tables.messages events files record row relativePath
    fileHash physical) :
    Triple (At d db events files)
      (if physical then do
          let found ← existsEml env relativePath
          if found then do
            deleteEml env relativePath
            pure true
          else pure false
        else pure false : App Bool)
      (fun _ w => ∃ files', (files'.lookup relativePath = none ∨
        SharedPath db.tables.messages record.id relativePath) ∧ At d db events files' w)
      fun _ => Stopped d := by
  split
  · next hphysical =>
    refine At.exists_rule.seq fun found => ?_
    split
    · refine Triple.seq (Q := fun _ => At d db events (files.filter fun f => f.1 != relativePath)) ?_
        fun _ => Triple.ret fun w hw => ⟨_,.inl (lookup_filter_self relativePath),hw⟩
      exact (At.delete_rule fun m hm hpath => h.guard hphysical hm hpath).weaken_pre
        fun w hw => hw.1
    · next hfound =>
      refine Triple.ret ?_
      rintro w ⟨hw,rfl⟩
      exact ⟨files,.inl (Option.not_isSome_iff_eq_none.mp hfound),hw⟩
  · next hphysical =>
    refine Triple.ret fun w hw => ⟨files,?_,hw⟩
    exact (h.kept (by simpa using hphysical)).symm

theorem executePurge_rule (h : Announced db.tables.messages events files record row relativePath
    fileHash physical) :
    Triple (At d db events files)
      (executePurge env record relativePath fileHash now count physical)
      (fun _ w => ∃ db' files', db'.tables.messages =
          update (fun m => m.id == row.id) purgedRow db.tables.messages ∧
        At d db' (events ++ [.purged (purgeEvent record relativePath fileHash now count physical)])
          files' w) fun _ => Stopped d := by
  refine (deleteFile_rule h).seq fun deleted => ?_
  rintro w ⟨files',hfile,hat⟩
  have hstarted : row.localState ≠ .purged → Started events row := by
    intro _
    obtain ⟨i,hi,hisOf,-⟩ := h.intent
    exact ⟨i,.inl hi,hisOf⟩
  have hdurable : Durable db.tables.messages (events ++ [.purged (purgeEvent record relativePath
      fileHash now count physical)]) files' :=
    hat.disk_durable.complete db.keyed h.pending hstarted hfile
  have hcompleted : Completed (events ++ [.purged (purgeEvent record relativePath fileHash now count
      physical)]) row := completed_append_purged.mpr (.inr h.pending.isOf)
  refine At.record_rule hdurable ?_ w hat
  refine (finishPurgeDatabase_rule h.pending.mem h.pending.id hcompleted).seq fun _ => Triple.ret ?_
  rintro w ⟨db',hmessages,hat'⟩
  exact ⟨db',files',hmessages,hat'⟩

/-- The count decides whether others refer to the file. -/
theorem countPathReferences_eq_zero_iff
    (hpending : Pending db.tables.messages events record row relativePath fileHash)
    (hdurable : Durable db.tables.messages events files) :
    db.tables.countPathReferences record.accountId relativePath record.id = 0 ↔
      ¬ SharedPath db.tables.messages record.id relativePath := by
  unfold Tables.countPathReferences
  rw [List.countP_eq_zero]
  constructor
  · rintro h ⟨m,hm,hid,hstate,hpath⟩
    refine h m hm ?_
    simp [hpending.account hdurable hm hpath,hpath,hid,hstate]
  · intro h m hm hcounted
    simp only [Bool.and_eq_true,beq_iff_eq,bne_iff_ne] at hcounted
    obtain ⟨⟨⟨-,hpath⟩,hid⟩,hstate⟩ := hcounted
    exact h ⟨m,hm,hid,hstate,hpath⟩

/-- A purge from a point where none is under way. -/
theorem completePurge_rule (hidle : Idle db.tables.messages events)
    (hpending : Pending db.tables.messages events record row relativePath fileHash)
    (hpath : record.relativePath = some relativePath) (hhash : record.fileHash = some fileHash) :
    Triple (At d db events files) (completePurge env record now none true)
      (fun _ w => ∃ db' events' files', At d db' events' files' w ∧
        Progress db.tables.messages events db'.tables.messages events') fun _ => Stopped d := by
  unfold completePurge
  rw [hpath,hhash]
  dsimp only
  split
  · exact Triple.ret fun w hw => ⟨db,events,files,hw,Progress.refl _ _⟩
  · next hnamed =>
    rw [not_or] at hnamed
    refine At.query_rule.seq fun n => ?_
    rw [if_pos rfl]
    rintro w ⟨hat,rfl⟩
    have hcount := countPathReferences_eq_zero_iff hpending hat.disk_durable
    have hkept : (db.tables.countPathReferences record.accountId relativePath record.id == 0 &&
        none.getD true) = false → SharedPath db.tables.messages record.id relativePath := by
      intro hphysical
      have hne : db.tables.countPathReferences record.accountId relativePath record.id ≠ 0 := by
        simpa using hphysical
      exact not_not.mp fun hnot => hne (hcount.mpr hnot)
    refine At.record_rule (hat.disk_durable.announce db.keyed hidle hpending hnamed hkept) ?_ w hat
    have hannounced : Announced db.tables.messages (events ++ [.purgeIntent (purgeEvent record
        relativePath fileHash now (db.tables.countPathReferences record.accountId relativePath
          record.id) (db.tables.countPathReferences record.accountId relativePath record.id == 0 &&
            none.getD true))]) files record row relativePath fileHash
        (db.tables.countPathReferences record.accountId relativePath record.id == 0 &&
          none.getD true) :=
      ⟨hpending.append _,⟨_,List.mem_append_right _ (List.mem_singleton_self _),hpending.isOf,rfl⟩,
        fun hphysical => hcount.mp (by simpa using hphysical),
        fun hphysical => .inl (hkept hphysical)⟩
    refine (executePurge_rule hannounced).seq fun deleted => Triple.ret ?_
    · rintro w ⟨db',files',hmessages,hat'⟩
      refine ⟨db',_,files',hat',?_⟩
      rw [hmessages,List.append_assoc]
      refine Progress.finish db.keyed hpending.mem ?_ ?_
      · rintro e (he | he)
        · simp only [List.cons_append,List.nil_append,List.mem_cons,List.not_mem_nil,or_false,
            ManifestEvent.purgeIntent.injEq,reduceCtorEq] at he
          rw [he]
          exact hpending.isOf
        · simp only [List.cons_append,List.nil_append,List.mem_cons,List.not_mem_nil,or_false,
            ManifestEvent.purged.injEq,reduceCtorEq,false_or] at he
          rw [he]
          exact hpending.isOf
      · intro p hp
        exact ⟨_,List.mem_append_right _ (List.mem_append_right _ (List.mem_singleton_self _)),
          hpending.isOf,(hpending.path_eq hat.disk_durable hp).symm⟩

/-- The decision of a recovered purge fits the rows, whatever its intent had planned. -/
theorem recovered_kept {i : PurgeEvent} (hdurable : Durable db.tables.messages events files)
    (hi : .purgeIntent i ∈ events) (hisOf : i.isOf row)
    (hpending : Pending db.tables.messages events record row i.relativePath i.fileHash)
    (hopen : row.localState ≠ .purged → ¬ Completed events row)
    (hphysical : (db.tables.countPathReferences record.accountId i.relativePath record.id == 0 &&
      i.physicalDelete) = false) :
    SharedPath db.tables.messages record.id i.relativePath ∨
      files.lookup i.relativePath = none := by
  by_contra hnot
  rw [not_or] at hnot
  have hcount := (countPathReferences_eq_zero_iff hpending hdurable).mpr hnot.1
  have hplanned : i.physicalDelete = false := by simpa [hcount] using hphysical
  by_cases hstate : row.localState = .purged
  · -- purged before: the file went with the last of its referrers
    obtain ⟨-,e,he,-,hp⟩ := hpending.state.resolve_right fun h => by rw [hstate] at h; cases h.1
    refine hnot.2 (hp ▸ hdurable.gone e he fun m hm hm' hpath => ?_)
    refine absurd ⟨m,hm,fun hid => hm' ?_,hm',hp ▸ hpath⟩ hnot.1
    rw [db.keyed.id m hm row hpending.mem (hid.trans hpending.id.symm),hstate]
  · have hshared := hdurable.shared i hi hplanned row hpending.mem hisOf hstate (hopen hstate)
    rw [hpending.id] at hshared
    exact hnot.1 hshared

/-- A purge that is taken up again. -/
theorem resumePurge_rule {i : PurgeEvent} (hi : .purgeIntent i ∈ events) (hisOf : i.isOf row)
    (hpending : Pending db.tables.messages events record row i.relativePath i.fileHash)
    (hpath : record.relativePath = some i.relativePath) (hhash : record.fileHash = some i.fileHash)
    (hopen : row.localState ≠ .purged → ¬ Completed events row) :
    Triple (At d db events files) (completePurge env record now (some i.physicalDelete) false)
      (fun _ w => ∃ db' events' files', At d db' events' files' w ∧
        Progress db.tables.messages events db'.tables.messages events' ∧
        ∀ m ∈ db'.tables.messages, i.isOf m → m.localState = .purged) fun _ => Stopped d := by
  unfold completePurge
  rw [hpath,hhash]
  dsimp only
  intro w hat
  have hnamed := hat.disk_durable.named i hi
  rw [if_neg (not_or.mpr hnamed)]
  refine (At.query_rule.seq fun n => ?_) w hat
  rw [if_neg (show ¬ false = true from Bool.false_ne_true)]
  rintro w ⟨hat,rfl⟩
  have hcount := countPathReferences_eq_zero_iff hpending hat.disk_durable
  have hannounced : Announced db.tables.messages events files record row i.relativePath i.fileHash
      (db.tables.countPathReferences record.accountId i.relativePath record.id == 0 &&
        i.physicalDelete) := by
    refine ⟨hpending,⟨i,hi,hisOf,rfl⟩,fun hphysical => ?_,
      recovered_kept hat.disk_durable hi hisOf hpending hopen⟩
    simp only [Bool.and_eq_true,beq_iff_eq] at hphysical
    exact hcount.mp hphysical.1
  refine ((executePurge_rule hannounced).seq fun deleted => Triple.ret ?_) w hat
  · rintro w ⟨db',files',hmessages,hat'⟩
    refine ⟨db',_,files',hat',?_,?_⟩
    · rw [hmessages]
      refine Progress.finish db.keyed hpending.mem ?_ ?_
      · rintro e (he | he)
        · cases List.mem_singleton.mp he
        · cases List.mem_singleton.mp he
          exact hpending.isOf
      · intro p hp
        exact ⟨_,List.mem_append_right _ (List.mem_singleton_self _),hpending.isOf,
          (hpending.path_eq hat.disk_durable hp).symm⟩
    · intro m hm hm'
      rw [hmessages] at hm
      rcases mem_update_purgedRow db.keyed hpending.mem hm with ⟨hm,hid⟩ | rfl
      · exact absurd (congrArg Message.id (hm'.unique db.keyed hm hpending.mem hisOf)) hid
      · rfl

end

end MailDock.Trash
