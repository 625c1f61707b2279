import MailDock.Trash.Startup

/-!
# Recovery and messages that are fetched again

What `recover_incomplete_purges` does to a message depends on which purge events the manifest
holds, never on where they stand: a fetch after them changes nothing, unless it gives the row
another path or another hash.

## Main definitions

- `Spared` — no event of the manifest makes recovery purge the message
- `Kept` — the message has its row and its file
-/

namespace MailDock.Trash

open Hoare Relational

/-- No `purged` event is about the message, and every intent about it is one that recovery skips. -/
def Spared (events : List ManifestEvent) (m : Message) : Prop :=
  m.relativePath.isSome = true → (∀ e, .purged e ∈ events → ¬e.isOf m) ∧
    ∀ i, .purgeIntent i ∈ events → i.isOf m → Untouchable m i

/-- The message has its row, and its file is the one it had. -/
structure Kept (m : Message) (files₀ : List (String × Bytes)) (w : World) : Prop where
  committed : m ∈ w.committed.tables.messages
  current : m ∈ w.db.tables.messages
  file : ∀ p, m.relativePath = some p → w.files.lookup p = files₀.lookup p

section
variable {m : Message} {files₀ : List (String × Bytes)} {env : Env} {w : World}

/-! ## Calls that keep the message -/

theorem Kept.ticked (h : Kept m files₀ w) : Kept m files₀ w.ticked := ⟨h.committed,h.current,h.file⟩

theorem Kept.query_rule {α : Type} {query : Tables → α} :
    Triple (Kept m files₀) (queryRepo env query)
      (fun a w => Kept m files₀ w ∧ a = query w.db.tables) fun _ => Kept m files₀ :=
  queryRepo_rule (fun _ h => ⟨h.ticked,rfl⟩) fun _ _ h _ => h.ticked

theorem Kept.timestamp_rule :
    Triple (Kept m files₀) (timestamp env) (fun _ => Kept m files₀) fun _ => Kept m files₀ :=
  MailDock.timestamp_rule fun _ _ h => h.ticked

theorem Kept.append_rule {e : ManifestEvent} :
    Triple (Kept m files₀) (appendManifest env e) (fun _ => Kept m files₀) fun _ => Kept m files₀ :=
  appendManifest_rule (fun _ _ h _ => ⟨h.committed,h.current,h.file⟩) fun _ _ h _ => h.ticked

theorem Kept.flush_rule :
    Triple (Kept m files₀) (flushAndSync env) (fun _ => Kept m files₀) fun _ => Kept m files₀ :=
  flushAndSync_rule (fun _ h => ⟨h.committed,h.current,h.file⟩) fun _ _ h _ => h.ticked

theorem Kept.begin_rule :
    Triple (Kept m files₀) (beginBatch env) (fun _ => Kept m files₀) fun _ => Kept m files₀ :=
  beginBatch_rule (fun _ h _ => ⟨h.committed,h.current,h.file⟩) fun _ _ h _ => h.ticked

theorem Kept.commit_rule :
    Triple (Kept m files₀) (commitBatch env) (fun _ => Kept m files₀) fun _ => Kept m files₀ :=
  commitBatch_rule (fun _ h => ⟨h.current,h.current,h.file⟩) fun _ _ h _ => h.ticked

theorem Kept.write_rule {op : WriteOp} (hop : ∀ db db' : Repository, op.apply db = .ok db' →
      m ∈ db.tables.messages → m ∈ db'.tables.messages) :
    Triple (Kept m files₀) (writeRepo env op) (fun _ => Kept m files₀) fun _ => Kept m files₀ := by
  refine writeRepo_rule (fun w db h happly => ?_) fun _ _ h _ => h.ticked
  have hrow := hop w.db db happly h.current
  unfold World.written
  split
  · exact ⟨h.committed,hrow,h.file⟩
  · exact ⟨hrow,hrow,h.file⟩

/-- Deleting a file that is not the message's. -/
theorem Kept.delete_rule {relativePath : String} (hpath : m.relativePath ≠ some relativePath) :
    Triple (Kept m files₀) (deleteEml env relativePath) (fun _ => Kept m files₀)
      fun _ => Kept m files₀ := by
  refine (nextTick_rule (Q := fun _ => Kept m files₀) fun _ h => h.ticked).seq fun t => ?_
  refine (localFault_rule (Q := fun _ => Kept m files₀) (fun _ h => h) fun _ _ h _ => h).seq
    fun _ => Triple.write fun w h => ⟨h.committed,h.current,fun p hp => ?_⟩
  have hne : p ≠ relativePath := fun heq => hpath (heq ▸ hp)
  rw [← h.file p hp,World.unlinked,lookup_filter_path fun q => q != relativePath]
  simp [hne]

theorem Kept.exists_rule {relativePath : String} :
    Triple (Kept m files₀) (existsEml env relativePath) (fun _ => Kept m files₀)
      fun _ => Kept m files₀ := by
  refine (nextTick_rule (Q := fun _ => Kept m files₀) fun _ h => h.ticked).seq fun t => ?_
  refine (localFault_rule (Q := fun _ => Kept m files₀) (fun _ h => h) fun _ _ h _ => h).seq
    fun _ => ?_
  exact fun w h => h

/-! ## Purges of other messages -/

variable {record : Message} {relativePath fileHash now : String} {count : Nat} {physical : Bool}

theorem finishPurgeDatabase_keeps (hid : m.id ≠ record.id) :
    Triple (Kept m files₀) (finishPurgeDatabase env record physical) (fun _ => Kept m files₀)
      fun _ => Kept m files₀ := by
  have hcontents : ∀ db db' : Repository, WriteOp.apply db (.deleteMessageContents record.id) =
      .ok db' → m ∈ db.tables.messages → m ∈ db'.tables.messages := by
    intro db db' h hm
    rw [Repository.exec_eq_ok.mp h]
    exact hm
  have hstorage : ∀ db db' : Repository, WriteOp.apply db (.updateMessageStorage record.id none none) =
      .ok db' → m ∈ db.tables.messages → m ∈ db'.tables.messages := by
    intro db db' h hm
    rw [Repository.exec_eq_ok.mp h]
    exact mem_update.mpr (.inl ⟨hm,by simpa using hid⟩)
  have hstate : ∀ db db' : Repository, WriteOp.apply db (.setLocalState record.id .purged none) =
      .ok db' → m ∈ db.tables.messages → m ∈ db'.tables.messages := by
    intro db db' h hm
    rw [Repository.exec_eq_ok.mp h]
    exact mem_update.mpr (.inl ⟨hm,by simpa using hid⟩)
  have haudit : ∀ entry, ∀ db db' : Repository, WriteOp.apply db (.recordAudit entry) =
      .ok db' → m ∈ db.tables.messages → m ∈ db'.tables.messages := by
    intro entry db db' h hm
    rw [Repository.exec_eq_ok.mp h]
    exact hm
  refine Kept.begin_rule.seq fun _ => (Kept.write_rule hcontents).seq fun _ =>
    (Kept.write_rule hstorage).seq fun _ => (Kept.write_rule hstate).seq fun _ =>
    (Kept.query_rule.strengthen_post fun _ _ h => h.1).seq fun audited => ?_
  split
  · exact Kept.commit_rule
  · exact Kept.timestamp_rule.seq fun now => (Kept.write_rule (haudit _)).seq fun _ =>
      Kept.commit_rule

theorem executePurge_keeps (hid : m.id ≠ record.id)
    (hpath : physical = true → m.relativePath ≠ some relativePath) :
    Triple (Kept m files₀) (executePurge env record relativePath fileHash now count physical)
      (fun _ => Kept m files₀) fun _ => Kept m files₀ := by
  refine Triple.seq (Q := fun _ => Kept m files₀) ?_ fun deleted => Kept.append_rule.seq fun _ =>
    Kept.flush_rule.seq fun _ => (finishPurgeDatabase_keeps hid).seq fun _ => Triple.ret fun _ h => h
  split
  · next hphysical =>
    refine Kept.exists_rule.seq fun found => ?_
    split
    · exact (Kept.delete_rule (hpath hphysical)).seq fun _ => Triple.ret fun _ h => h
    · exact Triple.ret fun _ h => h
  · exact Triple.ret fun _ h => h

/-- A file the message refers to is shared, and so it stays when another message is purged. -/
theorem resumePurge_keeps (record : Message) {intended : Option Bool} (halive : m.localState ≠ .purged)
    (hid : m.id ≠ record.id) (haccount : m.accountId = record.accountId) :
    Triple (Kept m files₀) (completePurge env record now intended false) (fun _ => Kept m files₀)
      fun _ => Kept m files₀ := by
  unfold completePurge
  split
  · next relativePath fileHash _ _ =>
    split
    · exact Triple.ret fun _ h => h
    · refine Kept.query_rule.seq fun references => ?_
      rw [if_neg Bool.false_ne_true]
      rintro w ⟨h,hcount⟩
      refine Triple.seq (Q := fun _ => Kept m files₀) (executePurge_keeps hid fun hphysical hpath => ?_)
        (fun _ => ?_) w h
      · have hzero : references = 0 := by
          rw [Bool.and_eq_true] at hphysical
          exact beq_iff_eq.mp hphysical.1
        rw [hcount,Tables.countPathReferences,List.countP_eq_zero] at hzero
        exact hzero m h.current (by simp [haccount,hpath,hid,halive])
      · exact Triple.ret fun _ h => h
  · exact Triple.ret fun _ h => h

/-! ## A message that is spared -/

variable {records : List Message} {events : List ManifestEvent}

theorem mem_of_recordOf_records {e : PurgeEvent} (h : recordOf records e = some record) :
    record ∈ records ∧ e.isOf record :=
  ⟨List.mem_reverse.mp (List.mem_of_find?_eq_some h),by simpa using List.find?_some h⟩

theorem recoverIntent_keeps (halive : m.localState ≠ .purged)
    (hrecords : ∀ r ∈ records, r.relativePath.isSome = true ∧ (r.id = m.id → r = m))
    (hspared : Spared events m) {i : PurgeEvent} (hi : .purgeIntent i ∈ events)
    (haccount : i.accountId = m.accountId) :
    Triple (Kept m files₀) (recoverIntent env records (.purgeIntent i)) (fun _ => Kept m files₀)
      fun _ => Kept m files₀ := by
  unfold recoverIntent
  dsimp only
  split
  · exact Triple.ret fun _ h => h
  · next record hrecord =>
    obtain ⟨hmem,hisOf⟩ := mem_of_recordOf_records hrecord
    split
    · exact Triple.ret fun _ h => h
    · next hchanged =>
      by_cases hid : m.id = record.id
      · -- an intent of the message itself gets this far only without a path or a hash
        obtain rfl := (hrecords record hmem).2 hid.symm
        have hempty := ((hspared (hrecords record hmem).1).2 i hi hisOf).resolve_left hchanged
        unfold completePurge
        dsimp only
        rw [if_pos hempty]
        exact Triple.ret fun _ h => h
      · have hsame : m.accountId = record.accountId := haccount.symm.trans hisOf.1
        exact Triple.seq (Q := fun _ => Kept m files₀) (resumePurge_keeps { record with
          relativePath := some i.relativePath, fileHash := some i.fileHash } halive hid hsame)
          fun _ => Triple.ret fun _ h => h

theorem recoverCompleted_keeps
    (hrecords : ∀ r ∈ records, r.relativePath.isSome = true ∧ (r.id = m.id → r = m))
    (hspared : Spared events m) {e : PurgeEvent} (he : .purged e ∈ events) :
    Triple (Kept m files₀) (recoverCompleted env records e) (fun _ => Kept m files₀)
      fun _ => Kept m files₀ := by
  unfold recoverCompleted
  split
  · exact Triple.ret fun _ h => h
  · next record hrecord =>
    obtain ⟨hmem,hisOf⟩ := mem_of_recordOf_records hrecord
    split
    · exact Triple.ret fun _ h => h
    · refine finishPurgeDatabase_keeps fun hid => ?_
      obtain rfl := (hrecords record hmem).2 hid.symm
      exact (hspared (hrecords record hmem).1).1 e he hisOf

/-- A message that is spared keeps its row and its file, however far recovery gets. -/
theorem recoverIncompletePurges_keeps (env : Env) (writeAllowed : Bool) (halive : m.localState ≠ .purged)
    (haccount : ∀ x ∈ events, x.accountId = m.accountId) (hspared : Spared events m) :
    Triple (fun w => Kept m files₀ w ∧ w.manifest = events) (recoverIncompletePurges env writeAllowed)
      (fun _ => Kept m files₀) fun _ => Kept m files₀ := by
  unfold recoverIncompletePurges
  split
  · refine Triple.seq (Q := fun stored w => (Kept m files₀ w ∧ w.manifest = events) ∧
      ∀ r ∈ stored.map Prod.fst, r.relativePath.isSome = true ∧ (r.id = m.id → r = m)) ?_ fun stored => ?_
    · refine queryRepo_rule (fun w h => ⟨⟨h.1.ticked,h.2⟩,fun r hr => ?_⟩) fun _ _ h _ => h.1.ticked
      obtain ⟨hmem,hpath⟩ := mem_storedMessages.mp hr
      exact ⟨hpath,w.db.keyed.id r hmem m h.1.current⟩
    refine Triple.seq (Q := fun v w => (Kept m files₀ w ∧ World.manifest v = events) ∧
      ∀ r ∈ stored.map Prod.fst, r.relativePath.isSome = true ∧ (r.id = m.id → r = m))
      (Triple.read fun w h => h) fun v => ?_
    rintro w ⟨⟨h,hmanifest⟩,hrecords⟩
    rw [hmanifest]
    refine (Triple.loop (I := Kept m files₀) _ fun event hevent => ?_).seq
      (fun _ => Triple.loop (I := Kept m files₀) _ fun e he => ?_) w h
    · cases event with
      | purgeIntent i =>
        have hi : .purgeIntent i ∈ events := (mem_readIncompleteIntents.mp hevent).1
        exact recoverIntent_keeps halive hrecords hspared hi (haccount _ hi)
      | _ => exact Triple.ret fun _ h => h
    · exact recoverCompleted_keeps hrecords hspared (mem_of_completedPurge he)
  · exact Triple.raise fun _ h => h.1

/-! ## A message that is not spared -/

/-- Every row of the message is purged. -/
def PurgedRows (key : RecordKey) (t : Tables) : Prop :=
  ∀ m ∈ t.messages, m.recordKey = key → m.localState = .purged

variable {key : RecordKey} {db₀ db db' : Repository} {start own base : List ManifestEvent}

theorem PurgedRows.finish {t t' : Tables} (h : PurgedRows key t) (hfinished : Finished record t t') :
    PurgedRows key t' := by
  intro m hm hkey
  rw [hfinished.messages] at hm
  rcases mem_update.mp hm with ⟨hm,-⟩ | ⟨m',-,-,rfl⟩
  · exact h m hm hkey
  · rfl

/-- Finishing a purge of the message leaves no row of it alive. -/
theorem Finished.purgedRows (hfinished : Finished record db.tables db'.tables)
    (hids : Identified db₀.tables.messages db.tables.messages)
    (hrecord : record ∈ db₀.tables.messages) (hkey : record.recordKey = key) :
    PurgedRows key db'.tables := by
  intro m hm hm'
  rw [hfinished.messages] at hm
  rcases mem_update.mp hm with ⟨hm,hother⟩ | ⟨m',-,-,rfl⟩
  · have hid := (hids.id_eq_iff hrecord hm).mpr (hm'.trans hkey.symm)
    rw [hid,beq_self_eq_true] at hother
    cases hother
  · rfl

/-- Between two purges that are resumed; once `done` holds, the message is purged. -/
def Striking (start own base : List ManifestEvent) (key : RecordKey) (db₀ : Repository)
    (done : Prop) (w : World) : Prop :=
  ∃ db new files, Between (fun _ _ => True) start own base db new files w ∧
    Identified db₀.tables.messages db.tables.messages ∧ (done → PurgedRows key db.tables)

theorem Striking.mono {done done' : Prop} (h : Striking start own base key db₀ done w)
    (hle : done' → done) : Striking start own base key db₀ done' w := by
  obtain ⟨db,new,files,h,hids,hpurged⟩ := h
  exact ⟨db,new,files,h,hids,fun hd => hpurged (hle hd)⟩

theorem recoverIntent_strikes {i : PurgeEvent} {done : Prop} :
    Triple (Striking start own base key db₀ done)
      (recoverIntent env (storedMessages db₀.tables) (.purgeIntent i))
      (fun _ => Striking start own base key db₀
        (done ∨ strikesIntent (storedMessages db₀.tables) key (.purgeIntent i) = true))
      fun _ _ => True := by
  unfold recoverIntent
  dsimp only
  split
  · next hnone =>
    refine Triple.ret fun w h => h.mono fun hdone => hdone.resolve_right ?_
    simp [strikesIntent,hnone]
  · next message hmessage =>
    obtain ⟨hmem,-,hisOf⟩ := mem_of_recordOf hmessage
    split
    · next hchanged =>
      have huntouchable : Untouchable message i := .inl hchanged
      refine Triple.ret fun w h => h.mono fun hdone => hdone.resolve_right ?_
      simp [strikesIntent,hmessage,huntouchable]
    · by_cases hempty : i.relativePath = "" ∨ i.fileHash = ""
      · unfold completePurge
        dsimp only
        rw [if_pos hempty]
        have huntouchable : Untouchable message i := .inr hempty
        refine Triple.ret fun w h => h.mono fun hdone => hdone.resolve_right ?_
        simp [strikesIntent,hmessage,huntouchable]
      · rintro w ⟨db,new,files,h,hids,hpurged⟩
        refine Triple.seq ((Between.resumePurge_rule { message with
          relativePath := some i.relativePath, fileHash := some i.fileHash } rfl rfl hempty
          (fun _ _ => trivial) fun _ _ _ _ => trivial).consequence (fun _ h => h) (fun _ _ h => h)
          fun _ _ _ => trivial) (fun _ => Triple.ret ?_) w h
        rintro w ⟨db',files',e,hfinished,-,-,h'⟩
        refine ⟨db',_,files',h',hids.trans hfinished.identified,?_⟩
        rintro (hdone | hstrikes)
        · exact (hpurged hdone).finish hfinished
        · simp only [strikesIntent,Bool.and_eq_true,beq_iff_eq] at hstrikes
          have hfinished' : Finished message db.tables db'.tables :=
            ⟨hfinished.messages,hfinished.audits⟩
          exact hfinished'.purgedRows hids hmem
            ((PurgeEvent.isOf_iff.mp hisOf).symm.trans hstrikes.1)

theorem recoverCompleted_strikes {e : PurgeEvent} {done : Prop} :
    Triple (Striking start own base key db₀ done)
      (recoverCompleted env (storedMessages db₀.tables) e)
      (fun _ => Striking start own base key db₀
        (done ∨ strikesCompleted (storedMessages db₀.tables) key e = true))
      fun _ _ => True := by
  unfold recoverCompleted
  split
  · next hnone =>
    refine Triple.ret fun w h => h.mono fun hdone => hdone.resolve_right ?_
    simp [strikesCompleted,hnone]
  · next message hmessage =>
    obtain ⟨hmem,-,hisOf⟩ := mem_of_recordOf hmessage
    split
    · next hpurged =>
      refine Triple.ret fun w h => h.mono fun hdone => hdone.resolve_right ?_
      simp [strikesCompleted,hmessage,hpurged]
    · rintro w ⟨db,new,files,h,hids,hpurged⟩
      refine ((Between.finish_rule fun _ _ => trivial).consequence (fun _ h => h) (fun _ w hw => ?_)
        fun _ _ _ => trivial) w h
      obtain ⟨db',hfinished,h'⟩ := hw
      refine ⟨db',new,files,h',hids.trans hfinished.identified,?_⟩
      rintro (hdone | hstrikes)
      · exact (hpurged hdone).finish hfinished
      · simp only [strikesCompleted,Bool.and_eq_true,beq_iff_eq] at hstrikes
        exact hfinished.purgedRows hids hmem ((PurgeEvent.isOf_iff.mp hisOf).symm.trans hstrikes.1)

/-- Recovery purges a message that its manifest strikes. -/
theorem recoverIncompletePurges_strikes (env : Env) (key : RecordKey) (writeAllowed : Bool)
    {files : List (String × Bytes)} :
    Triple (Between (fun _ _ => True) start own base db₀ [] files)
      (recoverIncompletePurges env writeAllowed)
      (fun _ => Striking start own base key db₀ (0 < strikes (storedMessages db₀.tables) key own))
      fun _ _ => True := by
  unfold recoverIncompletePurges
  split
  · refine Triple.seq (Between.query_rule.consequence (fun _ h => h) (fun _ _ h => h)
      fun _ _ _ => trivial) fun stored => ?_
    rintro w ⟨h,rfl⟩
    refine Triple.seq (Q := fun v w => World.manifest v = own ∧
      Between (fun _ _ => True) start own base db₀ [] files w)
      (Triple.read fun w h => ⟨by rw [h.manifest,List.append_nil],h⟩) (fun v => ?_) w h
    rintro w ⟨hmanifest,h⟩
    rw [hmanifest]
    refine ((Triple.loop_prefix (I := fun done => Striking start own base key db₀
      (∃ x ∈ done, strikesIntent (storedMessages db₀.tables) key x = true))
      (readIncompleteIntents own) (fun done event _ => ?_) []).seq fun _ =>
      ((Triple.loop_prefix (I := fun done => Striking start own base key db₀
        ((∃ x ∈ readIncompleteIntents own, strikesIntent (storedMessages db₀.tables) key x = true) ∨
          ∃ e ∈ done, strikesCompleted (storedMessages db₀.tables) key e = true))
        (completedPurges own) (fun done e _ => ?_) []).consequence (fun w hw => hw.mono ?_)
        (fun _ w hw => hw.mono ?_) fun _ _ h => h)) w ⟨db₀,[],files,h,Identified.refl _,?_⟩
    · cases event with
      | purgeIntent i =>
        refine recoverIntent_strikes.strengthen_post fun _ w hw => hw.mono ?_
        rintro ⟨x,hx,hstrikes⟩
        rcases List.mem_append.mp hx with hx | hx
        · exact .inl ⟨x,hx,hstrikes⟩
        · exact .inr (List.mem_singleton.mp hx ▸ hstrikes)
      | _ =>
        refine Triple.ret fun w hw => hw.mono ?_
        rintro ⟨x,hx,hstrikes⟩
        rcases List.mem_append.mp hx with hx | hx
        · exact ⟨x,hx,hstrikes⟩
        · rw [List.mem_singleton.mp hx] at hstrikes
          cases hstrikes
    · refine recoverCompleted_strikes.strengthen_post fun _ w hw => hw.mono ?_
      rintro (hdone | ⟨x,hx,hstrikes⟩)
      · exact .inl (.inl hdone)
      · rcases List.mem_append.mp hx with hx | hx
        · exact .inl (.inr ⟨x,hx,hstrikes⟩)
        · exact .inr (List.mem_singleton.mp hx ▸ hstrikes)
    · rintro (hdone | ⟨x,hx,-⟩)
      · exact hdone
      · cases hx
    · intro hpos
      rcases Nat.add_pos_iff_pos_or_pos.mp hpos with hpos | hpos
      · exact .inl (List.countP_pos_iff.mp hpos)
      · exact .inr (List.countP_pos_iff.mp hpos)
    · rintro ⟨x,hx,-⟩
      cases hx
  · exact fun _ _ => trivial

theorem strikes_pos_of_not_spared (hm : m ∈ db.tables.messages) (halive : m.localState ≠ .purged)
    (h : ¬Spared events m) : 0 < strikes (storedMessages db.tables) m.recordKey events := by
  by_contra hnot
  refine h fun hpath => ⟨fun e he hisOf => ?_,fun i hi hisOf => ?_⟩
  · exact hnot (strikes_pos_of_purged hm hpath halive he hisOf)
  · by_contra htouched
    exact hnot (strikes_pos_of_intent hm hpath halive hi hisOf htouched)

/-- A recovery that runs to its end keeps a message and its file exactly when the message is
spared. -/
theorem recovered_keeps_iff {d : Disk} (hm : m ∈ d.db.tables.messages)
    (halive : m.localState ≠ .purged) (haccount : ∀ x ∈ d.manifest, x.accountId = m.accountId)
    {writeAllowed : Bool} {last : Option Nat} {tick : Nat} {w : World}
    (hok : recoverIncompletePurges env writeAllowed (d.opened last tick) = (.ok (),w)) :
    Kept m d.files w ↔ Spared d.manifest m := by
  constructor
  · intro hkept
    by_contra hnot
    have hspec := recoverIncompletePurges_strikes env m.recordKey writeAllowed _
      (Between.opened d trivial last tick)
    rw [hok] at hspec
    obtain ⟨db,new,files,h,-,hpurged⟩ := hspec
    have hrow := hkept.current
    rw [h.current] at hrow
    exact halive (hpurged (strikes_pos_of_not_spared hm halive hnot) m hrow rfl)
  · intro hspared
    have hspec := recoverIncompletePurges_keeps env writeAllowed halive haccount hspared (d.opened last tick) ⟨⟨hm,hm,fun _ _ => rfl⟩,rfl⟩
    rw [hok] at hspec
    exact hspec

end

end MailDock.Trash
