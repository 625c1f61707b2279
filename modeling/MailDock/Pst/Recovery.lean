import MailDock.Pst.Rules

/-!
# A switch that is interrupted

Where `switch_generation` may stop, what a crash leaves there, and what
`recover_generation_switch` makes of it.  The record of the commit is flushed before the database
commits.  From there until the commit the manifest names the new generation and the database the
old one, and the recovery takes the record for proof of the commit.

## Main definitions

- `Unswitched`, `HasSwitched` — a switch stopped before its database commit, or after it
- `SwitchSettled` — what the recovery is to leave

## Main results

- `switch_recovery_iff`
-/

namespace MailDock

open Hoare

/-- The manifest has a record of a committed switch. -/
def hasCommitRecord (events : List PstEvent) : Bool :=
  events.any fun e => e.name == .generationSwitchCommitted

theorem hasCommitRecord_iff {events : List PstEvent} :
    hasCommitRecord events = true ↔ ∃ e ∈ events, e.name = .generationSwitchCommitted := by
  simp [hasCommitRecord]

/-! ## Where a switch may stop -/

section
variable (d : PstDisk) (u old : String)

/-- The rest of the world, which a switch never touches. -/
structure SwitchFrame (s : Spot) : Prop where
  importJson : s.manifest.importJson = (d.manifests u).importJson
  folders : s.manifest.folders = (d.manifests u).folders
  staging : s.staging = d.staging
  files : s.files = d.files

/-- Before the database commit. -/
structure Unswitched (s : Spot) : Prop extends SwitchFrame d u s where
  committed : s.committed = d.db
  commits : s.commits = []
  flushed : (d.manifests u).events.length ≤ s.flushed
  events : s.manifest.events = (d.manifests u).events ∨ ∃ prepared,
    Recorded u (d.manifests u).events (.generationSwitchPrepared old) prepared ∧
      (s.manifest.events = prepared ∨
        Recorded u prepared (.generationSwitchCommitted old) s.manifest.events)

/-- After it. -/
structure HasSwitched (env : PstEnv) (newId oldId : Nat) (s : Spot) : Prop
    extends SwitchFrame d u s where
  verified : ∃ v, verification env d.db.tables (d.manifests u) d.files newId u false = .ok v
  committed : ∃ now db, d.db.activateGeneration now newId oldId = .ok db ∧ db ∈ s.commits ∧
    db.tables.AuditedFrom s.committed.tables
  events : ∃ prepared recorded,
    Recorded u (d.manifests u).events (.generationSwitchPrepared old) prepared ∧
    Recorded u prepared (.generationSwitchCommitted old) recorded ∧
    recorded.length ≤ s.flushed ∧
    (s.manifest.events = recorded ∨
      Recorded u recorded (.generationSuperseded old) s.manifest.events)

end

section
variable {d : PstDisk} {u old : String} {newId oldId : Nat} {env : PstEnv} {gated : Bool}

/-- A switch stopped at some spot. -/
def SwitchStopped (d : PstDisk) (u old : String) (env : PstEnv) (newId oldId : Nat)
    (w : PstWorld) : Prop :=
  ∃ s, (Unswitched d u old s ∨ HasSwitched d u old env newId oldId s) ∧ At d u s w

theorem Unswitched.start (d : PstDisk) (u old : String) : Unswitched d u old (d.spot u) where
  importJson := rfl
  folders := rfl
  staging := rfl
  files := rfl
  committed := rfl
  commits := rfl
  flushed := le_rfl
  events := .inl rfl

/-- The transaction of a switch: it ends before its commit or with it. -/
theorem switch_transaction {prepared : List PstEvent} {s : Spot}
    (hprepared : Recorded u (d.manifests u).events (.generationSwitchPrepared old) prepared)
    (hs : s = { ((d.spot u).withEvents prepared).flushedAll with inBatch := true }) :
    Triple (At d u s) (do
        ensureWriteAllowed env gated
        let now ← pstTimestamp env
        writePst env (PstRepository.activateGeneration now newId oldId)
        ensureWriteAllowed env gated
        appendPst env u (.generationSwitchCommitted old)
        ensureWriteAllowed env gated
        flushPst env u
        ensureWriteAllowed env gated
        commitPstBatch env)
      (fun _ w => ∃ now db recorded, At d u
          (((({ s with db := db }).withEvents recorded).flushedAll).batchCommitted) w ∧
        d.db.activateGeneration now newId oldId = .ok db ∧
        Recorded u prepared (.generationSwitchCommitted old) recorded)
      fun _ w => ∃ s, Unswitched d u old s ∧ At d u s w := by
  subst hs
  have hs : Unswitched d u old { ((d.spot u).withEvents prepared).flushedAll with inBatch := true } :=
    ⟨⟨rfl,rfl,rfl,rfl⟩,rfl,rfl,hprepared.isPrefix.length_le,.inr ⟨prepared,hprepared,.inl rfl⟩⟩
  refine (At.ensure_rule.weaken_error fun f w h => ⟨_,hs,h.1⟩).seq fun _ => ?_
  refine At.timestamp_rule.seq fun now => ?_
  refine (At.write_rule.weaken_error fun f w h => ⟨_,hs,h.1⟩).seq fun _ =>
    Triple.choose fun db => Triple.assume fun hdb => ?_
  -- The write stays inside the transaction.
  have hs' : Unswitched d u old
      { ((d.spot u).withEvents prepared).flushedAll with inBatch := true, db := db } :=
    ⟨⟨rfl,rfl,rfl,rfl⟩,rfl,rfl,hprepared.isPrefix.length_le,.inr ⟨prepared,hprepared,.inl rfl⟩⟩
  refine (At.ensure_rule.weaken_error fun f w h => ⟨_,hs',h.1⟩).seq fun _ => ?_
  refine (At.append_rule.weaken_error fun f w h => ⟨_,hs',h.1⟩).seq fun _ =>
    Triple.choose fun recorded => Triple.assume fun hrecorded => ?_
  have hrecorded' : ∀ n, (d.manifests u).events.length ≤ n → Unswitched d u old
      { ({ ((d.spot u).withEvents prepared).flushedAll with inBatch := true, db := db }).withEvents
        recorded with flushed := n } :=
    fun n hn => ⟨⟨rfl,rfl,rfl,rfl⟩,rfl,rfl,hn,.inr ⟨prepared,hprepared,.inr hrecorded⟩⟩
  have hlength := hprepared.isPrefix.length_le
  refine (At.ensure_rule.weaken_error fun f w h => ⟨_,hrecorded' _ hlength,h.1⟩).seq fun _ => ?_
  refine (At.flush_rule.weaken_error fun f w h => ⟨_,hrecorded' _ hlength,h.1⟩).seq fun _ => ?_
  have hlength' := hlength.trans hrecorded.isPrefix.length_le
  refine (At.ensure_rule.weaken_error fun f w h => ⟨_,hrecorded' _ hlength',h.1⟩).seq fun _ => ?_
  refine (At.commit_rule.weaken_error fun f w h => ⟨_,hrecorded' _ hlength',h.1⟩).strengthen_post ?_
  exact fun _ w hw => ⟨now,db,recorded,hw,hdb,hrecorded⟩

theorem Unswitched.rolledBack {s : Spot} (h : Unswitched d u old s) :
    Unswitched d u old s.rolledBack :=
  { h with }

theorem switchGeneration_stops (newId oldId : Nat) :
    Triple (At d u (d.spot u)) (switchGeneration env gated newId u oldId old)
      (fun _ w => ∃ s, HasSwitched d u old env newId oldId s ∧ At d u s w)
      fun _ => SwitchStopped d u old env newId oldId := by
  have hstop : ∀ {s w}, Unswitched d u old s → At d u s w →
      SwitchStopped d u old env newId oldId w := fun hs hw => ⟨_,.inl hs,hw⟩
  have hstart := Unswitched.start d u old
  refine (At.query_rule.weaken_error fun f w h => hstop hstart h.1).seq fun newRecord =>
    Triple.assume fun _ => ?_
  refine (At.query_rule.weaken_error fun f w h => hstop hstart h.1).seq fun oldRecord =>
    Triple.assume fun _ => ?_
  split
  case h_2 => exact Triple.raise fun w hw => hstop hstart hw
  next newRecord oldRecord =>
  split
  · exact Triple.raise fun w hw => hstop hstart hw
  refine (At.verify_rule.weaken_error fun f w h => hstop hstart h.1).seq fun verified =>
    Triple.assume fun hverified => ?_
  refine (At.ensure_rule.weaken_error fun f w h => hstop hstart h.1).seq fun _ => ?_
  refine (At.append_rule.weaken_error fun f w h => hstop hstart h.1).seq fun _ =>
    Triple.choose fun prepared => Triple.assume fun hprepared => ?_
  have hprep : ∀ n, (d.manifests u).events.length ≤ n → Unswitched d u old
      { (d.spot u).withEvents prepared with flushed := n } :=
    fun n hn => ⟨⟨rfl,rfl,rfl,rfl⟩,rfl,rfl,hn,.inr ⟨prepared,hprepared,.inl rfl⟩⟩
  have hlength := hprepared.isPrefix.length_le
  refine (At.flush_rule.weaken_error fun f w h => hstop (hprep _ le_rfl) h.1).seq fun _ => ?_
  refine (At.ensure_rule.weaken_error fun f w h => hstop (hprep _ hlength) h.1).seq fun _ => ?_
  refine ((At.begin_rule rfl).weaken_error fun f w h => hstop (hprep _ hlength) h.1).seq fun _ => ?_
  refine Triple.seq (catching_rule (switch_transaction hprepared rfl) ?_ ?_) fun _ =>
    Triple.choose fun now => Triple.choose fun db => Triple.choose fun recorded =>
      Triple.assume fun ⟨hdb,hrecorded⟩ => ?_
  · -- The handler rolls back and raises the error again.
    intro e
    refine Triple.choose fun s => Triple.weaken_pre (Triple.assume (P := At d u s) fun hs => ?_)
      fun w h => ⟨h.2,h.1⟩
    refine (At.rollback_rule.weaken_error fun f w h => hstop hs h.1).seq fun _ => ?_
    exact Triple.raise fun w hw => hstop hs.rolledBack hw
  · exact fun w ⟨s,hs,hw⟩ => hstop hs hw
  have hdone : ∀ (events : List PstEvent) (n : Nat) (c : PstRepository) (cs : List PstRepository),
      (events = recorded ∨ Recorded u recorded (.generationSuperseded old) events) →
      recorded.length ≤ n → db ∈ cs →
      db.tables.AuditedFrom c.tables →
      HasSwitched d u old env newId oldId
        ⟨c,c,false,{ d.manifests u with events := events },n,d.staging,d.files,cs⟩ :=
    fun _ _ _ _ hevents hn hcs hc => ⟨⟨rfl,rfl,rfl,rfl⟩,⟨verified,hverified⟩,⟨now,db,hdb,hcs,hc⟩,
      prepared,recorded,hprepared,hrecorded,hn,hevents⟩
  have hdb' : db.tables.AuditedFrom db.tables := ⟨db.tables.mail.auditLog,rfl⟩
  have hcommitted := hdone recorded recorded.length db [db] (.inl rfl) le_rfl List.mem_cons_self hdb'
  refine (At.ensure_rule.weaken_error fun f w h => ⟨_,.inr hcommitted,h.1⟩).seq fun _ => ?_
  refine (At.append_rule.weaken_error fun f w h => ⟨_,.inr hcommitted,h.1⟩).seq fun _ =>
    Triple.choose fun events => Triple.assume fun hevents => ?_
  have happended := hdone events recorded.length db [db] (.inr hevents) le_rfl List.mem_cons_self hdb'
  refine (At.ensure_rule.weaken_error fun f w h => ⟨_,.inr happended,h.1⟩).seq fun _ => ?_
  refine (At.flush_rule.weaken_error fun f w h => ⟨_,.inr happended,h.1⟩).seq fun _ => ?_
  have hflushed := hdone events events.length db [db] (.inr hevents) hevents.isPrefix.length_le
    List.mem_cons_self hdb'
  refine (At.ensure_rule.weaken_error fun f w h => ⟨_,.inr hflushed,h.1⟩).seq fun _ => ?_
  refine (At.audit_rule.weaken_error fun f w h => ⟨_,.inr hflushed,h.1⟩).seq fun _ =>
    Triple.choose fun audited => Triple.assume fun haudited => ?_
  refine Triple.ret fun w hw => ⟨_,?_,hw⟩
  exact hdone events events.length audited [audited,db] (.inr hevents) hevents.isPrefix.length_le
    (by simp) haudited

/-- However a switch ends, it stopped at some spot. -/
theorem switchGeneration_stopped (d : PstDisk) (u old : String) (env : PstEnv) (gated : Bool)
    (newId oldId tick : Nat) :
    SwitchStopped d u old env newId oldId
      (switchGeneration env gated newId u oldId old (d.opened tick)).2 := by
  refine Triple.final (R := SwitchStopped d u old env newId oldId) ?_ (d.at_opened u tick)
  refine (switchGeneration_stops newId oldId).strengthen_post ?_
  exact fun _ w ⟨s,hs,hw⟩ => ⟨s,.inr hs,hw⟩

/-! ## What the recovery makes of it -/

/-- What is to be found after a recovery, of the rows of the two generations: one of them is active,
the messages of both are as they were or as the switch leaves them, and the manifest has a record of
the switch when the new generation is the active one. -/
structure SwitchSettled (d : PstDisk) (u : String) (w : PstWorld) (newRow oldRow : PstImport) : Prop where
  memNew : newRow ∈ w.committed.tables.imports
  memOld : oldRow ∈ w.committed.tables.imports
  oneActive : newRow.isActive = !oldRow.isActive
  messages :
    (newRow.isActive = false ∧
      w.committed.tables.mail.messages = d.db.tables.mail.messages) ∨
    (newRow.isActive = true ∧ ∃ now, w.committed.tables.mail.messages =
      (d.db.tables.exchanged now newRow.id oldRow.id PstImport.activated
        (PstImport.superseded now)).mail.messages)
  manifest : hasCommitRecord (w.manifests u).events = newRow.isActive

/-- The recovery returns and leaves the two generations settled. -/
def RecoverySettles (env : PstEnv) (d d' : PstDisk) (u : String) (newId oldId tick : Nat) : Prop :=
  ∃ w, recoverGenerationSwitch env newId u oldId (d'.opened tick) = (.ok (),w) ∧
    ∃ newRow oldRow, newRow.id = newId ∧ oldRow.id = oldId ∧ SwitchSettled d u w newRow oldRow

/-- A recovery changes nothing where the switch was not committed, and nothing where its record is
there. -/
theorem recover_keeps {d' : PstDisk} (hfault : ∀ t, env.fault t = none)
    (hstate : hasCommitRecord (d'.manifests u).events = true ∨ ∃ newRow ∈ d'.db.tables.imports,
      ∃ oldRow ∈ d'.db.tables.imports, newRow.id = newId ∧ oldRow.id = oldId ∧
        newRow.replacesId = some oldId ∧ newRow.isActive = false ∧ oldRow.isActive = true)
    (tick : Nat) : ∃ w, recoverGenerationSwitch env newId u oldId (d'.opened tick) = (.ok (),w) ∧
      w.committed = d'.db ∧ w.manifests u = d'.manifests u := by
  have hfaulty : ∀ {f}, ¬ env.Faulty f := fun ⟨t,ht⟩ => by simp [hfault] at ht
  have hrun : Triple (At d' u (d'.spot u)) (recoverGenerationSwitch env newId u oldId)
      (fun _ w => ∃ s, At d' u s w ∧ s.committed = d'.db ∧ s.manifest = d'.manifests u)
      fun _ _ => False := by
    refine (At.events_rule.weaken_error fun f w h => hfaulty h.2).seq fun events =>
      Triple.assume fun hevents => ?_
    subst hevents
    split
    · next hopen =>
      refine At.timestamp_rule.seq fun now => ?_
      have hok : d'.db.rollbackGenerationSwitch now newId oldId = .ok d'.db := by
        rcases hstate with hrecord | ⟨newRow,hnew,oldRow,hold,hnewId,holdId,hr,hni,hoa⟩
        · rw [Bool.and_eq_true,Bool.not_eq_true'] at hopen
          exact absurd hrecord (Bool.eq_false_iff.mp hopen.2)
        · exact PstRepository.rollbackGenerationSwitch_ok_iff.mpr
            ⟨newRow,hnew,oldRow,hold,hnewId,holdId,hr,.inr ⟨hni,hoa,rfl⟩⟩
      refine (At.write_rule.weaken_error fun f w h => ?_).strengthen_post ?_
      · rcases h.2 with h | ⟨e,he,-⟩
        · exact hfaulty h
        · have : Except.ok d'.db = Except.error e := hok.symm.trans he
          cases this
      · intro _ w ⟨db,hw,hdb⟩
        have heq : db = d'.db := by
          have : Except.ok db = Except.ok d'.db := hdb.symm.trans hok
          cases this
          rfl
        exact ⟨_,hw,heq,rfl⟩
    · exact Triple.ret fun w hw => ⟨_,hw,rfl,rfl⟩
  have h := hrun (d'.opened tick) (d'.at_opened u tick)
  revert h
  cases recoverGenerationSwitch env newId u oldId (d'.opened tick) with
  | mk result w =>
    cases result with
    | ok _ =>
      intro ⟨s,hw,hc,hm⟩
      exact ⟨w,rfl,(congrArg Spot.committed hw.spot).trans hc,
        (congrArg Spot.manifest hw.spot).trans hm⟩
    | error f => exact False.elim

/-- What a crash leaves of a switch that was not committed. -/
theorem Unswitched.survivor {s : Spot} {w : PstWorld} {d' : PstDisk} (hs : Unswitched d u old s)
    (hw : At d u s w) (hd : w.Survives d') : d'.db = d.db ∧ ∀ db, .commit db ∉ w.log := by
  obtain ⟨rfl,-,-⟩ := hw
  refine ⟨hd.db.trans hs.committed,fun db hdb => ?_⟩
  have hmem : db ∈ (w.spot u).commits := mem_committedDbs.mpr hdb
  rw [hs.commits] at hmem
  cases hmem

/-- What it leaves of one that was. -/
theorem HasSwitched.survivor {s : Spot} {w : PstWorld} {d' : PstDisk}
    (hs : HasSwitched d u old env newId oldId s) (hw : At d u s w) (hd : w.Survives d') :
    hasCommitRecord (d'.manifests u).events = true ∧ (∃ db, .commit db ∈ w.log) ∧
      ∃ now db, d.db.activateGeneration now newId oldId = .ok db ∧
        db.tables.AuditedFrom d'.db.tables := by
  obtain ⟨prepared,recorded,-,hrecorded,hlength,hevents⟩ := hs.events
  obtain ⟨now,db,hdb,hcommit,haudit⟩ := hs.committed
  obtain ⟨kept,hkept,hflushed,hmanifest⟩ := hd.manifests u
  obtain ⟨rfl,-,-⟩ := hw
  refine ⟨?_,⟨db,mem_committedDbs.mp hcommit⟩,now,db,hdb,?_⟩
  · -- The flushed record is in every beginning of the events that a crash may leave.
    have hprefix : recorded <+: (w.manifests u).events := by
      rcases hevents with h | h
      · exact h ▸ List.prefix_rfl
      · exact h.isPrefix
    have hin : recorded <+: kept :=
      List.prefix_of_prefix_length_le hprefix hkept (hlength.trans hflushed)
    obtain ⟨e,he,-,hbody⟩ := hrecorded.exists_body
    rw [hmanifest,hasCommitRecord_iff]
    exact ⟨e,hin.subset he,by rw [PstEvent.name,hbody]; rfl⟩
  · rw [hd.db]
    exact haudit

/-- The rows of the two generations after a switch. -/
theorem Activatable.rows_exchanged {t : PstTables} {newRow oldRow : PstImport} (ht : t.Valid)
    (h : t.Activatable newRow oldRow) (now : String) :
    newRow.activated ∈ (t.exchanged now newRow.id oldRow.id PstImport.activated
        (PstImport.superseded now)).imports ∧
      oldRow.superseded now ∈ (t.exchanged now newRow.id oldRow.id PstImport.activated
        (PstImport.superseded now)).imports := by
  have hne : newRow.id ≠ oldRow.id := by
    intro hid
    have heq := ht.import_eq h.memNew h.memOld hid
    have : false = true := h.inactive.symm.trans (heq ▸ h.active)
    cases this
  have hnew : newRow ∈ Relational.update (fun i => i.id == oldRow.id) (PstImport.superseded now)
      t.imports := Relational.mem_update.mpr (.inl ⟨h.memNew,by simp [hne]⟩)
  have hold : oldRow.superseded now ∈ Relational.update (fun i => i.id == oldRow.id)
      (PstImport.superseded now) t.imports :=
    Relational.mem_update.mpr (.inr ⟨oldRow,h.memOld,by simp,rfl⟩)
  have hid : (oldRow.superseded now).id ≠ newRow.id := fun h => hne h.symm
  exact ⟨Relational.mem_update.mpr (.inr ⟨newRow,hnew,by simp,rfl⟩),
    Relational.mem_update.mpr (.inl ⟨hold,by simp [hid]⟩)⟩

/-- A record without a commit is not seen by the recovery. -/
theorem not_settles_of_record {env' : PstEnv} (hfault : ∀ t, env'.fault t = none)
    {newRow oldRow : PstImport} (hpair : d.db.tables.Activatable newRow oldRow) {d' : PstDisk}
    (hdb : d'.db = d.db) (hrecord : hasCommitRecord (d'.manifests u).events = true) (tick : Nat) :
    ¬ RecoverySettles env' d d' u newRow.id oldRow.id tick := by
  rintro ⟨w,hrun,n,o,hn,ho,hsettled⟩
  obtain ⟨w',hrun',hc,hm⟩ := recover_keeps hfault (.inl hrecord) tick
  cases hrun'.symm.trans hrun
  have hmem := hsettled.memNew
  rw [hc,hdb] at hmem
  have hactive := hsettled.manifest
  rw [hm,hrecord,d.db.valid.import_eq hmem hpair.memNew hn,hpair.inactive] at hactive
  cases hactive

/-- A switch that is interrupted anywhere is settled by the recovery, unless the record of its
commit outlives the crash and the commit itself was not reached. -/
theorem switch_recovery_iff {env' : PstEnv} (hfault : ∀ t, env'.fault t = none)
    {newRow oldRow : PstImport} (hpair : d.db.tables.Activatable newRow oldRow) (tick tick' : Nat)
    {d' : PstDisk}
    (hd : (switchGeneration env gated newRow.id u oldRow.id old (d.opened tick)).2.Survives d') :
    RecoverySettles env' d d' u newRow.id oldRow.id tick' ↔
      ¬ (hasCommitRecord (d'.manifests u).events = true ∧
        ∀ db, .commit db ∉
          (switchGeneration env gated newRow.id u oldRow.id old (d.opened tick)).2.log) := by
  obtain ⟨s,hs,hw⟩ := switchGeneration_stopped d u old env gated newRow.id oldRow.id tick
  rcases hs with hs | hs
  · -- The database is as it was.
    obtain ⟨hdb,hlog⟩ := hs.survivor hw hd
    constructor
    · exact fun hsettles ⟨hrecord,_⟩ => not_settles_of_record hfault hpair hdb hrecord tick' hsettles
    · intro hcondition
      have hrecord : hasCommitRecord (d'.manifests u).events = false := by
        rw [← Bool.not_eq_true]
        exact fun h => hcondition ⟨h,hlog⟩
      have hrows : ∃ n ∈ d'.db.tables.imports, ∃ o ∈ d'.db.tables.imports, n.id = newRow.id ∧
          o.id = oldRow.id ∧ n.replacesId = some oldRow.id ∧ n.isActive = false ∧
            o.isActive = true := by
        rw [hdb]
        exact ⟨newRow,hpair.memNew,oldRow,hpair.memOld,rfl,rfl,hpair.replaces,hpair.inactive,
          hpair.active⟩
      obtain ⟨w',hrun,hc,hm⟩ := recover_keeps hfault (.inr hrows) tick'
      refine ⟨w',hrun,newRow,oldRow,rfl,rfl,?_⟩
      constructor
      · rw [hc,hdb]
        exact hpair.memNew
      · rw [hc,hdb]
        exact hpair.memOld
      · rw [hpair.inactive,hpair.active]
        rfl
      · exact .inl ⟨hpair.inactive,by rw [hc,hdb]⟩
      · rw [hm,hrecord,hpair.inactive]
  · -- The database has the switch, and the flushed record says so.
    obtain ⟨hrecord,⟨c,hlog⟩,now,db,hdb,audit,haudit⟩ := hs.survivor hw hd
    obtain ⟨w',hrun,hc,hm⟩ := recover_keeps hfault (.inl hrecord) tick'
    refine ⟨fun _ h => h.2 c hlog,fun _ => ?_⟩
    obtain ⟨n,o,hno,hn,ho,htables⟩ := PstRepository.activateGeneration_ok_iff.mp hdb
    obtain ⟨hnew,hold⟩ := Activatable.rows_exchanged d.db.valid hpair now
    refine ⟨w',hrun,newRow.activated,oldRow.superseded now,rfl,rfl,?_⟩
    constructor
    · rw [hc,haudit,htables]
      exact hnew
    · rw [hc,haudit,htables]
      exact hold
    · rfl
    · refine .inr ⟨rfl,now,?_⟩
      rw [hc,haudit,htables]
      rfl
    · rw [hm,hrecord]
      rfl

end

/-! ## A crash at the commit -/

/-- The disk when a crash loses nothing. -/
def PstWorld.disk (w : PstWorld) : PstDisk := ⟨w.committed,w.manifests,w.staging,w.files⟩

theorem PstWorld.survives_disk {w : PstWorld}
    (h : ∀ u, w.flushed u ≤ (w.manifests u).events.length) : w.Survives w.disk :=
  ⟨rfl,rfl,rfl,fun u => ⟨_,List.prefix_rfl,h u,rfl⟩⟩

theorem At.flushed_le {d : PstDisk} {u : String} {s : Spot} {w : PstWorld} (h : At d u s w)
    (hflushed : w.flushed u ≤ (w.manifests u).events.length) (v : String) :
    w.flushed v ≤ (w.manifests v).events.length := by
  by_cases hv : v = u
  · rw [hv]
    exact hflushed
  · rw [h.flushed v hv,h.manifests v hv]

theorem At.survives_disk {d : PstDisk} {u : String} {s : Spot} {w : PstWorld} (h : At d u s w)
    (hflushed : w.flushed u ≤ (w.manifests u).events.length) : w.Survives w.disk :=
  PstWorld.survives_disk (h.flushed_le hflushed)

/-- An active generation without items and a finished one to replace it. -/
def replacedImport : PstImport where
  id := 1
  importUuid := "u1"
  accountId := "pst_a"
  sourceFilename := "a.pst"
  sourceSha256 := "a"
  status := .completed
  isActive := true

def replacingImport : PstImport :=
  { replacedImport with
    id := 2, importUuid := "u2", accountId := "pst_b", isActive := false, replacesId := some 1 }

def replacementDisk : PstDisk where
  db := ⟨{ mail := { accounts := [{ id := "pst_a" },{ id := "pst_b" }] }
           imports := [replacedImport,replacingImport]
           nextImportId := 3 },by decide⟩
  manifests := Function.update (fun _ => {}) "u2" {
    importJson := some [("import_uuid",.str "u2"),("account_id",.str "pst_b")]
    folders := some []
    events := [⟨"u2","t",.importReady 0 "" ""⟩] }

/-- An environment in which the process ends at a tick, if at all. -/
def crashingEnv (crashAt : Option Nat) : PstEnv where
  sha256 _ := ""
  stagedMessage _ := {}
  clock _ := "t"
  uuid _ := ""
  fault t := if crashAt = some t then some .crash else none

theorem replacementDisk_activatable :
    replacementDisk.db.tables.Activatable replacingImport replacedImport := by
  constructor <;> decide

/-- What a crash leaves when it takes every event that was not flushed. -/
def PstWorld.flushedDisk (w : PstWorld) : PstDisk where
  db := w.committed
  manifests importUuid := { w.manifests importUuid with
    events := (w.manifests importUuid).events.take (w.flushed importUuid) }
  staging := w.staging
  files := w.files

theorem PstWorld.survives_flushedDisk {w : PstWorld}
    (h : ∀ u, w.flushed u ≤ (w.manifests u).events.length) : w.Survives w.flushedDisk :=
  ⟨rfl,rfl,rfl,fun u => ⟨_,List.take_prefix ..,by rw [List.length_take,Nat.min_eq_left (h u)],rfl⟩⟩

/-- The hash of every file. -/
def oneHash : String := "aaaaaaaaaaaaaaaaaaaaaaaaaaaaaaaaaaaaaaaaaaaaaaaaaaaaaaaaaaaaaaaa"

/-- The message of a generation. -/
def generationMessage (id : Nat) (accountId relativePath : String) (state : LocalState) : Message where
  id := id
  accountId := accountId
  messageId := none
  contentKey := ""
  sourceItemKey := .legacy "k"
  localState := state
  relativePath := some relativePath
  fileHash := some oneHash
  envelope := {}
  sizeBytes := some 0

def generationItem (importId : Nat) (finalRelativePath : String) : PstItem where
  importId := importId
  sourceItemKey := "k"
  sourceRelativePath := "f/k.eml"
  folderRelativePath := "f"
  sourceSizeBytes := 0
  sourceSha256 := oneHash
  finalRelativePath := some finalRelativePath
  messageRowId := some importId
  status := .completed

def generationManifest (importUuid accountId finalRelativePath : String) : PstManifest where
  importJson := some [("import_uuid",.str importUuid),("account_id",.str accountId)]
  folders := some []
  events := [⟨importUuid,"t",.itemDiscovered ⟨"k","f/k.eml","f",0,oneHash⟩⟩,
    ⟨importUuid,"t",.importReady 1 "" ""⟩,
    ⟨importUuid,"t",.itemSaved "k" finalRelativePath oneHash 0⟩]

/-- An active generation with a message and a finished one, with a message too, to replace it. -/
def messagesDisk : PstDisk where
  db := ⟨{ mail := { accounts := [{ id := "pst_a" },{ id := "pst_b" }]
                     folders := [
                       { id := 1, accountId := "pst_a", rawName := "f", displayName := "f" },
                       { id := 2, accountId := "pst_b", rawName := "f", displayName := "f" }]
                     messages := [generationMessage 1 "pst_a" "p" .active,
                       generationMessage 2 "pst_b" "q" .trashed]
                     nextFolderId := 3
                     nextMessageId := 3 }
           remoteStates := [(1,.noRemote),(2,.noRemote)]
           imports := [replacedImport,replacingImport]
           items := [generationItem 1 "p",generationItem 2 "q"]
           nextImportId := 3 },by decide⟩
  manifests := Function.update (Function.update (fun _ => {}) "u1"
    (generationManifest "u1" "pst_a" "p")) "u2" (generationManifest "u2" "pst_b" "q")
  files := [("p",[]),("q",[])]

def crashingMail (crashAt : Option Nat) : PstEnv :=
  { crashingEnv crashAt with sha256 := fun _ => oneHash }

theorem messagesDisk_activatable :
    messagesDisk.db.tables.Activatable replacingImport replacedImport := by
  constructor <;> decide

/-- What a switch leaves whose process ends between the append of the record and its flush. -/
def unflushedSwitch : PstWorld :=
  (switchGeneration (crashingMail (some 16)) true 2 "u2" 1 "u1" (messagesDisk.opened 0)).2

/-- The record of the commit is lost with the crash, and the recovery undoes the switch. -/
theorem switch_recovery_lost_record :
    hasCommitRecord (unflushedSwitch.manifests "u2").events = true ∧
      unflushedSwitch.Survives unflushedSwitch.flushedDisk ∧
      RecoverySettles (crashingMail none) messagesDisk unflushedSwitch.flushedDisk "u2" 2 1 0 := by
  obtain ⟨s,-,hw⟩ :=
    switchGeneration_stopped messagesDisk "u2" "u1" (crashingMail (some 16)) true 2 1 0
  have hsurvives : unflushedSwitch.Survives unflushedSwitch.flushedDisk :=
    PstWorld.survives_flushedDisk (hw.flushed_le (by decide +kernel))
  have hlost : ¬ hasCommitRecord (unflushedSwitch.flushedDisk.manifests "u2").events = true := by
    decide +kernel
  exact ⟨by decide +kernel,hsurvives,(@switch_recovery_iff messagesDisk "u2" "u1"
    (crashingMail (some 16)) true (crashingMail none) (fun _ => rfl) replacingImport replacedImport
    messagesDisk_activatable 0 0 _ hsurvives).mpr fun h => hlost h.1⟩

/-- The process ends between the flush of the record and the commit of the database: the manifest
names the new generation and the database the old one, and the recovery leaves it so. -/
theorem switch_crash_not_recovered :
    replacementDisk.db.tables.Activatable replacingImport replacedImport ∧
    (switchGeneration (crashingEnv none) true 2 "u2" 1 "u1" (replacementDisk.opened 0)).1 =
      .ok ⟨2,"u2",0,0⟩ ∧
    (switchGeneration (crashingEnv (some 18)) true 2 "u2" 1 "u1" (replacementDisk.opened 0)).1 =
      .error .crash ∧
    ∃ d', (switchGeneration (crashingEnv (some 18)) true 2 "u2" 1 "u1"
        (replacementDisk.opened 0)).2.Survives d' ∧
      ¬ RecoverySettles (crashingEnv none) replacementDisk d' "u2" 2 1 0 := by
  refine ⟨replacementDisk_activatable,by decide +kernel,by decide +kernel,?_⟩
  obtain ⟨s,-,hw⟩ := switchGeneration_stopped replacementDisk "u2" "u1" (crashingEnv (some 18)) true 2 1 0
  refine ⟨_,hw.survives_disk (by decide +kernel),?_⟩
  exact not_settles_of_record (fun _ => rfl) replacementDisk_activatable (by decide +kernel)
    (by decide +kernel) 0

end MailDock
