import MailDock.Pst.Recovery
import MailDock.Pst.Trash

/-!
# Histories of a generation

The operations on the generations of a disk, each run in an environment of its own and stopped
anywhere, and what one of them leaves.

## Main definitions

- `PstOp` — an operation on a generation or on its messages
- `OpStep` — one operation, and what a crash leaves of it

## Main results

- `restoreGeneration_stops`, `recoverGenerationSwitch_stops`
- `trashPst_keeps`, `untrashPst_keeps`, `purgePst_keeps`
-/

namespace MailDock

open Hoare

/-! ## Where a restore may stop -/

section
variable (d : PstDisk) (u old : String)

/-- Before the database commit. -/
structure Unrestored (s : Spot) : Prop extends SwitchFrame d u s where
  committed : s.committed = d.db
  flushed : (d.manifests u).events.length ≤ s.flushed
  events : s.manifest.events = (d.manifests u).events ∨
    Recorded u (d.manifests u).events (.generationRestored u old) s.manifest.events

/-- After it. -/
structure HasRestored (env : PstEnv) (importId : Nat) (s : Spot) : Prop
    extends SwitchFrame d u s where
  verified : ∃ v, verification env d.db.tables (d.manifests u) d.files importId u true = .ok v
  committed : ∃ now db, d.db.restoreGeneration now importId = .ok db ∧
    db.tables.AuditedFrom s.committed.tables
  flushed : s.manifest.events.length ≤ s.flushed
  events : Recorded u (d.manifests u).events (.generationRestored u old) s.manifest.events

end

section
variable {d : PstDisk} {u old : String} {env : PstEnv} {gated : Bool}

/-- The transaction of a restore. -/
theorem restore_transaction (importId : Nat) :
    Triple (At d u { d.spot u with inBatch := true }) (do
        ensureWriteAllowed env gated
        let now ← pstTimestamp env
        writePst env (PstRepository.restoreGeneration now importId)
        ensureWriteAllowed env gated
        appendPst env u (.generationRestored u old)
        ensureWriteAllowed env gated
        flushPst env u
        ensureWriteAllowed env gated
        commitPstBatch env)
      (fun _ w => ∃ now db recorded, At d u
          (((({ d.spot u with inBatch := true, db := db }).withEvents recorded).flushedAll).batchCommitted)
          w ∧ d.db.restoreGeneration now importId = .ok db ∧
        Recorded u (d.manifests u).events (.generationRestored u old) recorded)
      fun _ w => ∃ s, Unrestored d u old s ∧ At d u s w := by
  have hs : ∀ db, Unrestored d u old { d.spot u with inBatch := true, db := db } :=
    fun db => ⟨⟨rfl,rfl,rfl,rfl⟩,rfl,le_rfl,.inl rfl⟩
  refine (At.ensure_rule.weaken_error fun f w h => ⟨_,hs d.db,h.1⟩).seq fun _ => ?_
  refine At.timestamp_rule.seq fun now => ?_
  refine (At.write_rule.weaken_error fun f w h => ⟨_,hs d.db,h.1⟩).seq fun _ =>
    Triple.choose fun db => Triple.assume fun hdb => ?_
  refine (At.ensure_rule.weaken_error fun f w h => ⟨_,hs db,h.1⟩).seq fun _ => ?_
  refine (At.append_rule.weaken_error fun f w h => ⟨_,hs db,h.1⟩).seq fun _ =>
    Triple.choose fun recorded => Triple.assume fun hrecorded => ?_
  have hrecorded' : ∀ n, (d.manifests u).events.length ≤ n → Unrestored d u old
      { ({ d.spot u with inBatch := true, db := db }).withEvents recorded with flushed := n } :=
    fun n hn => ⟨⟨rfl,rfl,rfl,rfl⟩,rfl,hn,.inr hrecorded⟩
  have hlength := hrecorded.isPrefix.length_le
  refine (At.ensure_rule.weaken_error fun f w h => ⟨_,hrecorded' _ le_rfl,h.1⟩).seq fun _ => ?_
  refine (At.flush_rule.weaken_error fun f w h => ⟨_,hrecorded' _ le_rfl,h.1⟩).seq fun _ => ?_
  refine (At.ensure_rule.weaken_error fun f w h => ⟨_,hrecorded' _ hlength,h.1⟩).seq fun _ => ?_
  refine (At.commit_rule.weaken_error fun f w h => ⟨_,hrecorded' _ hlength,h.1⟩).strengthen_post ?_
  exact fun _ w hw => ⟨now,db,recorded,hw,hdb,hrecorded⟩

/-- A restore stopped at some spot. -/
def RestoreStopped (d : PstDisk) (u old : String) (env : PstEnv) (importId : Nat) (w : PstWorld) :
    Prop :=
  ∃ s, (Unrestored d u old s ∨ HasRestored d u old env importId s) ∧ At d u s w

theorem restoreGeneration_stops (importId : Nat) :
    Triple (At d u (d.spot u)) (restoreGeneration env gated importId u old)
      (fun _ w => ∃ s, HasRestored d u old env importId s ∧ At d u s w)
      fun _ => RestoreStopped d u old env importId := by
  have hstop : ∀ {s w}, Unrestored d u old s → At d u s w → RestoreStopped d u old env importId w :=
    fun hs hw => ⟨_,.inl hs,hw⟩
  have hstart : Unrestored d u old (d.spot u) := ⟨⟨rfl,rfl,rfl,rfl⟩,rfl,le_rfl,.inl rfl⟩
  refine (At.verify_rule.weaken_error fun f w h => hstop hstart h.1).seq fun verified =>
    Triple.assume fun hverified => ?_
  refine (At.ensure_rule.weaken_error fun f w h => hstop hstart h.1).seq fun _ => ?_
  refine ((At.begin_rule rfl).weaken_error fun f w h => hstop hstart h.1).seq fun _ => ?_
  refine Triple.seq (catching_rule (restore_transaction importId) ?_ ?_) fun _ =>
    Triple.choose fun now => Triple.choose fun db => Triple.choose fun recorded =>
      Triple.assume fun ⟨hdb,hrecorded⟩ => ?_
  · intro e
    refine Triple.choose fun s => Triple.weaken_pre (Triple.assume (P := At d u s) fun hs => ?_)
      fun w h => ⟨h.2,h.1⟩
    refine (At.rollback_rule.weaken_error fun f w h => hstop hs h.1).seq fun _ => ?_
    have hrolled : Unrestored d u old s.rolledBack := { hs with }
    exact Triple.raise fun w hw => hstop hrolled hw
  · exact fun w ⟨s,hs,hw⟩ => hstop hs hw
  have hdone : ∀ (c : PstRepository) (cs : List PstRepository), db.tables.AuditedFrom c.tables →
      HasRestored d u old env importId ⟨c,c,false,{ d.manifests u with events := recorded },
        recorded.length,d.staging,d.files,cs⟩ :=
    fun _ _ hc => ⟨⟨rfl,rfl,rfl,rfl⟩,⟨verified,hverified⟩,⟨now,db,hdb,hc⟩,le_rfl,hrecorded⟩
  have hcommitted := hdone db [db] ⟨db.tables.mail.auditLog,rfl⟩
  refine (At.query_rule.weaken_error fun f w h => ⟨_,.inr hcommitted,h.1⟩).seq fun restored =>
    Triple.assume fun _ => ?_
  cases restored with
  | none => exact Triple.raise fun w hw => ⟨_,.inr hcommitted,hw⟩
  | some restored =>
    refine (At.ensure_rule.weaken_error fun f w h => ⟨_,.inr hcommitted,h.1⟩).seq fun _ => ?_
    refine (At.audit_rule.weaken_error fun f w h => ⟨_,.inr hcommitted,h.1⟩).seq fun _ =>
      Triple.choose fun audited => Triple.assume fun haudited => ?_
    exact Triple.ret fun w hw => ⟨_,hdone audited [audited,db] haudited,hw⟩

theorem restoreGeneration_stopped (d : PstDisk) (u old : String) (env : PstEnv) (gated : Bool)
    (importId tick : Nat) : RestoreStopped d u old env importId
      (restoreGeneration env gated importId u old (d.opened tick)).2 := by
  refine Triple.final (R := RestoreStopped d u old env importId) ?_ (d.at_opened u tick)
  refine (restoreGeneration_stops importId).strengthen_post ?_
  exact fun _ w ⟨s,hs,hw⟩ => ⟨s,.inr hs,hw⟩

/-- A recovery stops with the database as it was or with the switch rolled back, and the manifest
untouched. -/
theorem recoverGenerationSwitch_stops (importId replacesId : Nat) :
    Triple (At d u (d.spot u)) (recoverGenerationSwitch env importId u replacesId)
      (fun _ w => ∃ s, At d u s w ∧ s.manifest = d.manifests u ∧
        s.flushed = (d.manifests u).events.length ∧ (s.committed = d.db ∨
          ∃ now, d.db.rollbackGenerationSwitch now importId replacesId = .ok s.committed ∧
            hasCommitRecord (d.manifests u).events = false))
      fun _ w => At d u (d.spot u) w := by
  refine (At.events_rule.weaken_error fun f w h => h.1).seq fun events =>
    Triple.assume fun hevents => ?_
  subst hevents
  split
  · next hopen =>
    rw [Bool.and_eq_true,Bool.not_eq_true'] at hopen
    refine At.timestamp_rule.seq fun now => ?_
    refine (At.write_rule.weaken_error fun f w h => h.1).strengthen_post ?_
    intro _ w ⟨db,hw,hdb⟩
    exact ⟨_,hw,rfl,rfl,.inr ⟨now,hdb,hopen.2⟩⟩
  · exact Triple.ret fun w hw => ⟨_,hw,rfl,rfl,.inl rfl⟩

end

theorem recoverGenerationSwitch_stopped (d : PstDisk) (u : String) (env : PstEnv)
    (importId replacesId tick : Nat) :
    ∃ s, At d u s (recoverGenerationSwitch env importId u replacesId (d.opened tick)).2 ∧
      s.manifest = d.manifests u ∧ s.flushed = (d.manifests u).events.length ∧
      (s.committed = d.db ∨
        ∃ now, d.db.rollbackGenerationSwitch now importId replacesId = .ok s.committed ∧
          hasCommitRecord (d.manifests u).events = false) := by
  refine Triple.final (R := fun w => ∃ s, At d u s w ∧ s.manifest = d.manifests u ∧
    s.flushed = (d.manifests u).events.length ∧ (s.committed = d.db ∨
      ∃ now, d.db.rollbackGenerationSwitch now importId replacesId = .ok s.committed ∧
        hasCommitRecord (d.manifests u).events = false)) ?_ (d.at_opened u tick)
  refine (recoverGenerationSwitch_stops importId replacesId).weaken_error ?_
  exact fun _ w hw => ⟨_,hw,rfl,rfl,.inl rfl⟩

/-! ## What the operations on single messages keep -/

section
variable {d : PstDisk} {u : String} {J : PstTables → Prop} {K : String → List PstEvent → Prop} {env : PstEnv}

theorem setPstLocalState_keeps {id : Nat} {state : LocalState} {trashedAt : Option String}
    (h : ∀ repo : PstRepository, J repo.tables →
      J { repo.tables with mail := repo.tables.mail.setLocalState id state trashedAt }) :
    Triple (Keeping d J K) (setPstLocalState env id state trashedAt) (fun _ => Keeping d J K)
      fun _ => Keeping d J K := by
  refine Keeping.write_rule fun repo db hrepo hdb => ?_
  rw [PstRepository.exec_eq_ok.mp hdb]
  exact h repo hrepo

theorem trashPst_keeps {ids : List Nat} {trashedAt : String}
    (h : ∀ id ∈ ids, ∀ repo : PstRepository, J repo.tables →
      J { repo.tables with mail := repo.tables.mail.setLocalState id .trashed (some trashedAt) }) :
    Triple (Keeping d J K) (trashPst env ids trashedAt) (fun _ => Keeping d J K)
      fun _ => Keeping d J K := by
  refine Triple.accumulate (I := fun _ => Keeping d J K) ids (fun result id hid => ?_) _
  refine Keeping.query_rule.seq fun record => Triple.assume fun _ => ?_
  split
  · exact Triple.ret fun w hw => hw
  · split
    · exact Triple.ret fun w hw => hw
    · exact Triple.ret fun w hw => hw
    · exact (setPstLocalState_keeps (h id hid)).seq fun _ => Triple.ret fun w hw => hw

theorem untrashPst_keeps {ids : List Nat}
    (h : ∀ id ∈ ids, ∀ repo : PstRepository, J repo.tables →
      J { repo.tables with mail := repo.tables.mail.setLocalState id .active none }) :
    Triple (Keeping d J K) (untrashPst env ids) (fun _ => Keeping d J K)
      fun _ => Keeping d J K := by
  refine Triple.accumulate (I := fun _ => Keeping d J K) ids (fun result id hid => ?_) _
  refine Keeping.query_rule.seq fun record => Triple.assume fun _ => ?_
  split
  · exact Triple.ret fun w hw => hw
  · split
    · exact (setPstLocalState_keeps (h id hid)).seq fun _ => Triple.ret fun w hw => hw
    · exact Triple.ret fun w hw => hw

/-- An invariant of the tables that every statement of a purge keeps. -/
structure PurgeKeeps (J : PstTables → Prop) : Prop where
  contents : ∀ t id, J t → J { t with mail := t.mail.deleteMessageContents id }
  storage : ∀ t id, J t → J { t with mail := t.mail.updateMessageStorage id none none }
  state : ∀ t id, J t → J { t with mail := t.mail.setLocalState id .purged none }
  audit : ∀ t entry, J t → J { t with mail := t.mail.recordAudit entry }

theorem finishPstPurge_keeps (h : PurgeKeeps J) (message : Message) (physicalDelete : Bool) :
    Triple (Keeping d J K) (finishPstPurge env message physicalDelete)
      (fun _ => Keeping d J K) fun _ => Keeping d J K := by
  refine Keeping.begin_rule.seq fun _ => ?_
  refine (Keeping.write_rule fun repo db hrepo hdb => ?_).seq fun _ => ?_
  · rw [PstRepository.exec_eq_ok.mp hdb]
    exact h.contents _ _ hrepo
  refine (Keeping.write_rule fun repo db hrepo hdb => ?_).seq fun _ => ?_
  · rw [PstRepository.exec_eq_ok.mp hdb]
    exact h.storage _ _ hrepo
  refine (setPstLocalState_keeps fun repo => h.state _ _).seq fun _ => ?_
  refine Keeping.query_rule.seq fun audited => Triple.assume fun _ => ?_
  split
  · exact Keeping.commit_rule
  · refine Keeping.timestamp_rule.seq fun now => ?_
    refine (Keeping.write_rule fun repo db hrepo hdb => ?_).seq fun _ => Keeping.commit_rule
    rw [PstRepository.exec_eq_ok.mp hdb]
    exact h.audit _ _ hrepo

theorem deletePst_keeps (relativePath : String) :
    Triple (Keeping d J K) (deletePst env relativePath) (fun _ => Keeping d J K)
      fun _ => Keeping d J K := by
  refine Keeping.call_rule.seq fun _ => ?_
  refine (Triple.read (Q := fun _ => Keeping d J K) fun w hw => hw).seq fun w => ?_
  split
  · refine Keeping.call_rule.seq fun _ => ?_
    exact (Triple.write (Q := fun _ => Keeping d J K) fun w hw => { hw with }).seq fun _ =>
      Triple.ret fun w hw => hw
  · exact Triple.ret fun w hw => hw

theorem completePstPurge_keeps (h : PurgeKeeps J)
    (hK : ∀ p events events', K u events → (Recorded u events (.purgeIntent p) events' ∨
      Recorded u events (.purged p) events') → K u events') (message : Message) :
    Triple (Keeping d J K) (completePstPurge env u message) (fun _ => Keeping d J K)
      fun _ => Keeping d J K := by
  unfold completePstPurge
  split
  · split
    · exact Triple.ret fun w hw => hw
    · refine Keeping.query_rule.seq fun count => Triple.assume fun _ => ?_
      refine (Keeping.append_rule fun _ _ hk hr => hK _ _ _ hk (.inl hr)).seq fun _ => ?_
      refine Keeping.flush_rule.seq fun _ => ?_
      refine Triple.seq (Q := fun _ => Keeping d J K) ?_ fun deleted => ?_
      · split
        · exact deletePst_keeps _
        · exact Triple.ret fun w hw => hw
      refine (Keeping.append_rule fun _ _ hk hr => hK _ _ _ hk (.inr hr)).seq fun _ => ?_
      refine Keeping.flush_rule.seq fun _ => ?_
      exact (finishPstPurge_keeps h message _).seq fun _ => Triple.ret fun w hw => hw
  · exact Triple.ret fun w hw => hw

theorem purgePst_keeps (h : PurgeKeeps J)
    (hK : ∀ p events events', K u events → (Recorded u events (.purgeIntent p) events' ∨
      Recorded u events (.purged p) events') → K u events') (ids : List Nat) :
    Triple (Keeping d J K) (purgePst env u ids) (fun _ => Keeping d J K)
      fun _ => Keeping d J K := by
  refine Keeping.tick_rule.seq fun t => ?_
  split
  · refine Triple.seq (Q := fun _ => Keeping d J K) ?_ fun records => ?_
    · refine Triple.accumulate (I := fun _ => Keeping d J K) ids (fun records id _ => ?_) _
      exact Keeping.query_rule.seq fun _ => Triple.ret fun w hw => hw.1
    · refine Triple.accumulate (I := fun _ => Keeping d J K) records (fun result m _ => ?_) _
      unfold purgePstStep
      split
      · exact Triple.ret fun w hw => hw
      · refine (completePstPurge_keeps h hK m).seq fun r => ?_
        obtain ⟨completed,deleted,shared⟩ := r
        cases completed with
        | true => exact Triple.ret fun w hw => hw
        | false => exact Triple.ret fun w hw => hw
  · exact Triple.raise fun w hw => hw

end

/-! ## Operations -/

inductive PstOp
  | switchGeneration (gated : Bool) (importId : Nat) (importUuid : String) (replacesId : Nat)
      (replacesImportUuid : String)
  | restoreGeneration (gated : Bool) (importId : Nat) (importUuid supersededImportUuid : String)
  | recoverGenerationSwitch (importId : Nat) (importUuid : String) (replacesId : Nat)
  | trash (messageIds : List Nat) (trashedAt : String)
  | untrash (messageIds : List Nat)
  | purge (importUuid : String) (messageIds : List Nat)

/-- The world in which the operation ends or stops. -/
def PstOp.leaves (env : PstEnv) (w : PstWorld) : PstOp → PstWorld
  | switchGeneration gated importId importUuid replacesId replacesImportUuid =>
    (MailDock.switchGeneration env gated importId importUuid replacesId replacesImportUuid w).2
  | restoreGeneration gated importId importUuid supersededImportUuid =>
    (MailDock.restoreGeneration env gated importId importUuid supersededImportUuid w).2
  | recoverGenerationSwitch importId importUuid replacesId =>
    (MailDock.recoverGenerationSwitch env importId importUuid replacesId w).2
  | trash messageIds trashedAt => (trashPst env messageIds trashedAt w).2
  | untrash messageIds => (untrashPst env messageIds w).2
  | purge importUuid messageIds => (purgePst env importUuid messageIds w).2

/-- One operation on a disk, in any environment, to its end or to any point at which it stops, and
what a crash there leaves. -/
def OpStep (op : PstOp) (d d' : PstDisk) : Prop :=
  ∃ env tick, (op.leaves env (d.opened tick)).Survives d'

end MailDock
