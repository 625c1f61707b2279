import MailDock.App.Rules
import MailDock.Trash.Durable

/-!
# Crashes during a purge

An operation starts on what is on disk and may stop after any of its effects.  What a
crash leaves behind are the committed database, the files, the flushed events and
perhaps some of those that were appended after them.  `At` describes a point of an
operation where nothing is half done; the rules say how the calls of a purge lead from
one such point to the next, with every disk in between a `Durable` one.

## Main definitions

- `Disk`, `Disk.Crashed` — what is on disk, and what a crash may leave of it
- `Stopped`, `At` — the invariant at any point, and between two calls
-/

namespace MailDock

open Hoare Trace

/-- The files at a point of the log, for a run that started with `start`. -/
def filesAfter (start : List (String × Bytes)) : List Effect → List (String × Bytes)
  | [] => start
  | .save relativePath raw :: before => (relativePath,raw) :: filesAfter start before
  | .unlink relativePath :: before =>
    (filesAfter start before).filter fun f => f.1 != relativePath
  | _ :: before => filesAfter start before

structure Disk where
  db : Repository
  manifest : List ManifestEvent
  files : List (String × Bytes)
deriving DecidableEq

/-- The world an operation starts in. -/
def Disk.opened (d : Disk) (lastCheckpointSequence : Option Nat) (tick : Nat) : World :=
  World.opened d.db d.manifest lastCheckpointSequence d.files tick

def World.disk (w : World) : Disk := ⟨w.committed,w.manifest,w.files⟩

/-- The events flushed so far, oldest first. -/
def durableEvents (log : List Effect) : List ManifestEvent := (flushedEvents log).reverse

/-- What is flushed was appended first. -/
theorem flushedEvents_suffix (log : List Effect) : flushedEvents log <:+ appendedEvents log := by
  induction log with
  | nil => exact List.suffix_rfl
  | cons e before ih =>
    cases e with
    | flush => exact List.suffix_rfl
    | append event => exact ih.trans (List.suffix_cons event _)
    | _ => exact ih

/-- A crash keeps what is durable and any beginning of what was appended after it. -/
structure Disk.Crashed (d : Disk) (log : List Effect) (d' : Disk) : Prop where
  db : d'.db = committedDb d.db log
  files : d'.files = filesAfter d.files log
  manifest : ∃ kept, durableEvents log <+: kept ∧ kept <+: (appendedEvents log).reverse ∧
    d'.manifest = d.manifest ++ kept

/-- A crash may lose everything that is not durable. -/
theorem Disk.crashed_durable (d : Disk) (log : List Effect) :
    d.Crashed log ⟨committedDb d.db log,d.manifest ++ durableEvents log,filesAfter d.files log⟩ :=
  ⟨rfl,rfl,durableEvents log,List.prefix_rfl,List.reverse_prefix.mpr (flushedEvents_suffix log),rfl⟩

def Disk.Durable (d : Disk) : Prop := Trash.Durable d.db.tables.messages d.manifest d.files

namespace Trash

/-- A file is only deleted when every message that refers to it is purged or has a durable
intent. -/
def UnlinkGuard (d : Disk) (before : List Effect) : Effect → Prop
  | .unlink relativePath => ∀ m ∈ (committedDb d.db before).tables.messages,
    m.relativePath = some relativePath → m.localState = .purged ∨
      ∃ i, .purgeIntent i ∈ d.manifest ++ durableEvents before ∧ i.isOf m ∧
        i.relativePath = relativePath
  | _ => True

/-- At any point of an operation: every crash so far would have left a durable disk. -/
structure Stopped (d : Disk) (w : World) : Prop where
  sound : ∀ log', log' <:+ w.log → ∀ d', d.Crashed log' d' → d'.Durable
  guarded : Always (UnlinkGuard d) w.log

/-- Every event is flushed, and the disk holds this database and these files. -/
structure Saved (d : Disk) (db : Repository) (events : List ManifestEvent)
    (files : List (String × Bytes)) (w : World) : Prop extends Stopped d w where
  committed : w.committed = db
  logDb : committedDb d.db w.log = db
  manifest : w.manifest = events
  durable : d.manifest ++ durableEvents w.log = events
  flushed : appendedEvents w.log = flushedEvents w.log
  stored : w.files = files
  logFiles : filesAfter d.files w.log = files

/-- Between two calls outside a batch. -/
structure At (d : Disk) (db : Repository) (events : List ManifestEvent)
    (files : List (String × Bytes)) (w : World) : Prop extends Saved d db events files w where
  inBatch : w.inBatch = false
  current : w.db = db

/-- Between two calls of a batch, whose writes made the database `db'`. -/
structure InBatch (d : Disk) (db : Repository) (events : List ManifestEvent)
    (files : List (String × Bytes)) (db' : Repository) (w : World) : Prop extends
    Saved d db events files w where
  inBatch : w.inBatch = true
  current : w.db = db'

section
variable {d : Disk} {db : Repository} {events : List ManifestEvent}
  {files : List (String × Bytes)} {w : World}

theorem Stopped.ticked (h : Stopped d w) : Stopped d w.ticked := ⟨h.sound,h.guarded⟩

/-- An effect is harmless when a crash after it leaves a durable disk. -/
theorem Stopped.cons {e : Effect} {w' : World} (h : Stopped d w) (hlog : w'.log = e :: w.log)
    (hguard : UnlinkGuard d w.log e) (hcrash : ∀ d', d.Crashed (e :: w.log) d' → d'.Durable) :
    Stopped d w' where
  sound := by
    intro log' hs d' hd
    rw [hlog] at hs
    rcases List.suffix_cons_iff.mp hs with rfl | hs
    · exact hcrash d' hd
    · exact h.sound log' hs d' hd
  guarded := by
    rw [hlog]
    exact ⟨hguard,h.guarded⟩

/-- A crash after an effect that leaves the manifest alone keeps every event. -/
theorem Saved.crashed {log : List Effect} (h : Saved d db events files w) {d' : Disk}
    (hd : d.Crashed log d') (happended : appendedEvents log = appendedEvents w.log)
    (hflushed : flushedEvents log = flushedEvents w.log) : d'.manifest = events := by
  obtain ⟨-,-,kept,hkept,hall,hmanifest⟩ := hd
  rw [happended,h.flushed] at hall
  rw [durableEvents,hflushed] at hkept
  have heq : kept = durableEvents w.log := hall.eq_of_length_le hkept.length_le
  rw [hmanifest,heq,h.durable]

theorem Saved.disk_durable (h : Saved d db events files w) :
    Durable db.tables.messages events files := by
  refine h.sound w.log List.suffix_rfl ⟨db,events,files⟩ ⟨h.logDb.symm,h.logFiles.symm,
    durableEvents w.log,List.prefix_rfl,?_,h.durable.symm⟩
  rw [h.flushed]
  exact List.prefix_rfl

theorem Saved.ticked (h : Saved d db events files w) : Saved d db events files w.ticked :=
  ⟨h.toStopped.ticked,h.committed,h.logDb,h.manifest,h.durable,h.flushed,h.stored,h.logFiles⟩

theorem At.ticked (h : At d db events files w) : At d db events files w.ticked :=
  ⟨h.toSaved.ticked,h.inBatch,h.current⟩

theorem InBatch.ticked {db' : Repository} (h : InBatch d db events files db' w) :
    InBatch d db events files db' w.ticked :=
  ⟨h.toSaved.ticked,h.inBatch,h.current⟩

/-- The start of an operation. -/
theorem At.opened (h : d.Durable) (last : Option Nat) (tick : Nat) :
    At d d.db d.manifest d.files (d.opened last tick) where
  sound := by
    intro log' hs d' hd
    cases List.suffix_nil.mp hs
    obtain ⟨hdb,hfiles,kept,-,hkept,hmanifest⟩ := hd
    cases List.prefix_nil.mp hkept
    have hd' : d' = d := by
      cases d
      cases d'
      cases hdb
      cases hfiles
      cases hmanifest
      simp
    rw [hd']
    exact h
  guarded := trivial
  inBatch := rfl
  current := rfl
  committed := rfl
  logDb := rfl
  manifest := rfl
  durable := List.append_nil _
  flushed := rfl
  stored := rfl
  logFiles := rfl

/-! ## The calls of a purge -/

/-- A call that only reads. -/
theorem At.query_rule {α : Type} {env : Env} {query : Tables → α} :
    Triple (At d db events files) (queryRepo env query)
      (fun a w => At d db events files w ∧ a = query db.tables) fun _ => Stopped d :=
  queryRepo_rule (fun w h => ⟨h.ticked,by rw [h.current]⟩) fun w e h _ => h.toStopped.ticked

theorem At.timestamp_rule {env : Env} :
    Triple (At d db events files) (timestamp env) (fun _ => At d db events files)
      fun _ => Stopped d :=
  MailDock.timestamp_rule fun _ _ h => h.ticked

/-- The point between an append and the flush that follows it. -/
theorem At.appended (h : At d db events files w) {e : ManifestEvent}
    (hdurable : Durable db.tables.messages (events ++ [e]) files) (last : Option Nat) :
    Stopped d (w.appended e last) := by
  refine h.toStopped.cons rfl trivial fun d' hd => ?_
  obtain ⟨hdb,hfiles,kept,hflushed,hkept,hmanifest⟩ := hd
  have hevents : d'.manifest = events ∨ d'.manifest = events ++ [e] := by
    have happended : (appendedEvents (.append e :: w.log)).reverse = durableEvents w.log ++ [e] := by
      rw [appendedEvents,List.reverse_cons,h.flushed,durableEvents]
    rw [happended] at hkept
    rw [hmanifest,← h.durable]
    rcases List.prefix_concat_iff.mp hkept with hall | hkept
    · rw [hall,← List.append_assoc]
      exact .inr rfl
    · rw [hkept.eq_of_length_le (show _ ≤ _ from hflushed.length_le)]
      exact .inl rfl
  have hmessages : d'.db = db := hdb.trans h.logDb
  have hfiles' : d'.files = files := hfiles.trans h.logFiles
  unfold Disk.Durable
  rw [hmessages,hfiles']
  rcases hevents with heq | heq
  · rw [heq]
    exact h.disk_durable
  · rw [heq]
    exact hdurable

theorem At.recorded (h : At d db events files w) {e : ManifestEvent}
    (hdurable : Durable db.tables.messages (events ++ [e]) files) (last : Option Nat) :
    At d db (events ++ [e]) files ((w.appended e last).ticked.logged .flush) := by
  have hevents : d.manifest ++ durableEvents (.flush :: .append e :: w.log) = events ++ [e] := by
    rw [durableEvents,flushedEvents,appendedEvents,List.reverse_cons,h.flushed,
      ← List.append_assoc]
    exact congrArg (· ++ [e]) h.durable
  have hflushed : appendedEvents (.flush :: .append e :: w.log) =
      flushedEvents (.flush :: .append e :: w.log) := rfl
  refine
  { toStopped := (h.appended hdurable last).ticked.cons rfl trivial fun d' hd => ?_
    inBatch := h.inBatch
    current := h.current
    committed := h.committed
    logDb := h.logDb
    manifest := congrArg (· ++ [e]) h.manifest
    durable := hevents
    flushed := hflushed
    stored := h.stored
    logFiles := h.logFiles }
  obtain ⟨hdb,hfiles,kept,hkept,hall,hmanifest⟩ := hd
  have hkept' : kept = durableEvents (.flush :: .append e :: w.log) :=
    hall.eq_of_length_le hkept.length_le
  have hmessages : d'.db = db := hdb.trans h.logDb
  have hfiles' : d'.files = files := hfiles.trans h.logFiles
  unfold Disk.Durable
  rw [hmessages,hfiles',hmanifest,hkept']
  exact hevents ▸ hdurable

/-- `append` and `flush_and_sync`, and what follows them. -/
theorem At.record_rule {α : Type} {env : Env} {e : ManifestEvent} {k : Unit → App α}
    {Q : α → World → Prop} (hdurable : Durable db.tables.messages (events ++ [e]) files)
    (hk : Triple (At d db (events ++ [e]) files) (k ()) Q fun _ => Stopped d) :
    Triple (At d db events files) (appendManifest env e >>= fun _ => flushAndSync env >>= k) Q
      fun _ => Stopped d := by
  refine (appendManifest_rule (Q := fun _ w' => ∃ w last, At d db events files w ∧
    w' = w.appended e last) (fun w last h _ => ⟨w.ticked,last,h.ticked,rfl⟩)
    fun w _ h _ => h.toStopped.ticked).seq fun _ => (flushAndSync_rule ?_ ?_).seq fun _ => hk
  · rintro _ ⟨w,last,h,rfl⟩
    exact h.recorded hdurable last
  · rintro _ _ ⟨w,last,h,rfl⟩ -
    exact (h.appended hdurable last).ticked

theorem At.exists_rule {env : Env} {relativePath : String} :
    Triple (At d db events files) (existsEml env relativePath)
      (fun found w => At d db events files w ∧ found = (files.lookup relativePath).isSome)
      fun _ => Stopped d := by
  refine (nextTick_rule (Q := fun _ => At d db events files) fun w h => h.ticked).seq fun t => ?_
  refine (localFault_rule (Q := fun _ => At d db events files) (fun _ h => h)
    fun w _ h _ => h.toStopped).seq fun _ => ?_
  intro w h
  exact ⟨h,by rw [← h.stored]⟩

/-- A file is deleted that no row but one with a durable intent refers to. -/
theorem At.delete_rule {env : Env} {relativePath : String}
    (hguard : ∀ m ∈ db.tables.messages, m.relativePath = some relativePath →
      m.localState = .purged ∨ ∃ i, .purgeIntent i ∈ events ∧ i.isOf m ∧
        i.relativePath = relativePath) :
    Triple (At d db events files) (deleteEml env relativePath)
      (fun _ => At d db events (files.filter fun f => f.1 != relativePath)) fun _ => Stopped d := by
  refine (nextTick_rule (Q := fun _ => At d db events files) fun w h => h.ticked).seq fun t => ?_
  refine (localFault_rule (Q := fun _ => At d db events files) (fun _ h => h)
    fun w _ h _ => h.toStopped).seq fun _ => Triple.write fun w h => ?_
  have hlogFiles : filesAfter d.files (.unlink relativePath :: w.log) =
      files.filter fun f => f.1 != relativePath := by
    rw [filesAfter,h.logFiles]
  refine
  { toStopped := h.toStopped.cons rfl ?_ fun d' hd => ?_
    inBatch := h.inBatch
    current := h.current
    committed := h.committed
    logDb := h.logDb
    manifest := h.manifest
    durable := h.durable
    flushed := h.flushed
    stored := congrArg (List.filter fun f : String × Bytes => f.1 != relativePath) h.stored
    logFiles := hlogFiles }
  · intro m hm hpath
    rw [h.logDb] at hm
    rw [h.durable]
    exact hguard m hm hpath
  · have hmanifest : d'.manifest = events := h.crashed hd rfl rfl
    have hmessages : d'.db = db := hd.db.trans h.logDb
    have hfiles : d'.files = _ := hd.files.trans hlogFiles
    unfold Disk.Durable
    rw [hmessages,hfiles,hmanifest]
    exact h.disk_durable.unlink relativePath

/-! Batches. -/

/-- A write that is not committed yet. -/
theorem Saved.logged_write (h : Saved d db events files w) (op : WriteOp) (db' : Repository) :
    Saved d db events files { w with db := db', log := .write op :: w.log } where
  toStopped := by
    refine h.toStopped.cons rfl trivial fun d' hd => ?_
    have hmessages : d'.db = db := hd.db.trans h.logDb
    have hfiles : d'.files = files := hd.files.trans h.logFiles
    unfold Disk.Durable
    rw [hmessages,hfiles,h.crashed hd rfl rfl]
    exact h.disk_durable
  committed := h.committed
  logDb := h.logDb
  manifest := h.manifest
  durable := h.durable
  flushed := h.flushed
  stored := h.stored
  logFiles := h.logFiles

/-- A commit of rows that keep the disk durable. -/
theorem Saved.logged_commit (h : Saved d db events files w) {db' : Repository}
    (hdurable : Durable db'.tables.messages events files) :
    At d db' events files
      { w with db := db', committed := db', inBatch := false, log := .commit db' :: w.log } where
  toStopped := by
    refine h.toStopped.cons rfl trivial fun d' hd => ?_
    have hmessages : d'.db = db' := hd.db
    have hfiles : d'.files = files := hd.files.trans h.logFiles
    unfold Disk.Durable
    rw [hmessages,hfiles,h.crashed hd rfl rfl]
    exact hdurable
  committed := rfl
  logDb := rfl
  manifest := h.manifest
  durable := h.durable
  flushed := h.flushed
  stored := h.stored
  logFiles := h.logFiles
  inBatch := rfl
  current := rfl

theorem At.begin_rule {env : Env} :
    Triple (At d db events files) (beginBatch env) (fun _ => InBatch d db events files db)
      fun _ => Stopped d := by
  refine beginBatch_rule (fun w h _ => ?_) fun w _ h _ => h.toStopped.ticked
  have hs := h.toSaved.ticked
  exact ⟨⟨⟨hs.sound,hs.guarded⟩,hs.committed,hs.logDb,hs.manifest,hs.durable,hs.flushed,hs.stored,
    hs.logFiles⟩,rfl,h.current⟩

theorem InBatch.write_rule {env : Env} {db' : Repository} {op : WriteOp} :
    Triple (InBatch d db events files db') (writeRepo env op)
      (fun _ w => ∃ db'', op.apply db' = .ok db'' ∧ InBatch d db events files db'' w)
      fun _ => Stopped d := by
  refine writeRepo_rule (fun w db'' h hop => ?_) fun w _ h _ => h.toStopped.ticked
  rw [h.current] at hop
  rw [World.written_inBatch (w := w.ticked) h.inBatch]
  exact ⟨db'',hop,h.toSaved.ticked.logged_write op db'',h.inBatch,rfl⟩

theorem InBatch.query_rule {α : Type} {env : Env} {db' : Repository} {query : Tables → α} :
    Triple (InBatch d db events files db') (queryRepo env query)
      (fun _ => InBatch d db events files db') fun _ => Stopped d :=
  queryRepo_rule (fun _ h => h.ticked) fun _ _ h _ => h.toStopped.ticked

theorem InBatch.timestamp_rule {env : Env} {db' : Repository} :
    Triple (InBatch d db events files db') (timestamp env)
      (fun _ => InBatch d db events files db') fun _ => Stopped d :=
  MailDock.timestamp_rule fun _ _ h => h.ticked

theorem InBatch.commit_rule {env : Env} {db' : Repository}
    (hdurable : Durable db'.tables.messages events files) :
    Triple (InBatch d db events files db') (commitBatch env) (fun _ => At d db' events files)
      fun _ => Stopped d := by
  refine commitBatch_rule (fun w h => ?_) fun w _ h _ => h.toStopped.ticked
  have hcommitted := h.toSaved.ticked.logged_commit hdurable
  rw [← h.current] at hcommitted ⊢
  exact hcommitted

/-- A write outside a batch. -/
theorem At.write_rule {env : Env} {op : WriteOp}
    (hdurable : ∀ db', op.apply db = .ok db' → Durable db'.tables.messages events files) :
    Triple (At d db events files) (writeRepo env op)
      (fun _ w => ∃ db', op.apply db = .ok db' ∧ At d db' events files w) fun _ => Stopped d := by
  refine writeRepo_rule (fun w db' h hop => ?_) fun w _ h _ => h.toStopped.ticked
  rw [h.current] at hop
  refine ⟨db',hop,?_⟩
  have hcommitted := (h.toSaved.ticked.logged_write op db').logged_commit (hdurable db' hop)
  have hwritten : w.ticked.written op db' = { w.ticked with
      db := db', committed := db', inBatch := false, log := .commit db' :: .write op :: w.log } := by
    have hbatch : w.ticked.inBatch = false := h.inBatch
    simp only [World.written,hbatch,Bool.false_eq_true,if_false]
    rfl
  rw [hwritten]
  exact hcommitted

end

end Trash

end MailDock
