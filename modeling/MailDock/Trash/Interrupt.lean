import MailDock.Trash.Crash
import MailDock.Storage.Quarantine

/-!
# Interrupted operations

An operation stops at whichever call fails, and the effects before that call stand.  What it
leaves are the committed database and, of the manifest, the flushed events and perhaps some of
those appended after them.  The rules here follow an operation from call to call for any property
of database and manifest: at every point a crash leaves the property true.

## Main definitions

- `Leaves`, `Survives` — what a crash leaves, and the property that holds of it
- `Between`, `Batch` — a point between two calls, outside and inside a batch
-/

namespace MailDock.Trash

open Hoare

/-- What a crash at this point leaves, for an operation that started with the events `start`. -/
structure Leaves (start : List ManifestEvent) (w : World) (db : Repository)
    (events : List ManifestEvent) : Prop where
  db : db = w.committed
  events : ∃ kept, durableEvents w.log <+: kept ∧ kept <+: (appendedEvents w.log).reverse ∧
    events = start ++ kept

/-- Whatever a crash leaves has the property. -/
def Survives (T : Repository → List ManifestEvent → Prop) (start : List ManifestEvent) (w : World) :
    Prop :=
  ∀ db events, Leaves start w db events → T db events

/-- Nothing is half done: `base` are the events at the beginning of this part of the operation,
`own` those of them it was given to read, and `new` the events it has written since. -/
structure Steady (T : Repository → List ManifestEvent → Prop) (start own base : List ManifestEvent)
    (db : Repository) (new : List ManifestEvent) (files : List (String × Bytes)) (w : World) :
    Prop where
  committed : w.committed = db
  manifest : w.manifest = own ++ new
  durable : start ++ durableEvents w.log = base ++ new
  flushed : appendedEvents w.log = flushedEvents w.log
  stored : w.files = files
  holds : T db (base ++ new)

structure Between (T : Repository → List ManifestEvent → Prop) (start own base : List ManifestEvent)
    (db : Repository) (new : List ManifestEvent) (files : List (String × Bytes)) (w : World) :
    Prop extends Steady T start own base db new files w where
  inBatch : w.inBatch = false
  current : w.db = db

/-- Inside a batch, whose writes made the database `db'`. -/
structure Batch (T : Repository → List ManifestEvent → Prop) (start own base : List ManifestEvent)
    (db : Repository) (new : List ManifestEvent) (files : List (String × Bytes)) (db' : Repository)
    (w : World) : Prop extends Steady T start own base db new files w where
  inBatch : w.inBatch = true
  current : w.db = db'

section
variable {T : Repository → List ManifestEvent → Prop} {start own base new : List ManifestEvent}
  {db db' : Repository} {files : List (String × Bytes)} {w : World} {env : Env}

theorem Leaves.ticked {events : List ManifestEvent} :
    Leaves start w.ticked db events ↔ Leaves start w db events :=
  ⟨fun h => ⟨h.db,h.events⟩,fun h => ⟨h.db,h.events⟩⟩

theorem Survives.ticked (h : Survives T start w) : Survives T start w.ticked :=
  fun db events hleaves => h db events (Leaves.ticked.mp hleaves)

theorem Steady.ticked (h : Steady T start own base db new files w) :
    Steady T start own base db new files w.ticked :=
  ⟨h.committed,h.manifest,h.durable,h.flushed,h.stored,h.holds⟩

theorem Between.ticked (h : Between T start own base db new files w) :
    Between T start own base db new files w.ticked :=
  ⟨h.toSteady.ticked,h.inBatch,h.current⟩

theorem Batch.ticked (h : Batch T start own base db new files db' w) :
    Batch T start own base db new files db' w.ticked :=
  ⟨h.toSteady.ticked,h.inBatch,h.current⟩

/-- With every event flushed, a crash keeps all of them. -/
theorem Steady.survives (h : Steady T start own base db new files w) : Survives T start w := by
  rintro db' events ⟨rfl,kept,hkept,hall,rfl⟩
  rw [h.flushed] at hall
  have heq : kept = durableEvents w.log := hall.eq_of_length_le hkept.length_le
  rw [heq,h.durable,h.committed]
  exact h.holds

theorem Steady.survives_ticked (h : Steady T start own base db new files w) :
    Survives T start w.ticked :=
  h.survives.ticked

/-- The start of an operation. -/
theorem Between.opened (d : Disk) (h : T d.db d.manifest) (last : Option Nat) (tick : Nat) :
    Between T d.manifest d.manifest d.manifest d.db [] d.files (d.opened last tick) where
  committed := rfl
  manifest := (List.append_nil _).symm
  durable := rfl
  flushed := rfl
  stored := rfl
  holds := by rwa [List.append_nil]
  inBatch := rfl
  current := rfl

/-! ## Calls outside a batch -/

theorem Between.query_rule {α : Type} {query : Tables → α} :
    Triple (Between T start own base db new files) (queryRepo env query)
      (fun a w => Between T start own base db new files w ∧ a = query db.tables)
      fun _ => Survives T start :=
  queryRepo_rule (fun w h => ⟨h.ticked,by rw [h.current]⟩) fun w _ h _ => h.toSteady.survives_ticked

theorem Between.timestamp_rule :
    Triple (Between T start own base db new files) (timestamp env)
      (fun _ => Between T start own base db new files) fun _ => Survives T start :=
  MailDock.timestamp_rule fun _ _ h => h.ticked

/-- An event that is appended but not flushed yet may or may not survive. -/
theorem Between.appended (h : Between T start own base db new files w) {e : ManifestEvent}
    (hnew : T db (base ++ (new ++ [e]))) (last : Option Nat) :
    Survives T start (w.appended e last) := by
  rintro db' events ⟨rfl,kept,hkept,hall,rfl⟩
  have hreverse : (appendedEvents (.append e :: w.log)).reverse = durableEvents w.log ++ [e] := by
    rw [appendedEvents,List.reverse_cons,h.flushed,durableEvents]
  have hdb : (w.appended e last).committed = db := h.committed
  rw [hdb]
  have hall' : kept <+: durableEvents w.log ++ [e] := hreverse ▸ hall
  rcases List.prefix_concat_iff.mp hall' with rfl | hshort
  · rw [← List.append_assoc,h.durable,List.append_assoc]
    exact hnew
  · rw [hshort.eq_of_length_le (show (durableEvents w.log).length ≤ _ from hkept.length_le),
      h.durable]
    exact h.holds

/-- `append` and `flush_and_sync`, and what follows them. -/
theorem Between.record_rule {α : Type} {e : ManifestEvent} {k : Unit → App α}
    {Q : α → World → Prop} (hnew : validateEvent e = .ok () → T db (base ++ (new ++ [e])))
    (hk : validateEvent e = .ok () →
      Triple (Between T start own base db (new ++ [e]) files) (k ()) Q fun _ => Survives T start) :
    Triple (Between T start own base db new files)
      (appendManifest env e >>= fun _ => flushAndSync env >>= k) Q fun _ => Survives T start := by
  refine (appendManifest_rule (Q := fun _ w' => ∃ w last, validateEvent e = .ok () ∧
    Between T start own base db new files w ∧ w' = w.appended e last) (fun w last h hvalid => ?_)
    fun w _ h _ => h.toSteady.survives_ticked).seq fun _ => (flushAndSync_rule (Q := fun _ w =>
      validateEvent e = .ok () ∧ Between T start own base db (new ++ [e]) files w) ?_ ?_).seq ?_
  · obtain ⟨u,hu,-⟩ := Except.bind_eq_ok_iff.mp hvalid
    exact ⟨w.ticked,last,hu,h.ticked,rfl⟩
  · rintro _ ⟨w,last,hvalid,h,rfl⟩
    refine ⟨hvalid,⟨⟨h.committed,?_,?_,rfl,h.stored,hnew hvalid⟩,h.inBatch,h.current⟩⟩
    · show w.manifest ++ [e] = own ++ (new ++ [e])
      rw [h.manifest,List.append_assoc]
    · show start ++ durableEvents (.flush :: .append e :: w.log) = base ++ (new ++ [e])
      rw [durableEvents,flushedEvents,appendedEvents,List.reverse_cons,h.flushed,← List.append_assoc,
        ← List.append_assoc]
      exact congrArg (· ++ [e]) h.durable
  · rintro _ _ ⟨w,last,hvalid,h,rfl⟩ -
    exact (h.appended (hnew hvalid) last).ticked
  · rintro _ w ⟨hvalid,h⟩
    exact hk hvalid w h

theorem Between.exists_rule {relativePath : String} :
    Triple (Between T start own base db new files) (existsEml env relativePath)
      (fun _ => Between T start own base db new files) fun _ => Survives T start := by
  refine (nextTick_rule (Q := fun _ => Between T start own base db new files)
    fun w h => h.ticked).seq fun t => ?_
  refine (localFault_rule (Q := fun _ => Between T start own base db new files) (fun _ h => h)
    fun w _ h _ => h.toSteady.survives).seq fun _ => ?_
  exact fun w h => h

/-- Only the files change. -/
theorem Between.refiled (h : Between T start own base db new files w)
    {files' : List (String × Bytes)} {w' : World} (hfiles : w'.files = files')
    (hrest : w'.committed = w.committed ∧ w'.manifest = w.manifest ∧
      appendedEvents w'.log = appendedEvents w.log ∧ flushedEvents w'.log = flushedEvents w.log ∧
      w'.inBatch = w.inBatch ∧ w'.db = w.db) :
    Between T start own base db new files' w' := by
  obtain ⟨hcommitted,hmanifest,happended,hflushed,hbatch,hdb⟩ := hrest
  refine ⟨⟨hcommitted.trans h.committed,hmanifest.trans h.manifest,?_,?_,hfiles,h.holds⟩,
    hbatch.trans h.inBatch,hdb.trans h.current⟩
  · rw [durableEvents,hflushed]
    exact h.durable
  · rw [happended,hflushed]
    exact h.flushed

theorem Between.delete_rule {relativePath : String} :
    Triple (Between T start own base db new files) (deleteEml env relativePath)
      (fun _ => Between T start own base db new (files.filter fun f => f.1 != relativePath))
      fun _ => Survives T start := by
  refine (nextTick_rule (Q := fun _ => Between T start own base db new files)
    fun w h => h.ticked).seq fun t => ?_
  refine (localFault_rule (Q := fun _ => Between T start own base db new files) (fun _ h => h)
    fun w _ h _ => h.toSteady.survives).seq fun _ => Triple.write fun w h => ?_
  refine h.refiled ?_ ⟨rfl,rfl,rfl,rfl,rfl,rfl⟩
  rw [← h.stored]
  rfl

/-- Moving a file to quarantine leaves every path alone but the two it is about. -/
theorem Between.quarantine_rule {relativePath : String} :
    Triple (Between T start own base db new files) (quarantineEml env relativePath)
      (fun _ w => ∃ files', (∀ p, p ≠ relativePath → inQuarantine p = false →
        files'.lookup p = files.lookup p) ∧ Between T start own base db new files' w)
      fun _ => Survives T start := by
  refine quarantineEml_rule (fun w h _ => ⟨files,fun _ _ _ => rfl,h.ticked⟩) (fun w raw h _ => ?_)
    fun w _ h _ => h.toSteady.survives_ticked
  refine ⟨_,fun p hp hclean => ?_,h.ticked.refiled rfl ⟨rfl,rfl,rfl,rfl,rfl,rfl⟩⟩
  rw [World.lookup_movedFile,if_neg (ne_of_inQuarantine
    (inQuarantine_quarantinePath relativePath _) hclean).symm,if_neg hp]
  exact congrArg (List.lookup p) h.stored

/-- The hash of a file, for a check that is never cancelled. -/
theorem Between.hash_rule {relativePath : String} :
    Triple (Between T start own base db new files)
      (hashChunks { env with cancelled := fun _ => false } relativePath)
      (fun found w => Between T start own base db new files w ∧
        found = match files.lookup relativePath with
          | none => .missing
          | some raw => .hash (env.sha256 raw)) fun _ => Survives T start := by
  refine (storageCall_rule (Q := fun _ => Between T start own base db new files)
    (fun w h => h.ticked) fun w _ h _ => h.toSteady.survives_ticked).seq fun t => ?_
  refine (Triple.read (Q := fun v w => World.files v = files ∧
    Between T start own base db new files w) fun w h => ⟨h.stored,h⟩).seq fun v => ?_
  rintro w ⟨hfiles,h⟩
  rw [hfiles]
  cases files.lookup relativePath with
  | none => exact ⟨h,rfl⟩
  | some raw =>
    dsimp only
    rw [Bool.and_false,if_neg Bool.false_ne_true]
    exact ⟨h,rfl⟩

/-- A write outside a batch is committed at once. -/
theorem Between.write_rule {op : WriteOp}
    (hnew : ∀ db', op.apply db = .ok db' → T db' (base ++ new)) :
    Triple (Between T start own base db new files) (writeRepo env op)
      (fun _ w => ∃ db', op.apply db = .ok db' ∧ Between T start own base db' new files w)
      fun _ => Survives T start := by
  refine writeRepo_rule (fun w db' h hop => ?_) fun w _ h _ => h.toSteady.survives_ticked
  rw [h.current] at hop
  have hbatch : w.ticked.inBatch = false := h.inBatch
  rw [World.written,hbatch,if_neg Bool.false_ne_true]
  exact ⟨db',hop,⟨rfl,h.manifest,h.durable,h.flushed,h.stored,hnew db' hop⟩,rfl,rfl⟩

/-! ## Calls inside a batch -/

theorem Between.begin_rule :
    Triple (Between T start own base db new files) (beginBatch env)
      (fun _ => Batch T start own base db new files db) fun _ => Survives T start := by
  refine beginBatch_rule (fun w h _ => ?_) fun w _ h _ => h.toSteady.survives_ticked
  exact ⟨⟨h.committed,h.manifest,h.durable,h.flushed,h.stored,h.holds⟩,rfl,h.current⟩

theorem Batch.write_rule {op : WriteOp} :
    Triple (Batch T start own base db new files db') (writeRepo env op)
      (fun _ w => ∃ db'', op.apply db' = .ok db'' ∧ Batch T start own base db new files db'' w)
      fun _ => Survives T start := by
  refine writeRepo_rule (fun w db'' h hop => ?_) fun w _ h _ => h.toSteady.survives_ticked
  rw [h.current] at hop
  rw [World.written_inBatch (w := w.ticked) h.inBatch]
  exact ⟨db'',hop,⟨h.committed,h.manifest,h.durable,h.flushed,h.stored,h.holds⟩,h.inBatch,rfl⟩

theorem Batch.query_rule {α : Type} {query : Tables → α} :
    Triple (Batch T start own base db new files db') (queryRepo env query)
      (fun a w => Batch T start own base db new files db' w ∧ a = query db'.tables)
      fun _ => Survives T start :=
  queryRepo_rule (fun w h => ⟨h.ticked,by rw [h.current]⟩) fun w _ h _ => h.toSteady.survives_ticked

theorem Batch.timestamp_rule :
    Triple (Batch T start own base db new files db') (timestamp env)
      (fun _ => Batch T start own base db new files db') fun _ => Survives T start :=
  MailDock.timestamp_rule fun _ _ h => h.ticked

theorem Batch.commit_rule (hnew : T db' (base ++ new)) :
    Triple (Batch T start own base db new files db') (commitBatch env)
      (fun _ => Between T start own base db' new files) fun _ => Survives T start := by
  refine commitBatch_rule (fun w h => ?_) fun w _ h _ => h.toSteady.survives_ticked
  refine ⟨⟨h.current,h.manifest,h.durable,h.flushed,h.stored,hnew⟩,rfl,h.current⟩

end

end MailDock.Trash
