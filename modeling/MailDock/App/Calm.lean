import MailDock.App.World

/-!
# Calls without local faults

Where neither the disk nor the database fails, a call has one outcome, and a use
case can be run forward from call to call.
-/

namespace MailDock

open Hoare

/-- No call to the database or to the manifest meets a fault. -/
structure Env.Calm (env : Env) : Prop where
  repo : ∀ t, env.repoFault t = none
  manifest : ∀ t, env.manifestFault t = none

section
variable {env : Env} (w : World)

theorem get_run : (get : App World) w = (.ok w,w) := rfl

theorem pure_run {α : Type} (a : α) : (pure a : App α) w = (.ok a,w) := rfl

theorem nextTick_run : nextTick w = (.ok w.tick,w.ticked) := rfl

theorem timestamp_run :
    timestamp env w = (.ok ((env.clock w.tick).isoformat (env.microsecond w.tick)),w.ticked) := rfl

/-- The outcome of a call, whatever it is. -/
theorem outcome_run {α : Type} (call : App α) : outcome call w = (.ok (call w).1,(call w).2) := by
  show Prog.tryCatch (call >>= fun a => pure (Except.ok a)) (fun e => pure (.error e)) w = _
  rw [Prog.tryCatch]
  rcases hcall : call w with ⟨result,w'⟩
  cases result with
  | ok a =>
    rw [Prog.bind_of_ok hcall]
    rfl
  | error e =>
    rw [Prog.bind_of_error hcall]
    rfl

theorem imapCommand_answered (c : ImapCommand) (hanswered : env.fetchFault w.tick = none) :
    imapCommand env c w = (.ok w.tick,w.ticked.logged (.command c)) := by
  show (raiseFault (env.fetchFault w.tick) >>= fun _ => pure w.tick) _ = _
  rw [hanswered]
  rfl

theorem imapCommand_failed (c : ImapCommand) {e : Error} (hfault : env.fetchFault w.tick = some e) :
    imapCommand env c w = (.error e,w.ticked.logged (.command c)) := by
  show (raiseFault (env.fetchFault w.tick) >>= fun _ => pure w.tick) _ = _
  rw [hfault]
  rfl

variable (h : env.Calm)
include h

theorem Env.Calm.repoCall_run : repoCall env w = (.ok (),w.ticked) := by
  show raiseFault ((env.repoFault w.tick).map LocalFault.toError) w.ticked = _
  rw [h.repo]
  rfl

theorem Env.Calm.queryRepo_run {α : Type} (query : Tables → α) :
    queryRepo env query w = (.ok (query w.db.tables),w.ticked) := by
  unfold queryRepo
  rw [Prog.bind_of_ok (h.repoCall_run w)]
  rfl

theorem Env.Calm.writeRepo_run {op : WriteOp} {db : Repository} (happly : op.apply w.db = .ok db) :
    writeRepo env op w = (.ok (),w.ticked.written op db) := by
  have happly' : Prog.ofExcept (op.apply w.ticked.db) w.ticked = (.ok db,w.ticked) := by
    show (op.apply w.db,w.ticked) = _
    rw [happly]
  unfold writeRepo
  rw [Prog.bind_of_ok (h.repoCall_run w),Prog.bind_of_ok (get_run w.ticked),
    Prog.bind_of_ok happly']
  rfl

theorem Env.Calm.beginBatch_run (hbatch : w.inBatch = false) :
    beginBatch env w = (.ok (),{ w.ticked with inBatch := true }) := by
  unfold beginBatch
  rw [Prog.bind_of_ok (h.repoCall_run w),Prog.bind_of_ok (get_run w.ticked),
    if_neg (by rw [World.ticked,hbatch]; decide)]
  rfl

theorem Env.Calm.commitBatch_run : commitBatch env w = (.ok (),w.ticked.batchCommitted) := by
  unfold commitBatch
  rw [Prog.bind_of_ok (h.repoCall_run w)]
  rfl

theorem Env.Calm.appendManifest_run {e : ManifestEvent} {last : Option Nat}
    (happend : appendEvent w.lastCheckpointSequence e = .ok last) :
    appendManifest env e w = (.ok (),w.ticked.appended e last) := by
  have happend' : Prog.ofExcept (appendEvent w.ticked.lastCheckpointSequence e) w.ticked =
      (.ok last,w.ticked) := by
    show (appendEvent w.lastCheckpointSequence e,w.ticked) = _
    rw [happend]
  have hfault : raiseFault ((env.manifestFault w.tick).map LocalFault.toError) w.ticked =
      (.ok (),w.ticked) := by
    rw [h.manifest]
    rfl
  unfold appendManifest
  rw [Prog.bind_of_ok (nextTick_run w),
    Prog.bind_of_ok (get_run w.ticked),Prog.bind_of_ok happend',
    Prog.bind_of_ok hfault]
  rfl

theorem Env.Calm.flushAndSync_run : flushAndSync env w = (.ok (),w.ticked.logged .flush) := by
  have hfault : raiseFault ((env.manifestFault w.tick).map LocalFault.toError) w.ticked =
      (.ok (),w.ticked) := by
    rw [h.manifest]
    rfl
  unfold flushAndSync
  rw [Prog.bind_of_ok (nextTick_run w),Prog.bind_of_ok hfault]
  rfl

omit h in
/-- An event that the writer refuses is not written. -/
theorem appendManifest_refused {e : ManifestEvent} {error : Error}
    (happend : appendEvent w.lastCheckpointSequence e = .error error) :
    appendManifest env e w = (.error error,w.ticked) := by
  have happend' : Prog.ofExcept (appendEvent w.ticked.lastCheckpointSequence e) w.ticked =
      (.error error,w.ticked) := by
    show (appendEvent w.lastCheckpointSequence e,w.ticked) = _
    rw [happend]
  unfold appendManifest
  rw [Prog.bind_of_ok (nextTick_run w),
    Prog.bind_of_ok (get_run w.ticked),Prog.bind_of_error happend']

end

end MailDock
