import Mathlib.Logic.Function.Basic
import Mathlib.Logic.Relation

/-!
# The lock of the storage root

`StorageLock` of `storage_root.py` on POSIX, step by step for any number of instances.
`flock` locks the inode that was opened, while `release` unlinks the name after it has
unlocked; a metadata file with a heartbeat is the second guard.

## Main definitions

- `StorageLock.State`, `StorageLock.step` — the file system and the instances, one call each
- `StorageLock.Undisturbed` — an instance passes the metadata check only on the inode the lock
  file names, and not while another one is in the middle of its release
-/

namespace MailDock.StorageLock

/-- The metadata file: who wrote it, and when. -/
structure Meta (ι : Type*) where
  instanceUuid : ι
  heartbeatAt : Nat

/-- Where an instance is in `acquire`, `touch_heartbeat` or `release`. -/
inductive Phase
  | idle
  /-- The lock file is open. -/
  | opened (inode : Nat)
  /-- `flock` has succeeded. -/
  | locked (inode : Nat)
  /-- The metadata are fresh, so `acquire` gives the lock back. -/
  | refused (inode : Nat)
  /-- The metadata are missing or stale. -/
  | passed (inode : Nat)
  /-- `_write_meta` has taken the time and written the temporary file. -/
  | stamped (inode now : Nat)
  /-- `_write_meta` has raised, and so has `acquire`; the descriptor is still open. -/
  | failed (inode : Nat)
  | holding (inode : Nat)
  | touching (inode now : Nat)
  /-- `release` has unlocked and closed the descriptor. -/
  | unlocked
  /-- `release` has unlinked the lock file. -/
  | lockUnlinked
deriving DecidableEq, Repr

structure State (ι : Type*) where
  phase : ι → Phase
  /-- The inode the lock file's name leads to. -/
  lockPath : Option Nat
  /-- Who has the `flock` of an inode. -/
  locks : Nat → Option ι
  nextInode : Nat
  metadata : Option (Meta ι)
  now : Nat

inductive Action (ι : Type*)
  | tick
  | openFile (p : ι)
  | flock (p : ι)
  | readMeta (p : ι)
  | stamp (p : ι)
  | replaceMeta (p : ι)
  | writeFails (p : ι)
  | unlock (p : ι)
  | unlinkLock (p : ι)
  | unlinkMeta (p : ι)
deriving DecidableEq

/-- `_heartbeat_is_fresh`; a heartbeat that lies ahead is fresh. -/
def heartbeatIsFresh (staleAfter heartbeatAt now : Nat) : Bool := now - heartbeatAt ≤ staleAfter

section
variable {ι : Type*}

namespace State

/-- The metadata file holds a fresh heartbeat. -/
def metaIsActive (staleAfter : Nat) (s : State ι) : Bool :=
  s.metadata.any fun m => heartbeatIsFresh staleAfter m.heartbeatAt s.now

variable [DecidableEq ι]

def setPhase (s : State ι) (p : ι) (phase : Phase) : State ι :=
  { s with phase := Function.update s.phase p phase }

def setLock (s : State ι) (inode : Nat) (owner : Option ι) : State ι :=
  { s with locks := Function.update s.locks inode owner }

theorem phase_setPhase_of_ne (s : State ι) {p q : ι} (h : q ≠ p) (phase : Phase) :
    (s.setPhase p phase).phase q = s.phase q :=
  Function.update_of_ne h ..

end State

end

section
variable {ι : Type*} [DecidableEq ι]

/-- One call of one instance; `none` when it is not the next one.  A failed `flock` closes the
descriptor, and `acquire` starts over or gives up. -/
def step (staleAfter : Nat) (s : State ι) : Action ι → Option (State ι)
  | .tick => some { s with now := s.now + 1 }
  | .openFile p =>
    match s.phase p with
    | .idle =>
      match s.lockPath with
      | some inode => some (s.setPhase p (.opened inode))
      | none => some ({ s with
          lockPath := some s.nextInode
          nextInode := s.nextInode + 1 }.setPhase p (.opened s.nextInode))
    | _ => none
  | .flock p =>
    match s.phase p with
    | .opened inode =>
      match s.locks inode with
      | none => some ((s.setLock inode (some p)).setPhase p (.locked inode))
      | some _ => some (s.setPhase p .idle)
    | _ => none
  | .readMeta p =>
    match s.phase p with
    | .locked inode =>
      some (s.setPhase p (if s.metaIsActive staleAfter then .refused inode else .passed inode))
    | _ => none
  | .stamp p =>
    match s.phase p with
    | .passed inode => some (s.setPhase p (.stamped inode s.now))
    | .holding inode => some (s.setPhase p (.touching inode s.now))
    | _ => none
  | .replaceMeta p =>
    match s.phase p with
    | .stamped inode now | .touching inode now =>
      some ({ s with metadata := some ⟨p,now⟩ }.setPhase p (.holding inode))
    | _ => none
  | .writeFails p =>
    match s.phase p with
    | .stamped inode _ => some (s.setPhase p (.failed inode))
    | _ => none
  | .unlock p =>
    match s.phase p with
    | .refused inode => some ((s.setLock inode none).setPhase p .idle)
    | .holding inode | .failed inode => some ((s.setLock inode none).setPhase p .unlocked)
    | _ => none
  | .unlinkLock p =>
    match s.phase p with
    | .unlocked => some ({ s with lockPath := none }.setPhase p .lockUnlinked)
    | _ => none
  | .unlinkMeta p =>
    match s.phase p with
    | .lockUnlinked => some ({ s with metadata := none }.setPhase p .idle)
    | _ => none

end

/-- Between a successful `acquire` and its `release`. -/
def Phase.holds : Phase → Bool
  | .holding _ | .touching .. => true
  | _ => false

/-- In the middle of a `release`: unlocked, with files still to unlink. -/
def Phase.releasing : Phase → Bool
  | .unlocked | .lockUnlinked => true
  | _ => false

section
variable {ι : Type*}

/-- No instance has begun; the files of an earlier run may still be there. -/
structure Initial (s : State ι) : Prop where
  phase : ∀ p, s.phase p = .idle
  locks : ∀ inode, s.locks inode = none

/-- An instance passes the metadata check only on the inode the lock file still names, and
while no other instance is in the middle of its release. -/
def Undisturbed (staleAfter : Nat) (s : State ι) : Action ι → Prop
  | .readMeta p => s.metaIsActive staleAfter = false → ∀ inode, s.phase p = .locked inode →
      s.lockPath = some inode ∧ ∀ q, (s.phase q).releasing = false
  | _ => True

variable [DecidableEq ι] in
/-- A step of a run all of whose steps are undisturbed. -/
def UndisturbedStep (staleAfter : Nat) (s s' : State ι) : Prop :=
  ∃ a, Undisturbed staleAfter s a ∧ step staleAfter s a = some s'

end

/-! The invariant. -/

/-- The inode an instance has locked. -/
def Phase.lockedInode : Phase → Option Nat
  | .locked inode | .refused inode | .passed inode | .stamped inode _ | .failed inode
  | .holding inode | .touching inode _ => some inode
  | _ => none

/-- Past the metadata check and not yet done with the files. -/
def Phase.active : Phase → Bool
  | .passed _ | .stamped .. | .failed _ | .holding _ | .touching .. | .unlocked
  | .lockUnlinked => true
  | _ => false

structure Exclusive {ι : Type*} (s : State ι) : Prop where
  one : ∀ p q, (s.phase p).active = true → (s.phase q).active = true → p = q
  locked : ∀ p inode, (s.phase p).lockedInode = some inode → s.locks inode = some p
  named : ∀ p inode, (s.phase p).active = true → (s.phase p).lockedInode = some inode →
    s.lockPath = some inode

theorem Phase.active_of_holds {phase : Phase} (h : phase.holds = true) : phase.active = true := by
  cases phase <;> simp_all [Phase.holds,Phase.active]

theorem Phase.lockedInode_of_active {phase : Phase} (h : phase.active = true)
    (hr : phase.releasing = false) : ∃ inode, phase.lockedInode = some inode := by
  cases phase <;> simp_all [Phase.active,Phase.releasing,Phase.lockedInode]

theorem Initial.exclusive {ι : Type*} {s : State ι} (h : Initial s) : Exclusive s where
  one p q hp _ := by simp [h.phase,Phase.active] at hp
  locked p inode hp := by simp [h.phase,Phase.lockedInode] at hp
  named p inode hp _ := by simp [h.phase,Phase.active] at hp

namespace Exclusive

variable {ι : Type*} {s : State ι} {p : ι}

/-- Files other than the lock file do not matter, nor does the time. -/
theorem congr (h : Exclusive s) {s' : State ι} (hphase : s'.phase = s.phase)
    (hlocks : s'.locks = s.locks) (hpath : s'.lockPath = s.lockPath) : Exclusive s' := by
  refine ⟨?_,?_,?_⟩
  · rw [hphase]; exact h.one
  · rw [hphase,hlocks]; exact h.locked
  · rw [hphase,hpath]; exact h.named

/-- A lock file is created only when no instance relies on the old one. -/
theorem create (h : Exclusive s) (hpath : s.lockPath = none) (inode next : Nat) :
    Exclusive { s with lockPath := some inode, nextInode := next } where
  one := h.one
  locked := h.locked
  named q i hq hi := by
    have := h.named q i hq hi
    rw [hpath] at this
    cases this

variable [DecidableEq ι]

/-- A change of phase that takes no lock and does not pass the metadata check. -/
theorem setPhase (h : Exclusive s) {phase : Phase}
    (hactive : phase.active = true → (s.phase p).active = true)
    (hinode : ∀ inode, phase.lockedInode = some inode → (s.phase p).lockedInode = some inode) :
    Exclusive (s.setPhase p phase) := by
  have hactive' : ∀ q, ((s.setPhase p phase).phase q).active = true →
      (s.phase q).active = true := by
    intro q hq
    by_cases hqp : q = p
    · subst hqp
      exact hactive (by simpa [State.setPhase] using hq)
    · simpa [State.setPhase,hqp] using hq
  have hinode' : ∀ q inode, ((s.setPhase p phase).phase q).lockedInode = some inode →
      (s.phase q).lockedInode = some inode := by
    intro q inode hq
    by_cases hqp : q = p
    · subst hqp
      exact hinode inode (by simpa [State.setPhase] using hq)
    · simpa [State.setPhase,hqp] using hq
  exact ⟨fun q r hq hr => h.one q r (hactive' q hq) (hactive' r hr),
    fun q inode hq => h.locked q inode (hinode' q inode hq),
    fun q inode hq hi => h.named q inode (hactive' q hq) (hinode' q inode hi)⟩

theorem flock (h : Exclusive s) {inode : Nat} (hphase : s.phase p = .opened inode)
    (hfree : s.locks inode = none) :
    Exclusive ((s.setLock inode (some p)).setPhase p (.locked inode)) where
  one q r hq hr := by
    have hne : ∀ q, (((s.setLock inode (some p)).setPhase p (.locked inode)).phase q).active = true →
        (s.phase q).active = true := by
      intro q hq
      by_cases hqp : q = p
      · subst hqp
        simp [State.setPhase,Phase.active] at hq
      · simpa [State.setPhase,State.setLock,hqp] using hq
    exact h.one q r (hne q hq) (hne r hr)
  locked q i hq := by
    by_cases hqp : q = p
    · subst hqp
      simp only [State.setPhase,State.setLock,Function.update_self,Phase.lockedInode,
        Option.some.injEq] at hq
      simp [State.setPhase,State.setLock,hq]
    · have hlocked := h.locked q i (by simpa [State.setPhase,State.setLock,hqp] using hq)
      have hne : i ≠ inode := by
        rintro rfl
        rw [hfree] at hlocked
        cases hlocked
      simpa [State.setPhase,State.setLock,hne] using hlocked
  named q i hq hi := by
    by_cases hqp : q = p
    · subst hqp
      simp [State.setPhase,Phase.active] at hq
    · exact h.named q i (by simpa [State.setPhase,State.setLock,hqp] using hq)
        (by simpa [State.setPhase,State.setLock,hqp] using hi)

/-- An instance that passes the check on the named inode is the only active one. -/
theorem pass (h : Exclusive s) {inode : Nat} (hphase : s.phase p = .locked inode)
    (hnamed : s.lockPath = some inode) (hquiet : ∀ q, (s.phase q).releasing = false) :
    Exclusive (s.setPhase p (.passed inode)) := by
  have hnone : ∀ q, q ≠ p → (s.phase q).active = false := by
    intro q hqp
    by_contra hq
    rw [Bool.not_eq_false] at hq
    obtain ⟨j,hj⟩ := Phase.lockedInode_of_active hq (hquiet q)
    -- the other one has locked the inode the lock file names, which is ours
    have hji : j = inode := Option.some.inj ((h.named q j hq hj).symm.trans hnamed)
    have hq' := h.locked q j hj
    have hp' := h.locked p inode (by rw [hphase]; rfl)
    rw [hji,hp'] at hq'
    exact hqp (Option.some.inj hq').symm
  refine ⟨?_,?_,?_⟩
  · intro q r hq hr
    have hsame : ∀ q, ((s.setPhase p (.passed inode)).phase q).active = true → q = p := by
      intro q hq
      by_contra hqp
      rw [State.phase_setPhase_of_ne s hqp,hnone q hqp] at hq
      cases hq
    rw [hsame q hq,hsame r hr]
  · intro q i hq
    by_cases hqp : q = p
    · subst hqp
      refine h.locked q i ?_
      rw [hphase]
      simpa [State.setPhase,Phase.lockedInode] using hq
    · exact h.locked q i (by simpa [State.setPhase,hqp] using hq)
  · intro q i hq hi
    by_cases hqp : q = p
    · subst hqp
      simp only [State.setPhase,Function.update_self,Phase.lockedInode,Option.some.injEq] at hi
      rw [← hi]
      exact hnamed
    · rw [State.phase_setPhase_of_ne s hqp,hnone q hqp] at hq
      cases hq

/-- Giving up a lock nobody else has. -/
theorem unlock (h : Exclusive s) {inode : Nat} {phase : Phase}
    (hinode : (s.phase p).lockedInode = some inode) (hphase : phase.lockedInode = none)
    (hactive : phase.active = true → (s.phase p).active = true) :
    Exclusive ((s.setLock inode none).setPhase p phase) := by
  have hset := h.setPhase hactive (by simp [hphase])
  refine ⟨hset.one,?_,hset.named⟩
  intro q i hq
  have hlocked := hset.locked q i hq
  have hne : i ≠ inode := by
    rintro rfl
    have hp := h.locked p i hinode
    have hqp : q = p := Option.some.inj (hlocked.symm.trans hp)
    subst hqp
    simp [State.setPhase,hphase] at hq
  simpa [State.setPhase,State.setLock,hne] using hlocked

/-- The name is unlinked by the only active instance, which has unlocked already. -/
theorem unlinkLock (h : Exclusive s) (hphase : s.phase p = .unlocked) :
    Exclusive ({ s with lockPath := none }.setPhase p .lockUnlinked) := by
  have hset : Exclusive (s.setPhase p .lockUnlinked) :=
    h.setPhase (by simp [hphase,Phase.active]) (by simp [Phase.lockedInode])
  refine ⟨hset.one,hset.locked,?_⟩
  intro q i hq hi
  have hqp : q = p := hset.one q p hq (by simp [State.setPhase,Phase.active])
  subst hqp
  simp [State.setPhase,Phase.lockedInode] at hi

end Exclusive

section
variable {ι : Type*} [DecidableEq ι] {staleAfter : Nat}

/-- One undisturbed step keeps the invariant. -/
theorem Exclusive.step {s s' : State ι} (h : Exclusive s)
    (hstep : UndisturbedStep staleAfter s s') : Exclusive s' := by
  obtain ⟨a,hquiet,hstep⟩ := hstep
  cases a with
  | tick =>
    cases hstep
    exact h.congr rfl rfl rfl
  | openFile p =>
    simp only [StorageLock.step] at hstep
    split at hstep
    · next hphase =>
      split at hstep
      · cases hstep
        exact h.setPhase (by simp [Phase.active]) (by simp [Phase.lockedInode])
      · next hpath =>
        cases hstep
        exact (h.create hpath _ _).setPhase (by simp [Phase.active]) (by simp [Phase.lockedInode])
    · cases hstep
  | flock p =>
    simp only [StorageLock.step] at hstep
    split at hstep
    · next inode hphase =>
      split at hstep
      · next hfree =>
        cases hstep
        exact h.flock hphase hfree
      · cases hstep
        exact h.setPhase (by simp [Phase.active]) (by simp [Phase.lockedInode])
    · cases hstep
  | readMeta p =>
    simp only [StorageLock.step] at hstep
    split at hstep
    · next inode hphase =>
      by_cases hmeta : s.metaIsActive staleAfter = true
      · rw [if_pos hmeta] at hstep
        cases hstep
        exact h.setPhase (by simp [Phase.active]) (by simp [hphase,Phase.lockedInode])
      · rw [if_neg hmeta] at hstep
        cases hstep
        obtain ⟨hnamed,hreleasing⟩ := hquiet (by simpa using hmeta) inode hphase
        exact h.pass hphase hnamed hreleasing
    · cases hstep
  | stamp p =>
    simp only [StorageLock.step] at hstep
    split at hstep
    · next inode hphase =>
      cases hstep
      exact h.setPhase (by simp [hphase,Phase.active]) (by simp [hphase,Phase.lockedInode])
    · next inode hphase =>
      cases hstep
      exact h.setPhase (by simp [hphase,Phase.active]) (by simp [hphase,Phase.lockedInode])
    · cases hstep
  | replaceMeta p =>
    have hmeta : ∀ m, Exclusive { s with metadata := m } := fun m => h.congr rfl rfl rfl
    simp only [StorageLock.step] at hstep
    split at hstep
    · next inode now hphase =>
      cases hstep
      exact (hmeta _).setPhase (by simp [hphase,Phase.active])
        (by simp [hphase,Phase.lockedInode])
    · next inode now hphase =>
      cases hstep
      exact (hmeta _).setPhase (by simp [hphase,Phase.active])
        (by simp [hphase,Phase.lockedInode])
    · cases hstep
  | writeFails p =>
    simp only [StorageLock.step] at hstep
    split at hstep
    · next inode now hphase =>
      cases hstep
      exact h.setPhase (by simp [hphase,Phase.active]) (by simp [hphase,Phase.lockedInode])
    · cases hstep
  | unlock p =>
    simp only [StorageLock.step] at hstep
    split at hstep
    · next inode hphase =>
      cases hstep
      exact h.unlock (by rw [hphase]; rfl) rfl (by simp [Phase.active])
    · next inode hphase =>
      cases hstep
      exact h.unlock (by rw [hphase]; rfl) rfl (by simp [hphase,Phase.active])
    · next inode hphase =>
      cases hstep
      exact h.unlock (by rw [hphase]; rfl) rfl (by simp [hphase,Phase.active])
    · cases hstep
  | unlinkLock p =>
    simp only [StorageLock.step] at hstep
    split at hstep
    · next hphase =>
      cases hstep
      exact h.unlinkLock hphase
    · cases hstep
  | unlinkMeta p =>
    have hmeta : Exclusive { s with metadata := none } := h.congr rfl rfl rfl
    simp only [StorageLock.step] at hstep
    split at hstep
    · cases hstep
      exact hmeta.setPhase (by simp [Phase.active]) (by simp [Phase.lockedInode])
    · cases hstep

/-- In a run all of whose steps are undisturbed, at most one instance holds the lock at any
time, and none removes the metadata of another one that holds it. -/
theorem mutual_exclusion_of_undisturbed {start s : State ι} (hstart : Initial start)
    (hrun : Relation.ReflTransGen (UndisturbedStep staleAfter) start s) :
    (∀ p q, (s.phase p).holds = true → (s.phase q).holds = true → p = q) ∧
      ∀ p s', StorageLock.step staleAfter s (.unlinkMeta p) = some s' → ∀ m ∈ s.metadata,
        (s.phase m.instanceUuid).holds = true → m.instanceUuid = p := by
  have hs : Exclusive s := by
    induction hrun with
    | refl => exact hstart.exclusive
    | tail _ hstep ih => exact ih.step hstep
  refine ⟨?_,?_⟩
  · intro p q hp hq
    exact hs.one p q (Phase.active_of_holds hp) (Phase.active_of_holds hq)
  · intro p s' hstep m _ hm
    refine hs.one _ p (Phase.active_of_holds hm) ?_
    simp only [StorageLock.step] at hstep
    split at hstep
    · next hphase => rw [hphase]; rfl
    · cases hstep

end

/-- A root nobody has used yet. -/
def unusedRoot : State Nat where
  phase _ := .idle
  lockPath := none
  locks _ := none
  nextInode := 0
  metadata := none
  now := 0

theorem unusedRoot_initial : Initial unusedRoot := ⟨fun _ => rfl,fun _ => rfl⟩

theorem undisturbed_of_actions (actions : List (Action Nat)) {s s' : State Nat}
    (hreads : ∀ p, Action.readMeta p ∉ actions) (hrun : actions.foldlM (step 30) s = some s') :
    Relation.ReflTransGen (UndisturbedStep 30) s s' := by
  induction actions generalizing s with
  | nil =>
    cases hrun
    exact .refl
  | cons a actions ih =>
    rw [List.foldlM_cons] at hrun
    obtain ⟨s₁,hstep,hrest⟩ := Option.bind_eq_some_iff.mp hrun
    have hquiet : Undisturbed 30 s a := by
      cases a with
      | readMeta p => exact absurd List.mem_cons_self (hreads p)
      | _ => trivial
    exact .head ⟨a,hquiet,hstep⟩ (ih (fun p hp => hreads p (List.mem_cons_of_mem _ hp)) hrest)

theorem undisturbed_readMeta {s s' : State Nat} (p inode : Nat) (hphase : s.phase p = .locked inode)
    (hpath : s.lockPath = some inode) (hothers : ∀ q, (s.phase q).releasing = false)
    (hstep : step 30 s (.readMeta p) = some s') : UndisturbedStep 30 s s' := by
  refine ⟨.readMeta p,fun _ inode' hphase' => ?_,hstep⟩
  obtain rfl : inode = inode' := by
    rw [hphase,Phase.locked.injEq] at hphase'
    exact hphase'
  exact ⟨hpath,hothers⟩

/-- Only the instances 1 and 2 have begun, and neither is in its release. -/
theorem releasing_of_two {s : State Nat} (h1 : (s.phase 1).releasing = false)
    (h2 : (s.phase 2).releasing = false) (hothers : ∀ q, s.phase (q + 3) = .idle)
    (h0 : s.phase 0 = .idle) : ∀ q, (s.phase q).releasing = false
  | 0 => by rw [h0]; rfl
  | 1 => h1
  | 2 => h2
  | q + 3 => by rw [hothers]; rfl

/-- The first instance acquires the lock, the second one fails to; after the release the second
one acquires it. -/
theorem mutual_exclusion_hand_over :
    ∃ s s' : State Nat, Relation.ReflTransGen (UndisturbedStep 30) unusedRoot s ∧
      Relation.ReflTransGen (UndisturbedStep 30) s s' ∧
      ((s.phase 1).holds = true ∧ s.phase 2 = .idle ∧ ∀ q, (s.phase q).holds = true → q = 1) ∧
      (s'.phase 2).holds = true ∧ ∀ q, (s'.phase q).holds = true → q = 2 := by
  have hrun : ∃ s s' : State Nat, Relation.ReflTransGen (UndisturbedStep 30) unusedRoot s ∧
      Relation.ReflTransGen (UndisturbedStep 30) s s' ∧
      (s.phase 1).holds = true ∧ s.phase 2 = .idle ∧ (s'.phase 2).holds = true := by
    refine ⟨_,_,(undisturbed_of_actions [.openFile 1,.flock 1] nofun rfl).trans
      (.head (undisturbed_readMeta 1 0 rfl rfl ?_ rfl)
        (undisturbed_of_actions [.stamp 1,.replaceMeta 1,.openFile 2,.flock 2] nofun rfl)),
      (undisturbed_of_actions [.unlock 1,.unlinkLock 1,.unlinkMeta 1,.openFile 2,.flock 2]
        nofun rfl).trans
      (.head (undisturbed_readMeta 2 1 rfl rfl ?_ rfl)
        (undisturbed_of_actions [.stamp 2,.replaceMeta 2] nofun rfl)),rfl,rfl,rfl⟩
    · exact releasing_of_two rfl rfl (fun _ => rfl) rfl
    · exact releasing_of_two rfl rfl (fun _ => rfl) rfl
  obtain ⟨s,s',hs,hs',hone,hidle,htwo⟩ := hrun
  exact ⟨s,s',hs,hs',
    ⟨hone,hidle,fun q hq => (mutual_exclusion_of_undisturbed unusedRoot_initial hs).1 q 1 hq hone⟩,
    htwo,fun q hq =>
      (mutual_exclusion_of_undisturbed unusedRoot_initial (hs.trans hs')).1 q 2 hq htwo⟩

/-- Instance 2 locks the inode of instance 1 right after it was unlocked and reads the
metadata after they were unlinked; instance 3 does the same with a new lock file.  Both hold
the lock, and when 2 releases it removes the metadata of 3.  No time passes at all. -/
theorem two_instances_hold :
    ∃ s s' : State Nat,
      [Action.openFile 1,.flock 1,.readMeta 1,.stamp 1,.replaceMeta 1,.unlock 1,
        .openFile 2,.flock 2,.unlinkLock 1,.unlinkMeta 1,.readMeta 2,
        .openFile 3,.flock 3,.readMeta 3,.stamp 2,.replaceMeta 2,.stamp 3,
        .replaceMeta 3].foldlM (step 30) unusedRoot = some s ∧
      (s.phase 2).holds = true ∧ (s.phase 3).holds = true ∧
      [Action.unlock 2,.unlinkLock 2].foldlM (step 30) s = some s' ∧
      s'.metadata.map Meta.instanceUuid = some 3 ∧ (s'.phase 3).holds = true ∧
      ((step 30 s' (.unlinkMeta 2)).map fun s'' => s''.metadata.isNone) = some true :=
  ⟨_,_,rfl,rfl,rfl,rfl,rfl,rfl,rfl⟩

end MailDock.StorageLock
