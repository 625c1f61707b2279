import Mathlib.Algebra.GroupWithZero.Nat
import Mathlib.Data.List.Basic
import Mathlib.Order.Lattice

/-!
# The monitor of the storage root

The states of the storage root (`domain/storage_state.py`) and the monitor that probes the root,
declares it lost and reconnects it (`presentation/storage_monitor.py`).

## Main definitions

- `StorageState.next` — the transition table
- `StorageMonitor` — the state, the count of reprobes and the two timers
- `StorageMonitor.step` — a timer that fires, or a call from outside

## Main results

- `StorageState.reattached_verified` — a lost root is attached again by a verification only
- `StorageMonitor.run_consistent` — every loss releases the workers and the connections once
- `StorageMonitor.run_reattached` — which reprobe of a run allows writes again
- `StorageMonitor.run_lost` — a root that stays away is declared lost
- `StorageMonitor.run_starved` — unless a heartbeat begins the count anew in time
-/

namespace MailDock

inductive StorageState
  | attached | degraded | detached | detachedByUser | reconnecting | verifying
deriving DecidableEq, Repr

inductive StorageEvent
  | probeOk | probeMissing | probeForeign | ioError | reprobeOk | reprobeFailed
  | deviceRemoved | deviceArrived | userDetach | reconnectRequested
  | identityOk | identityForeign | verifyOk | verifyFailed
deriving DecidableEq, Repr

namespace StorageState

/-- `StorageStateMachine._TRANSITIONS`. -/
def next : StorageState → StorageEvent → Option StorageState
  | .attached,.probeOk => some .attached
  | .attached,.probeMissing => some .degraded
  | .attached,.probeForeign => some .detached
  | .attached,.ioError => some .degraded
  | .attached,.deviceRemoved => some .detached
  | .attached,.userDetach => some .detachedByUser
  | .degraded,.probeMissing => some .degraded
  | .degraded,.probeForeign => some .detached
  | .degraded,.ioError => some .degraded
  | .degraded,.reprobeOk => some .attached
  | .degraded,.reprobeFailed => some .detached
  | .degraded,.deviceRemoved => some .detached
  | .degraded,.userDetach => some .detachedByUser
  | .detached,.probeMissing => some .detached
  | .detached,.probeForeign => some .detached
  | .detached,.ioError => some .detached
  | .detached,.deviceRemoved => some .detached
  | .detached,.deviceArrived => some .reconnecting
  | .detached,.reconnectRequested => some .reconnecting
  | .detachedByUser,.probeMissing => some .detachedByUser
  | .detachedByUser,.probeForeign => some .detachedByUser
  | .detachedByUser,.deviceRemoved => some .detachedByUser
  | .detachedByUser,.reconnectRequested => some .reconnecting
  | .reconnecting,.probeForeign => some .detached
  | .reconnecting,.probeMissing => some .reconnecting
  | .reconnecting,.deviceRemoved => some .detached
  | .reconnecting,.deviceArrived => some .reconnecting
  | .reconnecting,.reconnectRequested => some .reconnecting
  | .reconnecting,.reprobeFailed => some .detached
  | .reconnecting,.identityOk => some .verifying
  | .reconnecting,.identityForeign => some .detached
  | .verifying,.probeMissing => some .detached
  | .verifying,.probeForeign => some .detached
  | .verifying,.deviceRemoved => some .detached
  | .verifying,.verifyOk => some .attached
  | .verifying,.verifyFailed => some .detached
  | _,_ => none

/-- `is_write_allowed` and `is_remote_delete_allowed`. -/
def isWriteAllowed (s : StorageState) : Bool := s == .attached

/-- `transition`: an event that does not fit the state raises, and the state stays. -/
def step (s : StorageState) (event : StorageEvent) : StorageState := (s.next event).getD s

/-- The calls of `transition`, whose caller goes on after one that raises. -/
def run (s : StorageState) (events : List StorageEvent) : StorageState := events.foldl step s

/-- The root is lost, and nobody has found it again. -/
def IsLost (s : StorageState) : Prop :=
  s = .detached ∨ s = .detachedByUser ∨ s = .reconnecting

/-- From a lost root, one step leads to a lost one or to the verification. -/
theorem IsLost.next {s s' : StorageState} {event : StorageEvent} (hlost : s.IsLost)
    (h : s.next event = some s') :
    s'.IsLost ∨ s = .reconnecting ∧ event = .identityOk ∧ s' = .verifying := by
  rcases hlost with rfl | rfl | rfl <;> cases event <;> cases h <;> simp [IsLost]

/-- The verification ends the loss, or the root is lost again. -/
theorem next_of_verifying {s : StorageState} {event : StorageEvent}
    (h : StorageState.verifying.next event = some s) :
    s.IsLost ∨ event = .verifyOk ∧ s = .attached := by
  cases event <;> cases h <;> simp [IsLost]

/-- Only a request of the user leaves `detachedByUser` for a reconnection. -/
theorem next_of_detachedByUser {s : StorageState} {event : StorageEvent}
    (h : StorageState.detachedByUser.next event = some s) :
    s = .detachedByUser ∨ event = .reconnectRequested ∧ s = .reconnecting := by
  cases event <;> cases h <;> simp

theorem step_of_none {s : StorageState} {event : StorageEvent} (h : s.next event = none) :
    s.step event = s := by rw [step,h,Option.getD_none]

theorem step_of_some {s s' : StorageState} {event : StorageEvent} (h : s.next event = some s') :
    s.step event = s' := by rw [step,h,Option.getD_some]

theorem run_append (s : StorageState) (first second : List StorageEvent) :
    s.run (first ++ second) = (s.run first).run second := List.foldl_append

theorem run_of_refused {s : StorageState} {refused : List StorageEvent}
    (h : ∀ event ∈ refused, s.next event = none) : s.run refused = s := by
  induction refused with
  | nil => rfl
  | cons event refused ih =>
    rw [run,List.foldl_cons,step_of_none (h event List.mem_cons_self),← run]
    exact ih fun e he => h e (List.mem_cons_of_mem event he)

/-- The events that do not fit are passed over. -/
theorem run_of_first {s s' : StorageState} {refused events : List StorageEvent}
    {event : StorageEvent} (hrefused : ∀ e ∈ refused, s.next e = none)
    (hnext : s.next event = some s') : s.run (refused ++ event :: events) = s'.run events := by
  rw [run_append,run_of_refused hrefused,run,List.foldl_cons,step_of_some hnext,← run]

/-- The first event of a run that fits the state, if there is one. -/
theorem run_cases (s : StorageState) (events : List StorageEvent) :
    s.run events = s ∨ ∃ refused event s' rest, events = refused ++ event :: rest ∧
      (∀ e ∈ refused, s.next e = none) ∧ s.next event = some s' := by
  induction events with
  | nil => exact .inl rfl
  | cons event events ih =>
    cases hnext : s.next event with
    | some s' => exact .inr ⟨[],event,s',events,rfl,nofun,hnext⟩
    | none =>
      rcases ih with hsame | ⟨refused,event',s',rest,rfl,hrefused,hnext'⟩
      · left
        rwa [run,List.foldl_cons,step_of_none hnext,← run]
      · refine .inr ⟨event :: refused,event',s',rest,rfl,fun e he => ?_,hnext'⟩
        rcases List.mem_cons.mp he with rfl | he
        · exact hnext
        · exact hrefused e he

/-- What brings a lost root back. -/
theorem IsLost.verified {s : StorageState} {events : List StorageEvent} (hlost : s.IsLost)
    (h : (s.run events).isWriteAllowed = true) :
    ∃ before refused after, events = before ++ .identityOk :: (refused ++ .verifyOk :: after) ∧
      s.run before = .reconnecting ∧
      ∀ event ∈ refused, StorageState.verifying.next event = none := by
  have hattached : s.run events = .attached := by simpa [isWriteAllowed] using h
  -- a failed verification takes more than one event, so the induction is on the length
  induction hn : events.length using Nat.strongRecOn generalizing s events with
  | ind n ih =>
    rcases run_cases s events with hsame | ⟨refused,event,s',rest,rfl,hrefused,hnext⟩
    · rw [← hsame,hattached] at hlost
      simp [IsLost] at hlost
    rw [run_of_first hrefused hnext] at hattached h
    have hshorter : rest.length < n := by
      rw [← hn,List.length_append,List.length_cons]
      omega
    rcases hlost.next hnext with hlost' | ⟨rfl,rfl,rfl⟩
    · obtain ⟨before,passed,after,rfl,hbefore,hpassed⟩ := ih _ hshorter hlost' h hattached rfl
      refine ⟨refused ++ event :: before,passed,after,by simp,?_,hpassed⟩
      rw [run_of_first hrefused hnext,hbefore]
    rcases run_cases .verifying rest with hopen | ⟨passed,verdict,s'',rest',rfl,hpassed,hverdict⟩
    · rw [hattached] at hopen
      cases hopen
    rw [run_of_first hpassed hverdict] at hattached h
    rcases next_of_verifying hverdict with hlost'' | ⟨rfl,-⟩
    · have hshorter' : rest'.length < n := by
        rw [List.length_append,List.length_cons] at hshorter
        omega
      obtain ⟨before,passed',after,rfl,hbefore,hpassed'⟩ :=
        ih _ hshorter' hlost'' h hattached rfl
      refine ⟨refused ++ .identityOk :: (passed ++ verdict :: before),passed',after,by simp,?_,
        hpassed'⟩
      rw [run_of_first hrefused hnext,run_of_first hpassed hverdict,hbefore]
    · exact ⟨refused,passed,rest',rfl,run_of_refused hrefused,hpassed⟩

/-- A root that the user has detached is reconnected on request only. -/
theorem reconnectRequested_mem {events : List StorageEvent}
    (h : StorageState.detachedByUser.run events ≠ .detachedByUser) :
    .reconnectRequested ∈ events := by
  induction events with
  | nil => exact absurd rfl h
  | cons event events ih =>
    rw [run,List.foldl_cons,← run] at h
    cases hnext : StorageState.detachedByUser.next event with
    | none =>
      rw [step_of_none hnext] at h
      exact List.mem_cons_of_mem event (ih h)
    | some s =>
      rcases next_of_detachedByUser hnext with rfl | ⟨rfl,-⟩
      · rw [step_of_some hnext] at h
        exact List.mem_cons_of_mem event (ih h)
      · exact List.mem_cons_self

/-- Whatever the events, writes are allowed again after the identity was confirmed and the contents
were verified, with nothing but refused events between the two, and for a root that the user has
detached after a request, too. -/
theorem reattached_verified {s : StorageState} {events : List StorageEvent} (hlost : s.IsLost)
    (h : (s.run events).isWriteAllowed = true) :
    ∃ before refused after, events = before ++ .identityOk :: (refused ++ .verifyOk :: after) ∧
      s.run before = .reconnecting ∧
      (∀ event ∈ refused, StorageState.verifying.next event = none) ∧
      (s = .detachedByUser → .reconnectRequested ∈ before) := by
  obtain ⟨before,refused,after,hevents,hbefore,hrefused⟩ := hlost.verified h
  refine ⟨before,refused,after,hevents,hbefore,hrefused,?_⟩
  rintro rfl
  refine reconnectRequested_mem ?_
  rw [hbefore]
  decide

/-- A root that was unplugged, found foreign once, and then verified, with an I/O error between. -/
theorem reattached_verified_unplugged :
    ∃ before refused after, [StorageEvent.deviceRemoved,.verifyOk,.reconnectRequested,
        .identityForeign,.deviceArrived,.identityOk,.ioError,.verifyOk] =
        before ++ .identityOk :: (refused ++ .verifyOk :: after) ∧
      StorageState.detachedByUser.run before = .reconnecting ∧
      (∀ event ∈ refused, StorageState.verifying.next event = none) ∧
      (StorageState.detachedByUser = .detachedByUser → .reconnectRequested ∈ before) :=
  reattached_verified (.inr (.inl rfl)) rfl

end StorageState

/-! ## The monitor -/

/-- The answer of `probe`; `None` where it raises. -/
inductive RootProbe
  | ok | missing | foreign
deriving DecidableEq, Repr

/-- What the monitor does to others. -/
inductive MonitorEffect
  | stateChanged (state : StorageState)
  /-- Every worker is cancelled and stopped, the connections are closed, and the log moves off
  the root. -/
  | resourcesReleased
  | storageDetached
deriving DecidableEq, Repr

structure StorageMonitor where
  state : StorageState := .attached
  reprobeCount : Nat := 0
  detachedHandled : Bool := false
  heartbeatActive : Bool := false
  /-- The timer of the reprobes fires once. -/
  reprobeActive : Bool := false
  effects : List MonitorEffect := []
deriving DecidableEq, Repr

namespace StorageMonitor

def stop (m : StorageMonitor) : StorageMonitor :=
  { m with heartbeatActive := false, reprobeActive := false }

/-- `_handle_detached`. -/
def handleDetached (m : StorageMonitor) : StorageMonitor :=
  if m.detachedHandled then m
  else
    { m.stop with
      detachedHandled := true
      effects := m.effects ++ [.resourcesReleased,.storageDetached] }

@[simp] theorem handleDetached_state (m : StorageMonitor) : m.handleDetached.state = m.state := by
  unfold handleDetached
  split <;> rfl

/-- `_transition`: an event that does not fit the state is passed over. -/
def transition (m : StorageMonitor) (event : StorageEvent) : StorageMonitor :=
  match m.state.next event with
  | none => m
  | some current =>
    if current = m.state then m
    else
      let m := { m with state := current, effects := m.effects ++ [.stateChanged current] }
      if current = .detached then m.handleDetached else m

/-- `_schedule_reprobe`, after the count was set to zero. -/
def restartReprobes (m : StorageMonitor) : StorageMonitor :=
  { m with reprobeCount := 0, reprobeActive := true }

/-- `_touch_heartbeat`; `fails` tells whether the lock's `touch_heartbeat` raises. -/
def touchHeartbeat (m : StorageMonitor) (fails : Bool) : StorageMonitor :=
  if fails then
    let m := m.transition .ioError
    if m.state = .degraded then m.restartReprobes else m
  else m

def heartbeat (m : StorageMonitor) (probe : Option RootProbe) (touchFails : Bool) :
    StorageMonitor :=
  if m.state = .attached ∨ m.state = .degraded then
    match probe with
    | none => (m.transition .ioError).restartReprobes
    | some .ok => (m.transition .probeOk).touchHeartbeat touchFails
    | some .missing =>
      let m := m.transition .probeMissing
      if m.state = .degraded then m.restartReprobes else m
    | some .foreign => m.transition .probeForeign
  else m

def handleIoError (m : StorageMonitor) : StorageMonitor :=
  if m.state = .detached ∨ m.state = .detachedByUser then m
  else
    let m := m.transition .ioError
    if m.state = .degraded then m.restartReprobes else m

def requestReconnect (m : StorageMonitor) : StorageMonitor :=
  if m.state = .detached ∨ m.state = .detachedByUser then
    ({ m with detachedHandled := false }.transition .reconnectRequested).restartReprobes
  else m

def handleDeviceArrived (m : StorageMonitor) : StorageMonitor :=
  if m.state = .detached then
    ({ m with detachedHandled := false }.transition .deviceArrived).restartReprobes
  else m

def handleDeviceRemoved (m : StorageMonitor) : StorageMonitor :=
  if m.state = .detached then m else m.transition .deviceRemoved

def markDetachedByUser (m : StorageMonitor) : StorageMonitor :=
  if m.state = .attached ∨ m.state = .degraded then m.transition .userDetach else m

/-- `_reprobe`; `reconnected` is the answer of `_notify_reconnected`. -/
def reprobe (m : StorageMonitor) (attempts : Nat) (probe : Option RootProbe)
    (touchFails reconnected : Bool) : StorageMonitor :=
  if m.state = .degraded ∨ m.state = .reconnecting then
    let m := { m with reprobeCount := m.reprobeCount + 1 }
    match probe.getD .missing with
    | .ok =>
      if m.state = .degraded then
        { (m.transition .reprobeOk).touchHeartbeat touchFails with
          reprobeCount := 0
          heartbeatActive := true }
      else
        let m := m.transition .identityOk
        if reconnected then m.transition .verifyOk else m.transition .verifyFailed
    | .foreign =>
      if m.state = .reconnecting then m.transition .identityForeign
      else m.transition .probeForeign
    | .missing =>
      if attempts ≤ m.reprobeCount then m.transition .reprobeFailed
      else { m with reprobeActive := true }
  else m

def start (m : StorageMonitor) : StorageMonitor :=
  if m.state = .attached then { m with heartbeatActive := true } else m

/-- A timer that fires, with what the calls it makes answer, or a call from outside. -/
inductive Call
  | start
  | stop
  | heartbeatTimer (probe : Option RootProbe) (touchFails : Bool)
  | reprobeTimer (probe : Option RootProbe) (touchFails reconnected : Bool)
  | handleIoError
  | requestReconnect
  | handleDeviceArrived
  | handleDeviceRemoved
  | markDetachedByUser
deriving DecidableEq, Repr

/-- A timer that is not active does not fire. -/
def step (attempts : Nat) (m : StorageMonitor) : Call → StorageMonitor
  | .start => m.start
  | .stop => m.stop
  | .heartbeatTimer probe touchFails =>
    if m.heartbeatActive then m.heartbeat probe touchFails else m
  | .reprobeTimer probe touchFails reconnected =>
    if m.reprobeActive then
      { m with reprobeActive := false }.reprobe attempts probe touchFails reconnected
    else m
  | .handleIoError => m.handleIoError
  | .requestReconnect => m.requestReconnect
  | .handleDeviceArrived => m.handleDeviceArrived
  | .handleDeviceRemoved => m.handleDeviceRemoved
  | .markDetachedByUser => m.markDetachedByUser

def run (attempts : Nat) (m : StorageMonitor) (calls : List Call) : StorageMonitor :=
  calls.foldl (step attempts) m

/-! ## What a change of the state does -/

section
variable {m : StorageMonitor} {event : StorageEvent} {s : StorageState}

theorem transition_of_none (hnext : m.state.next event = none) : m.transition event = m := by
  simp only [transition,hnext]

theorem transition_of_same (hnext : m.state.next event = some m.state) :
    m.transition event = m := by
  simp only [transition,hnext,if_true]

theorem transition_of_next (hnext : m.state.next event = some s) (hne : s ≠ m.state)
    (hs : s ≠ .detached) :
    m.transition event = { m with state := s, effects := m.effects ++ [.stateChanged s] } := by
  simp only [transition,hnext,if_neg hne,if_neg hs]

/-- The root is lost, for the first time since it was found. -/
theorem transition_of_loss (hnext : m.state.next event = some .detached)
    (hne : m.state ≠ .detached) (hhandled : m.detachedHandled = false) :
    m.transition event =
      { m with
        state := .detached
        detachedHandled := true
        heartbeatActive := false
        reprobeActive := false
        effects := m.effects ++ [.stateChanged .detached] ++
          [.resourcesReleased,.storageDetached] } := by
  simp only [transition,hnext,if_neg hne.symm,if_true,handleDetached,hhandled,
    Bool.false_eq_true,if_false,stop]

@[simp] theorem transition_state :
    (m.transition event).state = (m.state.next event).getD m.state := by
  unfold transition
  cases hnext : m.state.next event with
  | none => rfl
  | some s =>
    dsimp only [Option.getD_some]
    split
    · next hsame => exact hsame.symm
    · split
      · exact handleDetached_state _
      · rfl

/-- Only a loss stops the timers. -/
theorem transition_reprobeActive (h : (m.transition event).state ≠ .detached) :
    (m.transition event).reprobeActive = m.reprobeActive := by
  rw [transition_state] at h
  cases hnext : m.state.next event with
  | none => rw [transition_of_none hnext]
  | some s =>
    rw [hnext] at h
    by_cases hsame : s = m.state
    · rw [transition_of_same (hsame ▸ hnext)]
    · rw [transition_of_next hnext hsame h]

end

/-! ## Losses -/

/-- How often the monitor came to `detached`. -/
def losses (m : StorageMonitor) : Nat :=
  m.effects.count (MonitorEffect.stateChanged .detached)

/-- What the monitor has done about its losses. -/
structure Accounted (m : StorageMonitor) : Prop where
  handled : m.detachedHandled = true ↔ m.state = .detached
  quiet : m.state = .detached → m.heartbeatActive = false ∧ m.reprobeActive = false
  /-- Each loss has released what depends on the root, once. -/
  released : m.effects.count .resourcesReleased = m.losses
  told : m.effects.count .storageDetached = m.losses

/-- The monitor between two calls: a verification ends in the call that began it. -/
structure Consistent (m : StorageMonitor) : Prop extends m.Accounted where
  settled : m.state ≠ .verifying

section
variable {m : StorageMonitor} {event : StorageEvent}

theorem Accounted.not_handled (h : m.Accounted) (hstate : m.state ≠ .detached) :
    m.detachedHandled = false := by
  rw [Bool.eq_false_iff,Ne,h.handled]
  exact hstate

/-- A monitor with another state that is no loss. -/
theorem Accounted.moved (h : m.Accounted) {s : StorageState} {handled heartbeat reprobe : Bool}
    {count : Nat} (hs : s ≠ .detached) (hhandled : handled = false) :
    Accounted ⟨s,count,handled,heartbeat,reprobe,m.effects ++ [.stateChanged s]⟩ where
  handled := by simp [hhandled,hs]
  quiet hd := absurd hd hs
  released := by simp [losses,List.count_append,h.released,hs]
  told := by simp [losses,List.count_append,h.told,hs]

/-- A loss, from whatever state the monitor was in. -/
theorem Accounted.lost (h : m.Accounted) {count : Nat} :
    Accounted ⟨.detached,count,true,false,false,
      m.effects ++ [.stateChanged .detached] ++ [.resourcesReleased,.storageDetached]⟩ where
  handled := by simp
  quiet _ := ⟨rfl,rfl⟩
  released := by simp [losses,List.count_append,h.released]
  told := by simp [losses,List.count_append,h.told]

theorem Accounted.transition (h : m.Accounted) (hstate : m.state ≠ .detached) :
    (m.transition event).Accounted := by
  cases hnext : m.state.next event with
  | none =>
    rw [transition_of_none hnext]
    exact h
  | some s =>
    by_cases hsame : s = m.state
    · rw [transition_of_same (hsame ▸ hnext)]
      exact h
    · by_cases hs : s = .detached
      · subst hs
        rw [transition_of_loss hnext hstate (h.not_handled hstate)]
        exact h.lost
      · rw [transition_of_next hnext hsame hs]
        exact h.moved hs (h.not_handled hstate)

theorem Consistent.transition (h : m.Consistent) (hstate : m.state ≠ .detached)
    (hevent : event ≠ .identityOk) : (m.transition event).Consistent where
  toAccounted := h.toAccounted.transition hstate
  settled := by
    rw [transition_state]
    have hsettled := h.settled
    cases hm : m.state <;> cases event <;> simp_all [StorageState.next]

/-- The timers may run while the root is not lost. -/
theorem Consistent.timed (h : m.Consistent) (hstate : m.state ≠ .detached) (count : Nat)
    (heartbeat reprobe : Bool) :
    Consistent { m with
      reprobeCount := count, heartbeatActive := heartbeat, reprobeActive := reprobe } where
  settled := h.settled
  handled := h.handled
  quiet hd := absurd hd hstate
  released := h.released
  told := h.told

theorem Consistent.restartReprobes (h : m.Consistent) (hstate : m.state ≠ .detached) :
    m.restartReprobes.Consistent :=
  h.timed hstate 0 m.heartbeatActive true

/-- An I/O error, and a new round of reprobes. -/
theorem Consistent.ioError (h : m.Consistent) (hstate : m.state ≠ .detached) :
    Consistent (if (m.transition .ioError).state = .degraded
      then (m.transition .ioError).restartReprobes else m.transition .ioError) := by
  have hmoved : (m.transition .ioError).Consistent := h.transition hstate (by decide)
  split
  · next hdegraded => exact hmoved.restartReprobes (by rw [hdegraded]; decide)
  · exact hmoved

theorem Consistent.touchHeartbeat (h : m.Consistent) (hstate : m.state ≠ .detached)
    (fails : Bool) : (m.touchHeartbeat fails).Consistent := by
  unfold StorageMonitor.touchHeartbeat
  split
  · exact h.ioError hstate
  · exact h

/-- A heartbeat file that cannot be written degrades the root. -/
theorem touchHeartbeat_of_attached (hstate : m.state = .attached) (fails : Bool) :
    (m.touchHeartbeat fails).state = (if fails then .degraded else .attached) ∧
      (fails = true → (m.touchHeartbeat fails).reprobeActive = true) := by
  have hdegraded : (m.transition .ioError).state = .degraded := by
    rw [transition_state,hstate]
    rfl
  cases fails with
  | true =>
    simp only [StorageMonitor.touchHeartbeat,if_true,hdegraded]
    exact ⟨hdegraded,fun _ => rfl⟩
  | false => exact ⟨hstate,nofun⟩

theorem Consistent.heartbeat (h : m.Consistent) (probe : Option RootProbe) (touchFails : Bool) :
    (m.heartbeat probe touchFails).Consistent := by
  unfold StorageMonitor.heartbeat
  split
  · next hstate =>
    have hlive : m.state ≠ .detached := by rcases hstate with hs | hs <;> rw [hs] <;> decide
    split
    · refine (h.transition hlive (by decide)).restartReprobes ?_
      rcases hstate with hs | hs <;> simp [hs,StorageState.next]
    · refine (h.transition hlive (by decide)).touchHeartbeat ?_ _
      rcases hstate with hs | hs <;> simp [hs,StorageState.next]
    · have hmoved : (m.transition .probeMissing).Consistent := h.transition hlive (by decide)
      dsimp only
      split
      · next hdegraded => exact hmoved.restartReprobes (by rw [hdegraded]; decide)
      · exact hmoved
    · exact h.transition hlive (by decide)
  · exact h

theorem Consistent.handleIoError (h : m.Consistent) : m.handleIoError.Consistent := by
  unfold StorageMonitor.handleIoError
  split
  · exact h
  · next hstate => exact h.ioError fun hd => hstate (.inl hd)

/-- The root is sought again. -/
theorem Consistent.sought (h : m.Consistent) (hlost : m.state = .detached ∨
    m.state = .detachedByUser) (hnext : m.state.next event = some .reconnecting) :
    ({ m with detachedHandled := false }.transition event).restartReprobes.Consistent := by
  have hne : StorageState.reconnecting ≠ m.state := by
    rcases hlost with hs | hs <;> rw [hs] <;> decide
  rw [transition_of_next (m := { m with detachedHandled := false }) hnext hne nofun]
  exact ⟨h.moved nofun rfl,nofun⟩

theorem Consistent.requestReconnect (h : m.Consistent) : m.requestReconnect.Consistent := by
  unfold StorageMonitor.requestReconnect
  split
  · next hlost =>
    refine h.sought hlost ?_
    rcases hlost with hs | hs <;> rw [hs] <;> rfl
  · exact h

theorem Consistent.handleDeviceArrived (h : m.Consistent) :
    m.handleDeviceArrived.Consistent := by
  unfold StorageMonitor.handleDeviceArrived
  split
  · next hlost => exact h.sought (.inl hlost) (by rw [hlost]; rfl)
  · exact h

theorem Consistent.handleDeviceRemoved (h : m.Consistent) :
    m.handleDeviceRemoved.Consistent := by
  unfold StorageMonitor.handleDeviceRemoved
  split
  · exact h
  · next hstate => exact h.transition hstate (by decide)

theorem Consistent.markDetachedByUser (h : m.Consistent) : m.markDetachedByUser.Consistent := by
  unfold StorageMonitor.markDetachedByUser
  split
  · next hstate =>
    refine h.transition ?_ (by decide)
    rcases hstate with hs | hs <;> rw [hs] <;> decide
  · exact h

/-- A verification that follows at once on the confirmed identity. -/
theorem Consistent.verification (h : m.Consistent) (hstate : m.state = .reconnecting)
    (reconnected : Bool) :
    Consistent (if reconnected then (m.transition .identityOk).transition .verifyOk
      else (m.transition .identityOk).transition .verifyFailed) := by
  have hverifying : (m.transition .identityOk).state = .verifying := by
    rw [transition_state,hstate]
    rfl
  have hidentity : (m.transition .identityOk).Accounted :=
    h.toAccounted.transition (by rw [hstate]; decide)
  cases reconnected with
  | true => exact ⟨hidentity.transition (by rw [hverifying]; decide),by
      rw [if_pos rfl,transition_state,hverifying]; decide⟩
  | false => exact ⟨hidentity.transition (by rw [hverifying]; decide),by
      rw [if_neg (by decide),transition_state,hverifying]; decide⟩

theorem Consistent.reprobe (h : m.Consistent) (attempts : Nat) (probe : Option RootProbe)
    (touchFails reconnected : Bool) :
    (m.reprobe attempts probe touchFails reconnected).Consistent := by
  unfold StorageMonitor.reprobe
  split
  · next hstate =>
    have hlive : m.state ≠ .detached := by rcases hstate with hs | hs <;> rw [hs] <;> decide
    have hcounted := h.timed hlive (m.reprobeCount + 1) m.heartbeatActive m.reprobeActive
    dsimp only
    split
    · split
      · next hdegraded =>
        refine ((hcounted.transition hlive (by decide)).touchHeartbeat ?_ touchFails).timed ?_
          0 true _
        · simp [hdegraded,StorageState.next]
        · rw [(touchHeartbeat_of_attached (by simp [hdegraded,StorageState.next]) _).1]
          split <;> decide
      · next hnot => exact hcounted.verification (hstate.resolve_left hnot) reconnected
    · split
      · exact hcounted.transition hlive (by decide)
      · exact hcounted.transition hlive (by decide)
    · split
      · exact hcounted.transition hlive (by decide)
      · exact hcounted.timed hlive _ _ true
  · exact h

theorem Consistent.stop (h : m.Consistent) : m.stop.Consistent where
  toAccounted := { h.toAccounted with quiet := fun _ => ⟨rfl,rfl⟩ }
  settled := h.settled

theorem Consistent.start (h : m.Consistent) : m.start.Consistent := by
  unfold StorageMonitor.start
  split
  · next hstate => exact h.timed (by rw [hstate]; decide) _ true _
  · exact h

theorem Consistent.step (h : m.Consistent) (attempts : Nat) (call : Call) :
    (m.step attempts call).Consistent := by
  cases call with
  | start => exact h.start
  | stop => exact h.stop
  | heartbeatTimer probe touchFails =>
    simp only [StorageMonitor.step]
    split
    · exact h.heartbeat probe touchFails
    · exact h
  | reprobeTimer probe touchFails reconnected =>
    simp only [StorageMonitor.step]
    split
    · next hactive =>
      have hlive : m.state ≠ .detached := fun hd => by simp [(h.quiet hd).2] at hactive
      exact (h.timed hlive _ _ false).reprobe attempts probe touchFails reconnected
    · exact h
  | handleIoError => exact h.handleIoError
  | requestReconnect => exact h.requestReconnect
  | handleDeviceArrived => exact h.handleDeviceArrived
  | handleDeviceRemoved => exact h.handleDeviceRemoved
  | markDetachedByUser => exact h.markDetachedByUser

theorem Consistent.run (h : m.Consistent) (attempts : Nat) (calls : List Call) :
    (m.run attempts calls).Consistent := by
  induction calls generalizing m with
  | nil => exact h
  | cons call calls ih => exact ih (h.step attempts call)

end

theorem new_consistent : Consistent {} where
  handled := by decide
  quiet := nofun
  released := rfl
  told := rfl
  settled := nofun

/-- After every run of timers and calls from outside, no verification is left open, a loss is
handled exactly while the root is lost, the timers of a lost root stand still, and each loss has
released the workers, the connections and the log, and was told, once. -/
theorem run_consistent (attempts : Nat) (calls : List Call) :
    (run attempts {} calls).Consistent :=
  new_consistent.run attempts calls

/-! ## Coming back -/

section
variable {m : StorageMonitor}

/-- Until a reprobe has confirmed the identity of a lost root and reconnected it, it stays lost. -/
theorem step_of_lost (h : m.state.IsLost) (attempts : Nat) (call : Call) :
    (m.step attempts call).state.IsLost ∨
      m.state = .reconnecting ∧ ∃ touchFails, call = .reprobeTimer (some .ok) touchFails true := by
  have hnot : ¬ (m.state = .attached ∨ m.state = .degraded) := by
    rcases h with hs | hs | hs <;> rw [hs] <;> decide
  -- a change of the state that begins no verification leaves the root lost
  have hmove : ∀ event, event ≠ .identityOk → ((m.state.next event).getD m.state).IsLost := by
    intro event hevent
    cases hnext : m.state.next event with
    | none => exact h
    | some s => exact (h.next hnext).resolve_right fun hidentity => hevent hidentity.2.1
  cases call with
  | start => exact .inl (by rwa [step,start,if_neg fun hs => hnot (.inl hs)])
  | stop => exact .inl h
  | heartbeatTimer probe touchFails =>
    refine .inl ?_
    simp only [step,heartbeat,if_neg hnot]
    split <;> exact h
  | reprobeTimer probe touchFails reconnected =>
    simp only [step]
    split
    · simp only [reprobe]
      split
      · next hstate =>
        have hreconnecting := hstate.resolve_left fun hs => hnot (.inr hs)
        have hidentity : m.state.next .identityOk = some .verifying := by
          rw [hreconnecting]
          rfl
        split
        · next hprobe =>
          rw [if_neg fun hs => hnot (.inr hs)]
          cases reconnected with
          | true =>
            have hok : probe = some .ok := by
              cases probe with
              | none => cases hprobe
              | some found => exact congrArg some hprobe
            exact .inr ⟨hreconnecting,touchFails,by rw [hok]⟩
          | false =>
            refine .inl ?_
            rw [if_neg (by decide),transition_state,transition_state,hidentity]
            exact .inl rfl
        · refine .inl ?_
          split <;> rw [transition_state] <;> exact hmove _ (by decide)
        · refine .inl ?_
          split
          · rw [transition_state]
            exact hmove _ (by decide)
          · exact h
      · exact .inl h
    · exact .inl h
  | handleIoError =>
    refine .inl ?_
    simp only [step,handleIoError]
    split
    · exact h
    · have hmoved := hmove .ioError (by decide)
      split
      · rw [restartReprobes,transition_state]
        exact hmoved
      · rw [transition_state]
        exact hmoved
  | requestReconnect =>
    refine .inl ?_
    simp only [step,requestReconnect]
    split
    · rw [restartReprobes,transition_state]
      exact hmove _ (by decide)
    · exact h
  | handleDeviceArrived =>
    refine .inl ?_
    simp only [step,handleDeviceArrived]
    split
    · rw [restartReprobes,transition_state]
      exact hmove _ (by decide)
    · exact h
  | handleDeviceRemoved =>
    refine .inl ?_
    simp only [step,handleDeviceRemoved]
    split
    · exact h
    · rw [transition_state]
      exact hmove _ (by decide)
  | markDetachedByUser => exact .inl (by rwa [step,markDetachedByUser,if_neg hnot])

/-- A root that the user has detached waits for a request. -/
theorem step_of_detachedByUser (h : m.state = .detachedByUser) (attempts : Nat) {call : Call}
    (hcall : call ≠ .requestReconnect) : (m.step attempts call).state = .detachedByUser := by
  cases call with
  | requestReconnect => exact absurd rfl hcall
  | start => rw [step,start,if_neg (by rw [h]; decide),h]
  | stop => exact h
  | heartbeatTimer probe touchFails =>
    simp only [step,heartbeat,h,reduceCtorEq,or_self,if_false]
    split <;> exact h
  | reprobeTimer probe touchFails reconnected =>
    simp only [step,reprobe,h,reduceCtorEq,or_self,if_false]
    split
    · rfl
    · exact h
  | handleIoError => rw [step,handleIoError,if_pos (.inr h),h]
  | handleDeviceArrived => rw [step,handleDeviceArrived,if_neg (by rw [h]; decide),h]
  | handleDeviceRemoved =>
    rw [step,handleDeviceRemoved,if_neg (by rw [h]; decide),transition_state,h]
    rfl
  | markDetachedByUser => rw [step,markDetachedByUser,if_neg (by rw [h]; decide),h]

theorem requestReconnect_mem (h : m.state = .detachedByUser) {attempts : Nat} {calls : List Call}
    (hrun : (m.run attempts calls).state ≠ .detachedByUser) : .requestReconnect ∈ calls := by
  induction calls generalizing m with
  | nil => exact absurd h hrun
  | cons call calls ih =>
    by_cases hcall : call = .requestReconnect
    · rw [hcall]
      exact List.mem_cons_self
    · exact List.mem_cons_of_mem _ (ih (step_of_detachedByUser h attempts hcall) hrun)

/-- Writes on a lost root are allowed again after a reprobe that found the root with its identity
and whose caller has reconnected it; a root that the user has detached was asked for before. -/
theorem run_reattached (h : m.state.IsLost) {attempts : Nat} {calls : List Call}
    (hrun : (m.run attempts calls).state.isWriteAllowed = true) :
    ∃ before touchFails after,
      calls = before ++ .reprobeTimer (some .ok) touchFails true :: after ∧
      (m.run attempts before).state = .reconnecting ∧
      (m.state = .detachedByUser → .requestReconnect ∈ before) := by
  suffices hfound : ∃ before touchFails after,
      calls = before ++ .reprobeTimer (some .ok) touchFails true :: after ∧
      (m.run attempts before).state = .reconnecting by
    obtain ⟨before,touchFails,after,hcalls,hbefore⟩ := hfound
    exact ⟨before,touchFails,after,hcalls,hbefore,fun huser =>
      @requestReconnect_mem m huser attempts before (by rw [hbefore]; decide)⟩
  induction calls generalizing m with
  | nil =>
    rcases h with hs | hs | hs <;> simp [run,StorageState.isWriteAllowed,hs] at hrun
  | cons call calls ih =>
    rcases step_of_lost h attempts call with hlost | ⟨hstate,touchFails,rfl⟩
    · obtain ⟨before,touchFails,after,rfl,hbefore⟩ := ih hlost hrun
      exact ⟨call :: before,touchFails,after,rfl,hbefore⟩
    · exact ⟨[],touchFails,calls,rfl,hstate⟩

/-- A root that the user has detached, and which was found at the second reprobe. -/
theorem run_reattached_second :
    ∃ before touchFails after,
      [Call.requestReconnect,.reprobeTimer none false false,.reprobeTimer (some .ok) false true] =
        before ++ .reprobeTimer (some .ok) touchFails true :: after ∧
      (({ state := .detachedByUser } : StorageMonitor).run 3 before).state = .reconnecting ∧
      (StorageState.detachedByUser = .detachedByUser → .requestReconnect ∈ before) :=
  @run_reattached { state := .detachedByUser } (.inr (.inl rfl)) 3 _ (by decide)

end

/-! ## Declaring the loss -/

/-- The next reprobe is on its way. -/
def Probing (m : StorageMonitor) : Prop :=
  m.state = .degraded ∨ m.state = .reconnecting → m.reprobeActive = true

section
variable {m : StorageMonitor} {event : StorageEvent}

theorem restartReprobes_probing : m.restartReprobes.Probing := fun _ => rfl

theorem Probing.of_state (h : m.state ≠ .degraded ∧ m.state ≠ .reconnecting) : m.Probing :=
  fun hstate => (hstate.elim h.1 h.2).elim

/-- A change that does not make the root degraded or sought keeps the timer that runs. -/
theorem Probing.transition (h : m.Probing)
    (hstate : ∀ s, m.state.next event = some s → s = .degraded ∨ s = .reconnecting →
      s = m.state) : (m.transition event).Probing := by
  intro hmoved
  have hlive : (m.transition event).state ≠ .detached := by
    rcases hmoved with hs | hs <;> rw [hs] <;> decide
  rw [transition_reprobeActive hlive]
  rw [transition_state] at hmoved
  cases hnext : m.state.next event with
  | none => exact h (by rwa [hnext] at hmoved)
  | some s =>
    rw [hnext] at hmoved
    exact h (hstate s hnext hmoved ▸ hmoved)

/-- An event that makes the root degraded begins a round of reprobes. -/
theorem Probing.degrading (h : m.Probing)
    (hstate : ∀ s, m.state.next event = some s → s = .reconnecting → s = m.state) :
    Probing (if (m.transition event).state = .degraded
      then (m.transition event).restartReprobes else m.transition event) := by
  split
  · exact restartReprobes_probing
  · next hnot =>
    refine h.transition fun s hnext hs => hs.elim (fun hd => ?_) (hstate s hnext)
    exact absurd (by rw [transition_state,hnext]; exact hd) hnot

theorem Probing.touchHeartbeat (h : m.Probing) (fails : Bool)
    (hstate : m.state = .attached ∨ m.state = .degraded) : (m.touchHeartbeat fails).Probing := by
  unfold StorageMonitor.touchHeartbeat
  split
  · refine h.degrading fun s hnext hs => ?_
    rcases hstate with hm | hm <;> rw [hm] at hnext <;> cases hnext <;> cases hs
  · exact h

theorem Probing.heartbeat (h : m.Probing) (probe : Option RootProbe) (touchFails : Bool) :
    (m.heartbeat probe touchFails).Probing := by
  unfold StorageMonitor.heartbeat
  split
  · next hstate =>
    split
    · exact restartReprobes_probing
    · refine Probing.touchHeartbeat (h.transition fun s hnext hs => ?_) _ ?_
      · rcases hstate with hm | hm <;> rw [hm] at hnext <;> cases hnext
        rcases hs with hs | hs <;> cases hs
      · rcases hstate with hm | hm <;> rw [transition_state,hm] <;> simp [StorageState.next]
    · refine h.degrading fun s hnext hs => ?_
      rcases hstate with hm | hm <;> rw [hm] at hnext <;> cases hnext <;> cases hs
    · refine h.transition fun s hnext hs => ?_
      rcases hstate with hm | hm <;> rw [hm] at hnext <;> cases hnext <;>
        rcases hs with hs | hs <;> cases hs
  · exact h

/-- A reprobe goes on to the next one, or ends the outage. -/
theorem reprobe_probing (attempts : Nat) (probe : Option RootProbe)
    (touchFails reconnected : Bool) :
    (m.reprobe attempts probe touchFails reconnected).Probing := by
  unfold StorageMonitor.reprobe
  split
  · next hstate =>
    dsimp only
    split
    · split
      · next hdegraded =>
        have hattached : ({ m with reprobeCount := m.reprobeCount + 1 }.transition
            .reprobeOk).state = .attached := by
          rw [transition_state]
          simp [hdegraded,StorageState.next]
        obtain ⟨htouched,hactive⟩ := touchHeartbeat_of_attached hattached touchFails
        cases touchFails with
        | true => exact fun _ => hactive rfl
        | false =>
          refine Probing.of_state ⟨?_,?_⟩ <;> dsimp only <;> rw [htouched] <;> decide
      · next hnot =>
        have hreconnecting := hstate.resolve_left hnot
        refine Probing.of_state ?_
        split <;> simp [hreconnecting,StorageState.next]
    · split
      · next hreconnecting => exact Probing.of_state (by simp [hreconnecting,StorageState.next])
      · next hnot =>
        have hdegraded := hstate.resolve_right hnot
        exact Probing.of_state (by simp [hdegraded,StorageState.next])
    · split
      · refine Probing.of_state ?_
        rcases hstate with hs | hs <;> simp [hs,StorageState.next]
      · exact fun _ => rfl
  · next hnot => exact Probing.of_state (not_or.mp hnot)

theorem Probing.step (h : m.Probing) (attempts : Nat) {call : Call} (hcall : call ≠ .stop) :
    (m.step attempts call).Probing := by
  cases call with
  | stop => exact absurd rfl hcall
  | start =>
    simp only [StorageMonitor.step,start]
    split <;> exact h
  | heartbeatTimer probe touchFails =>
    simp only [StorageMonitor.step]
    split
    · exact h.heartbeat probe touchFails
    · exact h
  | reprobeTimer probe touchFails reconnected =>
    simp only [StorageMonitor.step]
    split
    · exact reprobe_probing attempts probe touchFails reconnected
    · exact h
  | handleIoError =>
    simp only [StorageMonitor.step,handleIoError]
    split
    · exact h
    · refine h.degrading fun s hnext hs => ?_
      cases hm : m.state <;> rw [hm] at hnext <;> cases hnext <;> cases hs
  | requestReconnect =>
    simp only [StorageMonitor.step,requestReconnect]
    split
    · exact restartReprobes_probing
    · exact h
  | handleDeviceArrived =>
    simp only [StorageMonitor.step,handleDeviceArrived]
    split
    · exact restartReprobes_probing
    · exact h
  | handleDeviceRemoved =>
    simp only [StorageMonitor.step,handleDeviceRemoved]
    split
    · exact h
    · refine h.transition fun s hnext hs => ?_
      cases hm : m.state <;> rw [hm] at hnext <;> cases hnext <;> rcases hs with hs | hs <;> cases hs
  | markDetachedByUser =>
    simp only [StorageMonitor.step,markDetachedByUser]
    split
    · refine h.transition fun s hnext hs => ?_
      cases hm : m.state <;> rw [hm] at hnext <;> cases hnext <;> rcases hs with hs | hs <;> cases hs
    · exact h

theorem Probing.run (h : m.Probing) (attempts : Nat) {calls : List Call}
    (hcalls : .stop ∉ calls) : (m.run attempts calls).Probing := by
  induction calls generalizing m with
  | nil => exact h
  | cons call calls ih =>
    rw [List.mem_cons,not_or] at hcalls
    exact ih (h.step attempts fun heq => hcalls.1 heq.symm) hcalls.2

/-- A reprobe that does not find the root. -/
def Missed (call : Call) : Prop :=
  ∃ probe touchFails reconnected,
    call = .reprobeTimer probe touchFails reconnected ∧ probe ≠ some .ok

theorem Accounted.loss (h : m.Accounted) (hstate : m.state ≠ .detached)
    (hnext : m.state.next event = some .detached) :
    (m.transition event).state = .detached ∧ (m.transition event).losses = m.losses + 1 := by
  rw [transition_of_loss hnext hstate (h.not_handled hstate)]
  exact ⟨rfl,by simp [losses,List.count_append]⟩

/-- The root is lost, or the next reprobe is awaited. -/
theorem Consistent.missed (h : m.Consistent) (hstate : m.state = .degraded ∨
    m.state = .reconnecting) (hactive : m.reprobeActive = true) (attempts : Nat) {call : Call}
    (hcall : Missed call) :
    ((m.step attempts call).state = .detached ∧
      (m.step attempts call).losses = m.losses + 1) ∨
    m.reprobeCount + 1 < attempts ∧
      m.step attempts call = { m with reprobeCount := m.reprobeCount + 1 } := by
  obtain ⟨probe,touchFails,reconnected,rfl,hprobe⟩ := hcall
  have hlive : m.state ≠ .detached := by rcases hstate with hs | hs <;> rw [hs] <;> decide
  have hcounted := (h.timed hlive (m.reprobeCount + 1) m.heartbeatActive false).toAccounted
  simp only [StorageMonitor.step,if_pos hactive,StorageMonitor.reprobe,if_pos hstate]
  cases hfound : probe.getD .missing with
  | ok =>
    cases probe with
    | none => cases hfound
    | some found => exact absurd (congrArg some hfound) hprobe
  | foreign =>
    refine .inl ?_
    dsimp only
    split
    · next hreconnecting => exact hcounted.loss hlive (by simp [hreconnecting,StorageState.next])
    · next hnot =>
      exact hcounted.loss hlive (by simp [hstate.resolve_right hnot,StorageState.next])
  | missing =>
    dsimp only
    split
    · refine .inl (hcounted.loss hlive ?_)
      rcases hstate with hs | hs <;> simp [hs,StorageState.next]
    · next hleft =>
      exact .inr ⟨Nat.lt_of_not_le hleft,by rw [← hactive]⟩

/-- The timers of a lost root do not fire. -/
theorem Consistent.run_of_detached (h : m.Consistent) (hstate : m.state = .detached)
    (attempts : Nat) {calls : List Call} (hcalls : ∀ call ∈ calls,
      (∃ probe touchFails, call = .heartbeatTimer probe touchFails) ∨ Missed call) :
    m.run attempts calls = m := by
  induction calls with
  | nil => rfl
  | cons call calls ih =>
    have hstep : m.step attempts call = m := by
      rcases hcalls call List.mem_cons_self with ⟨_,_,rfl⟩ | ⟨_,_,_,rfl,-⟩
      · simp [StorageMonitor.step,(h.quiet hstate).1]
      · simp [StorageMonitor.step,(h.quiet hstate).2]
    rw [StorageMonitor.run,List.foldl_cons,hstep]
    exact ih fun c hc => hcalls c (List.mem_cons_of_mem _ hc)

theorem Consistent.run_missed (h : m.Consistent) (hstate : m.state = .degraded ∨
    m.state = .reconnecting) (hactive : m.reprobeActive = true) {attempts : Nat}
    {firings : List Call} (hmissed : ∀ call ∈ firings, Missed call) (hsome : firings ≠ [])
    (hlength : attempts ≤ m.reprobeCount + firings.length) :
    (m.run attempts firings).state = .detached ∧
      (m.run attempts firings).losses = m.losses + 1 := by
  induction firings generalizing m with
  | nil => exact absurd rfl hsome
  | cons call firings ih =>
    have hrest : ∀ c ∈ firings, Missed c := fun c hc => hmissed c (List.mem_cons_of_mem _ hc)
    rcases h.missed hstate hactive attempts (hmissed call List.mem_cons_self) with
      hlost | ⟨hleft,hstep⟩
    · have hstay := (h.step attempts call).run_of_detached hlost.1 attempts
        fun c hc => .inr (hrest c hc)
      rw [StorageMonitor.run] at hstay ⊢
      rw [List.foldl_cons,hstay]
      exact hlost
    · have hlive : m.state ≠ .detached := by rcases hstate with hs | hs <;> rw [hs] <;> decide
      have hcounted := h.timed hlive (m.reprobeCount + 1) m.heartbeatActive m.reprobeActive
      rw [List.length_cons] at hlength
      rw [StorageMonitor.run,List.foldl_cons,hstep]
      refine ih hcounted hstate hactive hrest ?_ (by dsimp only; omega)
      rintro rfl
      simp only [List.length_nil] at hlength
      omega

/-- A root that stays away is declared lost: whatever happened before, as many reprobes in a row
as are allowed, and at least one, release what depends on the root, once. -/
theorem run_lost {attempts : Nat} {calls firings : List Call} (hcalls : .stop ∉ calls)
    (hstate : (run attempts {} calls).state = .degraded ∨
      (run attempts {} calls).state = .reconnecting)
    (hmissed : ∀ call ∈ firings, Missed call) (hlength : max attempts 1 ≤ firings.length) :
    (run attempts {} (calls ++ firings)).state = .detached ∧
      (run attempts {} (calls ++ firings)).effects.count .resourcesReleased =
        (run attempts {} calls).effects.count .resourcesReleased + 1 := by
  have hbefore := new_consistent.run attempts calls
  have hprobing : Probing (run attempts {} calls) :=
    Probing.run (m := {}) (Probing.of_state (by decide)) attempts hcalls
  have hsome : firings ≠ [] := by
    rintro rfl
    simp at hlength
  have hlength' : attempts ≤ (run attempts {} calls).reprobeCount + firings.length := by omega
  have hlost := hbefore.run_missed hstate (hprobing hstate) hmissed hsome hlength'
  have hafter := new_consistent.run attempts (calls ++ firings)
  have happend : run attempts {} (calls ++ firings) =
      (run attempts {} calls).run attempts firings := List.foldl_append
  rw [hafter.released,hbefore.released,happend]
  exact hlost

/-- An I/O error, and a disk that does not come back. -/
theorem run_lost_unplugged :
    (run 2 {} ([.start,.handleIoError] ++ [.reprobeTimer none false false,
      .reprobeTimer (some .missing) false false])).state = .detached ∧
    (run 2 {} ([.start,.handleIoError] ++ [.reprobeTimer none false false,
      .reprobeTimer (some .missing) false false])).effects.count .resourcesReleased =
        (run 2 {} [.start,.handleIoError]).effects.count .resourcesReleased + 1 := by
  refine run_lost (by decide) (.inl (by decide)) (fun call hcall => ?_) (by decide)
  simp only [List.mem_cons,List.not_mem_nil,or_false] at hcall
  rcases hcall with rfl | rfl
  · exact ⟨_,_,_,rfl,by decide⟩
  · exact ⟨_,_,_,rfl,by decide⟩

/-! ## Heartbeats during an outage -/

/-- The root is missing: between two heartbeats, some reprobes. -/
def outage (rounds : List Nat) : List Call :=
  rounds.flatMap fun reprobes =>
    List.replicate reprobes (.reprobeTimer (some .missing) false false) ++
      [.heartbeatTimer (some .missing) false]

/-- Few enough reprobes, and the heartbeat that begins the count anew. -/
theorem run_round (hstate : m.state = .degraded) (hheartbeat : m.heartbeatActive = true)
    (hreprobe : m.reprobeActive = true) (hcount : m.reprobeCount = 0) {attempts reprobes : Nat}
    (hfew : reprobes < max attempts 1) : m.run attempts (outage [reprobes]) = m := by
  have hmissing : ∀ n, n < max attempts 1 →
      m.run attempts (List.replicate n (.reprobeTimer (some .missing) false false)) =
        { m with reprobeCount := n } := by
    intro n hn
    induction n with
    | zero => rw [List.replicate_zero,← hcount]; rfl
    | succ n ih =>
      have hleft : ¬ attempts ≤ n + 1 := by omega
      rw [run] at ih ⊢
      rw [List.replicate_succ',List.foldl_append,ih (by omega)]
      simp [step,reprobe,hreprobe,hstate,hleft]
  have hround : m.run attempts (outage [reprobes]) = (m.run attempts
      (List.replicate reprobes (.reprobeTimer (some .missing) false false))).step attempts
        (.heartbeatTimer (some .missing) false) := by
    simp [run,outage]
  have hsame : ({ m with reprobeCount := reprobes } : StorageMonitor).transition .probeMissing =
      { m with reprobeCount := reprobes } :=
    transition_of_same (by simp [hstate,StorageState.next])
  rw [hround,hmissing _ hfew]
  simp only [step,if_pos hheartbeat,heartbeat,if_pos (Or.inr hstate),hsame,if_pos hstate,
    restartReprobes]
  rw [← hreprobe,← hcount]

theorem run_outage_cons (attempts reprobes : Nat) (rounds : List Nat) :
    m.run attempts (outage (reprobes :: rounds)) =
      (m.run attempts (outage [reprobes])).run attempts (outage rounds) := by
  simp [run,outage]

theorem run_outage_reprobes (attempts reprobes : Nat) (rounds : List Nat) :
    m.run attempts (outage (reprobes :: rounds)) =
      (m.run attempts (List.replicate reprobes (.reprobeTimer (some .missing) false false))).run
        attempts (.heartbeatTimer (some .missing) false :: outage rounds) := by
  simp [run,outage]

/-- Nothing but timers fires in an outage. -/
theorem timer_of_mem_outage {rounds : List Nat} {call : Call} (hcall : call ∈ outage rounds) :
    (∃ probe touchFails, call = .heartbeatTimer probe touchFails) ∨ Missed call := by
  obtain ⟨n,-,hcall⟩ := List.mem_flatMap.mp hcall
  rcases List.mem_append.mp hcall with hcall | hcall
  · exact .inr ⟨_,_,_,List.eq_of_mem_replicate hcall,by decide⟩
  · exact .inl ⟨_,_,List.mem_singleton.mp hcall⟩

/-- Enough reprobes between two heartbeats, and whatever comes of the outage after them. -/
theorem Consistent.run_outage_of_many (h : m.Consistent) (hstate : m.state = .degraded)
    (hreprobe : m.reprobeActive = true) {attempts reprobes : Nat}
    (hmany : max attempts 1 ≤ reprobes) (rounds : List Nat) :
    (m.run attempts (outage (reprobes :: rounds))).state = .detached := by
  have hmissed : ∀ call ∈ List.replicate reprobes
      (Call.reprobeTimer (some .missing) false false), Missed call :=
    fun call hcall => ⟨_,_,_,List.eq_of_mem_replicate hcall,by decide⟩
  have hsome : List.replicate reprobes (Call.reprobeTimer (some .missing) false false) ≠ [] := by
    intro hnil
    rw [List.replicate_eq_nil_iff] at hnil
    omega
  have hlength : attempts ≤ m.reprobeCount + (List.replicate reprobes
      (Call.reprobeTimer (some .missing) false false)).length := by
    rw [List.length_replicate]
    omega
  have hlost := h.run_missed (.inl hstate) hreprobe hmissed hsome hlength
  rw [run_outage_reprobes,(h.run attempts _).run_of_detached hlost.1 attempts fun call hcall => ?_]
  · exact hlost.1
  · rcases List.mem_cons.mp hcall with rfl | hcall
    · exact .inl ⟨_,_,rfl⟩
    · exact timer_of_mem_outage hcall

/-- While the root is missing, the loss is declared exactly if as many reprobes as are allowed, and
at least one, fire between two heartbeats: a heartbeat that finds the root missing begins the count
anew. -/
theorem run_starved {attempts : Nat} {calls : List Call} {rounds : List Nat}
    (hstate : (run attempts {} calls).state = .degraded)
    (hheartbeat : (run attempts {} calls).heartbeatActive = true)
    (hreprobe : (run attempts {} calls).reprobeActive = true)
    (hcount : (run attempts {} calls).reprobeCount = 0) :
    (run attempts {} (calls ++ outage rounds)).state = .detached ↔
      ∃ reprobes ∈ rounds, max attempts 1 ≤ reprobes := by
  have hconsistent := new_consistent.run attempts calls
  rw [run,List.foldl_append,← run,← run]
  generalize run attempts {} calls = m at *
  induction rounds with
  | nil => simp [outage,run,hstate]
  | cons reprobes rounds ih =>
    by_cases hfew : reprobes < max attempts 1
    · rw [run_outage_cons,run_round hstate hheartbeat hreprobe hcount hfew]
      refine ih.trans ⟨fun ⟨n,hn,hmany⟩ => ⟨n,List.mem_cons_of_mem _ hn,hmany⟩,?_⟩
      rintro ⟨n,hn,hmany⟩
      rcases List.mem_cons.mp hn with rfl | hn
      · omega
      · exact ⟨n,hn,hmany⟩
    · have hmany : max attempts 1 ≤ reprobes := Nat.not_lt.mp hfew
      exact iff_of_true (hconsistent.run_outage_of_many hstate hreprobe hmany rounds)
        ⟨reprobes,List.mem_cons_self,hmany⟩

/-- Twelve reprobes are allowed: ten between any two heartbeats never declare the loss, twelve in
one interval do. -/
theorem run_starved_twelve :
    (run 12 {} ([.start,.handleIoError] ++ outage [0,10,10,10])).state ≠ .detached ∧
    (run 12 {} ([.start,.handleIoError] ++ outage [0,10,12,1])).state = .detached := by
  have hstarved := fun rounds => @run_starved 12 [.start,.handleIoError] rounds (by decide)
    (by decide) (by decide) (by decide)
  refine ⟨fun hlost => ?_,(hstarved [0,10,12,1]).mpr (by decide)⟩
  exact absurd ((hstarved [0,10,10,10]).mp hlost) (by decide)

end

end StorageMonitor

end MailDock
