import MailDock.Presentation.TableModel
import Mathlib.Logic.Relation

/-!
# The rows of the message table

Whatever the order of user actions, worker steps and deliveries, the rows outside thread mode
are the pages of the current query from the first one on.  A pending request id is waited for
in vain only when another controller has taken the channel over meanwhile.
-/

namespace MailDock

/-- The pages the database can answer a request with. -/
def SearchRequest.Answers (normalizeForSearch : String → String) (r : SearchRequest)
    (p : SearchPage) : Prop :=
  ∃ (index : SearchIndex) (repo : Repository),
    r.run normalizeForSearch index repo.tables = .ok p

/-- Pages read one after the other: the first without a cursor, each further one with the
cursor of the page before it. -/
inductive ConsecutivePages (normalizeForSearch : String → String)
    (ask : Option PageCursor → SearchRequest) : List SearchPage → Option PageCursor → Prop
  | none : ConsecutivePages normalizeForSearch ask [] none
  | next {pages : List SearchPage} {cursor : Option PageCursor} {p : SearchPage}
      (before : ConsecutivePages normalizeForSearch ask pages cursor)
      (more : pages = [] ∨ cursor.isSome = true)
      (read : (ask cursor).Answers normalizeForSearch p) :
      ConsecutivePages normalizeForSearch ask (pages ++ [p]) p.nextCursor

/-- A page that is not the last one has a cursor. -/
theorem SearchRequest.Answers.nextCursor {normalizeForSearch : String → String}
    {r : SearchRequest} {p : SearchPage} (h : r.Answers normalizeForSearch p)
    (hmore : p.exhausted = false) : p.nextCursor.isSome = true := by
  obtain ⟨index,repo,h⟩ := h
  have hpage : ∀ plan q, page index repo.tables plan r.filters r.cursor r.limit = .ok q →
      q.exhausted = false → q.nextCursor.isSome = true := by
    intro plan q hq hqmore
    have hlimit : 0 < r.limit := by
      by_contra hzero
      rw [page,if_pos (by omega)] at hq
      cases hq
    obtain ⟨q',hq',hfirst⟩ : ∃ q', page index repo.tables plan r.filters r.cursor r.limit =
        .ok q' ∧ q'.IsFirst (Keyset.after PageRow.key (r.cursor.map PageCursor.key)
          (listing repo index plan r.filters)) r.limit := page_isFirst r.cursor hlimit
    rw [hq,Except.ok.injEq] at hq'
    subst hq'
    have hlt := hfirst.exhausted.symm.trans hqmore
    simp only [Bool.not_eq_false',decide_eq_true_eq] at hlt
    rw [hfirst.nextCursor hlt,Option.isSome_map,List.getLast?_isSome,ne_eq,List.take_eq_nil_iff]
    rintro (h | h)
    · omega
    · simp [h] at hlt
  rw [SearchRequest.run] at h
  split at h
  · unfold searchMessages at h
    cases hplan : (parseQuery normalizeForSearch r.query r.mode).mapError SearchError.query with
    | error e => rw [hplan] at h; cases h
    | ok plan =>
      rw [hplan] at h
      cases hq : page index repo.tables (some plan) r.filters r.cursor r.limit with
      | error e => simp [hq,bind,Except.bind] at h
      | ok q =>
        simp only [hq,bind,Except.bind,pure,Except.pure,Except.ok.injEq] at h
        subst h
        exact hpage _ q hq hmore
  · exact hpage none p h hmore

/-- The page a stage carries. -/
def TaskStage.page : TaskStage → Option SearchPage
  | .returned p | .finishing (.page p) | .announced (.page p) => some p
  | _ => none

/-- How far a request is from being done. -/
def TaskStage.rank : TaskStage → Nat
  | .started => 6
  | .executing => 5
  | .returned _ => 4
  | .finishing _ => 3
  | .announced _ => 2
  | .emitted _ => 1

namespace TableModel

/-- A table that receives a signal is done waiting, or does not move at all. -/
theorem receive_cases (m : TableModel) (signal : QuerySignal) :
    (m.receive signal).pendingRequestId = none ∨ m.receive signal = m := by
  cases signal <;> simp only [receive] <;> split <;> simp

/-- Outside thread mode the rows are consecutive pages of the table's own query. -/
def RowsCurrent (normalizeForSearch : String → String) (m : TableModel) : Prop :=
  m.threadMode = false → ∃ pages,
    ConsecutivePages normalizeForSearch m.ask pages m.nextCursor ∧
      m.items = pages.flatMap SearchPage.items ∧
      (m.exhausted = false → pages = [] ∨ m.nextCursor.isSome = true)

end TableModel

namespace QuerySession

variable {normalizeForSearch : String → String}

/-- The requests that are not done yet, the running one first. -/
def tasks (s : QuerySession) : List QueryTask := (s.running.map Prod.fst).toList ++ s.queue

theorem tasks_issue (s : QuerySession) (request : SearchRequest) :
    (s.issue request).tasks = s.tasks ++ [⟨s.nextId + 1,request⟩] := by
  simp [tasks,issue,cancel]

theorem tasks_running {s : QuerySession} {task : QueryTask} {stage : TaskStage}
    (h : s.running = some (task,stage)) : s.tasks = task :: s.queue := by
  simp [tasks,h]

theorem tasks_setRunning {s : QuerySession} {task : QueryTask} {stage : TaskStage}
    (h : s.running = some (task,stage)) (stage' : TaskStage) :
    ({ s with running := some (task,stage') } : QuerySession).tasks = s.tasks := by
  simp [tasks,h]

@[simp] theorem emit_running (s : QuerySession) (id : Nat) (o : QueryOutcome) :
    (s.emit id o).running = s.running := by
  unfold emit
  split <;> rfl

@[simp] theorem emit_queue (s : QuerySession) (id : Nat) (o : QueryOutcome) :
    (s.emit id o).queue = s.queue := by
  unfold emit
  split <;> rfl

@[simp] theorem emit_table (s : QuerySession) (id : Nat) (o : QueryOutcome) :
    (s.emit id o).table = s.table := by
  unfold emit
  split <;> rfl

@[simp] theorem emit_current (s : QuerySession) (id : Nat) (o : QueryOutcome) :
    (s.emit id o).current = s.current := by
  unfold emit
  split <;> rfl

theorem emit_signals (s : QuerySession) (id : Nat) (o : QueryOutcome) :
    s.signals ⊆ (s.emit id o).signals := by
  unfold emit
  split
  · exact List.subset_append_left _ _
  · exact List.Subset.refl _

/-- What a step of the worker can do. -/
inductive WorkerMove (normalizeForSearch : String → String) (s : QuerySession) :
    QuerySession → Prop
  | take {task : QueryTask} {queue : List QueryTask} (hrunning : s.running = none)
      (hqueue : s.queue = task :: queue) :
      WorkerMove normalizeForSearch s { s with queue := queue, running := some (task,.started) }
  /-- It goes on with the running request; one that is no longer current is dropped. -/
  | stage {task : QueryTask} {stage stage' : TaskStage} (hrunning : s.running = some (task,stage))
      (hbefore : ∀ failed, stage ≠ .emitted failed)
      (hpage : ∀ p ∈ stage'.page, p ∈ stage.page ∨ task.request.Answers normalizeForSearch p)
      (hdrop : ∀ failed, stage' = .emitted failed → s.current ≠ some task.requestId) :
      WorkerMove normalizeForSearch s { s with running := some (task,stage') }
  | emit {task : QueryTask} {stage : TaskStage} {o : QueryOutcome} {failed : Bool}
      (hrunning : s.running = some (task,stage)) (hpage : ∀ p, o = .page p → p ∈ stage.page) :
      WorkerMove normalizeForSearch s
        { s.emit task.requestId o with running := some (task,.emitted failed) }
  | complete {task : QueryTask} {failed : Bool} (hrunning : s.running = some (task,.emitted failed)) :
      WorkerMove normalizeForSearch s
        { s with
          running := none,
          current := if s.current = some task.requestId then none else s.current }

theorem work_cases {s s' : QuerySession} {answer : DatabaseAnswer}
    (hwork : s.work normalizeForSearch answer = some s') : s.WorkerMove normalizeForSearch s' := by
  unfold QuerySession.work at hwork
  split at hwork
  · next hrunning =>
    split at hwork
    · cases hwork
    · next task queue hqueue =>
      cases hwork
      exact .take hrunning hqueue
  · next task stage hrunning =>
    split at hwork
    · cases hwork
      refine .stage hrunning (by simp) (fun p hp => ?_) (fun failed hstage => ?_)
      · split at hp <;> cases hp
      · split at hstage <;> cases hstage
    · have hfinish : ∀ o : QueryOutcome, (∀ p, o ≠ .page p) → s.WorkerMove normalizeForSearch
          { s with running := some (task,.finishing o) } := by
        refine fun o ho => .stage hrunning (by simp) (fun p hp => ?_) (by simp)
        cases o with
        | page q => exact (ho q rfl).elim
        | failed => cases hp
        | cancelled => cases hp
      split at hwork
      · next index repo =>
        split at hwork
        · next p hp =>
          cases hwork
          refine .stage hrunning (by simp) (fun q hq => ?_) (by simp)
          cases hq
          exact .inr ⟨index,repo,hp⟩
        · cases hwork
          exact hfinish .failed (by simp)
      · cases hwork
        exact hfinish .failed (by simp)
      · split at hwork
        · cases hwork
          exact hfinish .cancelled (by simp)
        · cases hwork
    · next p =>
      cases hwork
      refine .stage hrunning (by simp) (fun q hq => ?_) (fun failed hstage => ?_)
      · split at hq
        · exact .inl hq
        · cases hq
      · split at hstage <;> cases hstage
    · next p =>
      cases hwork
      exact .emit hrunning fun q hq => by cases hq; rfl
    · next o hnot =>
      cases hwork
      refine .stage hrunning (by simp) (fun q hq => ?_) (fun failed hstage hcurrent => ?_)
      · split at hq
        · cases o with
          | page p => exact (hnot p rfl).elim
          | failed => cases hq
          | cancelled => cases hq
        · cases hq
      · rw [if_pos hcurrent] at hstage
        cases hstage
    · next o =>
      cases hwork
      exact .emit hrunning fun q hq => by cases hq; rfl
    · cases hwork
      exact .complete hrunning

/-- The invariant behind the rows. -/
structure Paged (normalizeForSearch : String → String) (s : QuerySession) : Prop where
  taskIds : ∀ t ∈ s.tasks, t.requestId ≤ s.nextId
  signalIds : ∀ d ∈ s.signals, d.requestId ≤ s.nextId
  pendingId : ∀ id ∈ s.table.pendingRequestId, id ≤ s.nextId
  read : ∀ t stage, s.running = some (t,stage) →
    ∀ p ∈ stage.page, t.request.Answers normalizeForSearch p
  /-- What is asked for under the pending id is the next page of the table. -/
  asked : ∀ id ∈ s.table.pendingRequestId, ∀ t ∈ s.tasks, t.requestId = id →
    t.request = s.table.ask s.table.nextCursor
  /-- So is what arrives under it. -/
  arriving : ∀ id ∈ s.table.pendingRequestId, ∀ p, .result id p ∈ s.signals →
    (s.table.ask s.table.nextCursor).Answers normalizeForSearch p
  waiting : s.table.pendingRequestId.isSome = true →
    s.table.threadMode = false ∧ s.table.exhausted = false
  rows : s.table.RowsCurrent normalizeForSearch

theorem paged_opened (query : String) (mode : SearchMode) (filters : MessageFilter)
    (pageSize : Nat) : (opened query mode filters pageSize).Paged normalizeForSearch where
  taskIds t ht := by simp [tasks,opened] at ht
  signalIds d hd := by simp [opened] at hd
  pendingId id hid := by simp [opened] at hid
  read t stage ht := by simp [opened] at ht
  asked id hid := by simp [opened] at hid
  arriving id hid := by simp [opened] at hid
  waiting h := by simp [opened] at h
  rows _ := ⟨[],.none,rfl,fun _ => .inl rfl⟩

namespace Paged

variable {s : QuerySession}

/-- A table that waits for nothing is fine whenever its rows are. -/
theorem setTable (h : s.Paged normalizeForSearch) {m : TableModel}
    (hpending : m.pendingRequestId = none) (hrows : m.RowsCurrent normalizeForSearch) :
    ({ s with table := m } : QuerySession).Paged normalizeForSearch where
  taskIds := h.taskIds
  signalIds := h.signalIds
  pendingId id hid := by simp [hpending] at hid
  read := h.read
  asked id hid := by simp [hpending] at hid
  arriving id hid := by simp [hpending] at hid
  waiting hw := by simp [hpending] at hw
  rows := hrows

theorem cancel (h : s.Paged normalizeForSearch) : s.cancel.Paged normalizeForSearch :=
  ⟨h.taskIds,h.signalIds,h.pendingId,h.read,h.asked,h.arriving,h.waiting,h.rows⟩

theorem cleared (h : s.Paged normalizeForSearch) (m : TableModel) :
    ({ s with table := m.cleared } : QuerySession).Paged normalizeForSearch :=
  h.setTable rfl fun _ => ⟨[],.none,rfl,fun _ => .inl rfl⟩

/-- `_reset_pages` after the query has been replaced. -/
theorem resetPages (h : s.Paged normalizeForSearch) (m : TableModel) :
    ({ s with table := m } : QuerySession).resetPages.Paged normalizeForSearch := by
  unfold QuerySession.resetPages
  split
  · exact h.cancel.cleared m
  · exact h.cleared m

/-- A request of another controller gets an id of its own. -/
theorem issue (h : s.Paged normalizeForSearch) (request : SearchRequest) :
    (s.issue request).Paged normalizeForSearch where
  taskIds t ht := by
    rw [tasks_issue,List.mem_append,List.mem_singleton] at ht
    rcases ht with ht | rfl
    · exact (h.taskIds t ht).trans (Nat.le_succ _)
    · exact Nat.le_refl _
  signalIds d hd := (h.signalIds d hd).trans (Nat.le_succ _)
  pendingId id hid := (h.pendingId id hid).trans (Nat.le_succ _)
  read := h.read
  asked id hid t ht htid := by
    rw [tasks_issue,List.mem_append,List.mem_singleton] at ht
    rcases ht with ht | rfl
    · exact h.asked id hid t ht htid
    · have := h.pendingId id hid
      simp only at htid
      omega
  arriving := h.arriving
  waiting := h.waiting
  rows := h.rows

/-- The table asks for its next page under a new id. -/
theorem fetchMore (h : s.Paged normalizeForSearch) : s.fetchMore.Paged normalizeForSearch := by
  unfold QuerySession.fetchMore
  split
  · next hcan =>
    simp only [TableModel.canFetchMore,Bool.and_eq_true,Bool.not_eq_true'] at hcan
    have hissue := h.issue (s.table.ask s.table.nextCursor)
    refine ⟨hissue.taskIds,hissue.signalIds,?_,hissue.read,?_,?_,?_,h.rows⟩
    · intro id hid
      cases hid
      exact Nat.le_refl _
    · intro id hid t ht htid
      cases hid
      have ht : t ∈ s.tasks ++ [⟨s.nextId + 1,s.table.ask s.table.nextCursor⟩] := by
        rw [← tasks_issue]; exact ht
      rcases List.mem_append.mp ht with ht | ht
      · have := h.taskIds t ht
        omega
      · rw [List.mem_singleton.mp ht]
        rfl
    · intro id hid p hp
      cases hid
      have := h.signalIds _ hp
      simp only [QuerySignal.requestId] at this
      omega
    · intro _
      exact ⟨hcan.1.1.2,hcan.1.2⟩
  · exact h

theorem stopLoading (h : s.Paged normalizeForSearch) :
    s.stopLoading.Paged normalizeForSearch := by
  have hrows : ({ s.table with
      stopped := true, pendingRequestId := none, exhausted := true } :
        TableModel).RowsCurrent normalizeForSearch := by
    intro hthread
    obtain ⟨pages,hpages,hitems,-⟩ := h.rows hthread
    exact ⟨pages,hpages,hitems,fun hx => by cases hx⟩
  unfold QuerySession.stopLoading
  split
  · exact h
  · split
    · exact h.cancel.setTable rfl hrows
    · exact h.setTable rfl hrows

/-- A step of the worker that emits no signal. -/
theorem setRunning (h : s.Paged normalizeForSearch) {task : QueryTask}
    {stage stage' : TaskStage} (hrunning : s.running = some (task,stage))
    (hpage : ∀ p ∈ stage'.page, task.request.Answers normalizeForSearch p) :
    ({ s with running := some (task,stage') } : QuerySession).Paged normalizeForSearch := by
  have htasks := tasks_setRunning hrunning stage'
  refine ⟨?_,h.signalIds,h.pendingId,?_,?_,h.arriving,h.waiting,h.rows⟩
  · rw [htasks]; exact h.taskIds
  · intro t stage ht p hp
    cases ht
    exact hpage p hp
  · rw [htasks]; exact h.asked

theorem emit (h : s.Paged normalizeForSearch) {task : QueryTask} {stage : TaskStage}
    {o : QueryOutcome} (hrunning : s.running = some (task,stage))
    (hpage : ∀ p, o = .page p → task.request.Answers normalizeForSearch p) :
    (s.emit task.requestId o).Paged normalizeForSearch := by
  unfold QuerySession.emit
  split
  · have hmem : task ∈ s.tasks := by simp [tasks_running hrunning]
    refine ⟨h.taskIds,?_,h.pendingId,h.read,h.asked,?_,h.waiting,h.rows⟩
    · intro d hd
      rcases List.mem_append.mp hd with hd | hd
      · exact h.signalIds d hd
      · rw [List.mem_singleton.mp hd]
        cases o <;> exact h.taskIds task hmem
    · intro id hid p hp
      rcases List.mem_append.mp hp with hp | hp
      · exact h.arriving id hid p hp
      · -- a page that is emitted now was read for the running request
        have hp := List.mem_singleton.mp hp
        cases o with
        | page q =>
          simp only [QueryOutcome.signal,QuerySignal.result.injEq] at hp
          obtain ⟨rfl,rfl⟩ := hp
          rw [← h.asked task.requestId hid task hmem rfl]
          exact hpage p rfl
        | failed => cases hp
        | cancelled => cases hp
  · exact h

/-- The worker takes up the next request. -/
theorem take (h : s.Paged normalizeForSearch) {task : QueryTask} {queue : List QueryTask}
    (hrunning : s.running = none) (hqueue : s.queue = task :: queue) :
    ({ s with queue := queue, running := some (task,.started) } :
      QuerySession).Paged normalizeForSearch := by
  have htasks : ({ s with queue := queue, running := some (task,.started) } :
      QuerySession).tasks = s.tasks := by simp [tasks,hrunning,hqueue]
  refine ⟨?_,h.signalIds,h.pendingId,?_,?_,h.arriving,h.waiting,h.rows⟩
  · rw [htasks]; exact h.taskIds
  · intro t stage ht p hp
    cases ht
    cases hp
  · rw [htasks]; exact h.asked

/-- The worker is done with a request. -/
theorem complete (h : s.Paged normalizeForSearch) {task : QueryTask} {stage : TaskStage}
    (hrunning : s.running = some (task,stage)) (current : Option Nat) :
    ({ s with running := none, current := current } : QuerySession).Paged normalizeForSearch := by
  have htasks : ({ s with running := none, current := current } : QuerySession).tasks ⊆
      s.tasks := by
    rw [tasks_running hrunning]
    exact List.subset_cons_self _ _
  refine ⟨?_,h.signalIds,h.pendingId,?_,?_,h.arriving,h.waiting,h.rows⟩
  · exact fun t ht => h.taskIds t (htasks ht)
  · intro t stage ht
    cases ht
  · exact fun id hid t ht => h.asked id hid t (htasks ht)

/-- What the worker does in one step keeps the rows right. -/
theorem move (h : s.Paged normalizeForSearch) {s' : QuerySession}
    (hmove : s.WorkerMove normalizeForSearch s') : s'.Paged normalizeForSearch := by
  cases hmove with
  | take hrunning hqueue => exact h.take hrunning hqueue
  | stage hrunning _ hpage _ =>
    refine h.setRunning hrunning fun p hp => ?_
    obtain hp | hp := hpage p hp
    · exact h.read _ _ hrunning p hp
    · exact hp
  | @emit task stage o failed hrunning hpage =>
    have hemit : (s.emit task.requestId o).Paged normalizeForSearch :=
      h.emit hrunning fun p hp => h.read _ _ hrunning p (hpage p hp)
    exact hemit.setRunning (by rw [emit_running,hrunning]) fun q hq => by cases hq
  | complete hrunning => exact h.complete hrunning _

theorem cleanupFails (h : s.Paged normalizeForSearch) {s' : QuerySession}
    (hstep : s.cleanupFails = some s') : s'.Paged normalizeForSearch := by
  unfold QuerySession.cleanupFails at hstep
  split at hstep
  · next task hrunning =>
    cases hstep
    exact h.setRunning hrunning fun p hp => by cases hp
  · cases hstep

/-- A page that arrives under the pending id continues the rows. -/
theorem receive (h : s.Paged normalizeForSearch) {signal : QuerySignal}
    (hmem : signal ∈ s.signals) : (s.table.receive signal).RowsCurrent normalizeForSearch := by
  cases signal with
  | result id p =>
    simp only [TableModel.receive]
    split
    · exact h.rows
    · next hmine =>
      rw [not_or,not_not] at hmine
      intro hthread
      have hpending : s.table.pendingRequestId.isSome = true := by rw [hmine.2]; rfl
      have hread := h.arriving id hmine.2 p hmem
      obtain ⟨pages,hpages,hitems,hmore⟩ := h.rows hthread
      refine ⟨pages ++ [p],hpages.next (hmore (h.waiting hpending).2) hread,?_,?_⟩
      · simp [hitems]
      · exact fun hexhausted => .inr (hread.nextCursor hexhausted)
  | requestFailed id =>
    simp only [TableModel.receive]
    split
    · exact h.rows
    · exact h.rows
  | requestCancelled id =>
    simp only [TableModel.receive]
    split
    · exact h.rows
    · exact h.rows

theorem deliver (h : s.Paged normalizeForSearch) {place : Nat} {s' : QuerySession}
    (hstep : s.deliver place = some s') : s'.Paged normalizeForSearch := by
  unfold QuerySession.deliver at hstep
  split at hstep
  · next signal hsignal =>
    cases hstep
    have hrows := h.receive (List.mem_of_getElem? hsignal)
    have hsub : s.signals.eraseIdx place ⊆ s.signals := List.eraseIdx_subset
    -- the table drops its pending id, or it does not move
    obtain hnone | hsame : (s.table.receive signal).pendingRequestId = none ∨
        s.table.receive signal = s.table := s.table.receive_cases signal
    · have hset := h.setTable hnone hrows
      exact ⟨hset.taskIds,fun d hd => h.signalIds d (hsub hd),hset.pendingId,h.read,hset.asked,
        fun id hid p hp => hset.arriving id hid p (hsub hp),hset.waiting,hrows⟩
    · rw [hsame]
      exact ⟨h.taskIds,fun d hd => h.signalIds d (hsub hd),h.pendingId,h.read,h.asked,
        fun id hid p hp => h.arriving id hid p (hsub hp),h.waiting,h.rows⟩
  · cases hstep

theorem step (h : s.Paged normalizeForSearch) {action : QueryAction} {s' : QuerySession}
    (hstep : s.step normalizeForSearch action = some s') : s'.Paged normalizeForSearch := by
  cases action with
  | setFilters filters =>
    cases hstep
    unfold QuerySession.setFilters
    split
    · exact h.resetPages _
    · exact h
  | setSearch query mode =>
    cases hstep
    unfold QuerySession.setSearch
    split
    · exact h.resetPages _
    · exact h
  | reload =>
    cases hstep
    split
    · exact h
    · exact (h.resetPages s.table).fetchMore
  | fetchMore =>
    cases hstep
    exact h.fetchMore
  | showThread items =>
    cases hstep
    exact h.setTable rfl fun hthread => by cases hthread
  | clearThread =>
    cases hstep
    unfold TableModel.clearThread
    split
    · exact h.cleared s.table
    · exact h
  | stopLoading =>
    cases hstep
    exact h.stopLoading
  | otherIssue request =>
    cases hstep
    exact h.issue request
  | otherCancel =>
    cases hstep
    exact h.cancel
  | work answer => exact h.move (work_cases hstep)
  | cleanupFails => exact h.cleanupFails hstep
  | deliver place => exact h.deliver hstep

end Paged

/-- The pending request of the table is still queued or on its way through the worker. -/
def UnderWay (s : QuerySession) (id : Nat) : Prop :=
  s.current = some id ∧ ((∃ t ∈ s.queue, t.requestId = id) ∨
    ∃ t stage, s.running = some (t,stage) ∧ t.requestId = id ∧ ∀ failed, stage ≠ .emitted failed)

def Signalled (s : QuerySession) (id : Nat) : Prop := ∃ d ∈ s.signals, d.requestId = id

/-- The invariant behind the pending id. -/
structure Awaited (s : QuerySession) : Prop where
  order : s.tasks.Pairwise fun a b => a.requestId < b.requestId
  awaited : ∀ id ∈ s.table.pendingRequestId, s.Signalled id ∨ s.UnderWay id

theorem awaited_opened (query : String) (mode : SearchMode) (filters : MessageFilter)
    (pageSize : Nat) : (opened query mode filters pageSize).Awaited where
  order := by simp [tasks,opened]
  awaited id hid := by simp [opened] at hid

/-- Another controller issues a request only while the table waits for none, or when the signal
the table waits for is already out. -/
def Undisturbed (s : QuerySession) (action : QueryAction) : Prop :=
  ∀ request, action = .otherIssue request → ∀ id ∈ s.table.pendingRequestId, s.Signalled id

/-- What happens without the user and the other controllers. -/
def WorkerStep (normalizeForSearch : String → String) (s s' : QuerySession) : Prop :=
  (∃ answer, s.work normalizeForSearch answer = some s') ∨ s.cleanupFails = some s' ∨
    ∃ place, s.deliver place = some s'

/-- The table can still be told that its request is done. -/
def CanDeliver (normalizeForSearch : String → String) (s : QuerySession) : Prop :=
  ∃ s', Relation.ReflTransGen (WorkerStep normalizeForSearch) s s' ∧
    s'.table.pendingRequestId = none

namespace Awaited

variable {s : QuerySession}

theorem setTable (h : s.Awaited) {m : TableModel} (hpending : m.pendingRequestId = none) :
    ({ s with table := m } : QuerySession).Awaited where
  order := h.order
  awaited id hid := by simp [hpending] at hid

theorem cancel (h : s.Awaited) : s.cancel.Awaited := ⟨h.order,h.awaited⟩

theorem resetPages (h : s.Awaited) (m : TableModel) :
    ({ s with table := m } : QuerySession).resetPages.Awaited := by
  rw [QuerySession.resetPages]
  split
  · exact h.cancel.setTable rfl
  · exact h.setTable rfl

theorem order_issue (h : s.Awaited) (hpaged : s.Paged normalizeForSearch)
    (request : SearchRequest) :
    (s.issue request).tasks.Pairwise fun a b => a.requestId < b.requestId := by
  rw [tasks_issue,List.pairwise_append]
  refine ⟨h.order,List.pairwise_singleton _ _,fun t ht t' ht' => ?_⟩
  rw [List.mem_singleton.mp ht']
  exact Nat.lt_succ_of_le (hpaged.taskIds t ht)

theorem fetchMore (h : s.Awaited) (hpaged : s.Paged normalizeForSearch) :
    s.fetchMore.Awaited := by
  rw [QuerySession.fetchMore]
  split
  · refine ⟨h.order_issue hpaged _,fun id hid => .inr ?_⟩
    cases hid
    exact ⟨rfl,.inl ⟨_,List.mem_append_right _ List.mem_cons_self,rfl⟩⟩
  · exact h

theorem stopLoading (h : s.Awaited) : s.stopLoading.Awaited := by
  rw [QuerySession.stopLoading]
  split
  · exact h
  · split
    · exact h.cancel.setTable rfl
    · exact h.setTable rfl

theorem move (h : s.Awaited) {s' : QuerySession} (hmove : s.WorkerMove normalizeForSearch s') :
    s'.Awaited := by
  cases hmove with
  | @take task queue hrunning hqueue =>
    have htasks : ({ s with queue := queue, running := some (task,.started) } :
        QuerySession).tasks = s.tasks := by simp [tasks,hrunning,hqueue]
    refine ⟨by rw [htasks]; exact h.order,fun id hid => (h.awaited id hid).imp_right ?_⟩
    rintro ⟨hcurrent,⟨t,ht,htid⟩ | ⟨t,stage,ht,-⟩⟩
    · rw [hqueue,List.mem_cons] at ht
      refine ⟨hcurrent,?_⟩
      obtain rfl | ht := ht
      · exact .inr ⟨t,.started,rfl,htid,by simp⟩
      · exact .inl ⟨t,ht,htid⟩
    · rw [hrunning] at ht
      cases ht
  | @stage task stage stage' hrunning _ _ hdrop =>
    refine ⟨?_,fun id hid => (h.awaited id hid).imp_right ?_⟩
    · rw [tasks_setRunning hrunning]
      exact h.order
    rintro ⟨hcurrent,hqueued | ⟨t,before,ht,htid,-⟩⟩
    · exact ⟨hcurrent,.inl hqueued⟩
    · rw [hrunning] at ht
      cases ht
      -- the request is current, so it is not dropped
      exact ⟨hcurrent,.inr ⟨task,stage',rfl,htid,fun failed hemitted =>
        hdrop failed hemitted (by rw [hcurrent,htid])⟩⟩
  | @emit task stage o failed hrunning _ =>
    have hemit : s.current = some task.requestId →
        ({ s.emit task.requestId o with running := some (task,.emitted failed) } :
          QuerySession).Signalled task.requestId := by
      intro hcurrent
      refine ⟨o.signal task.requestId,?_,by cases o <;> rfl⟩
      simp [QuerySession.emit,hcurrent]
    refine ⟨?_,fun id hid => ?_⟩
    · have htasks : (s.emit task.requestId o).tasks = s.tasks := by simp [tasks]
      rw [tasks_setRunning (by rw [emit_running]; exact hrunning),htasks]
      exact h.order
    · rw [emit_table] at hid
      obtain ⟨d,hd,hdid⟩ | ⟨hcurrent,hqueued | ⟨t,before,ht,htid,-⟩⟩ := h.awaited id hid
      · exact .inl ⟨d,emit_signals s _ o hd,hdid⟩
      · exact .inr ⟨by rw [emit_current]; exact hcurrent,.inl (by rw [emit_queue]; exact hqueued)⟩
      · rw [hrunning] at ht
        cases ht
        subst htid
        exact .inl (hemit hcurrent)
  | @complete task failed hrunning =>
    have horder := h.order
    rw [tasks_running hrunning,List.pairwise_cons] at horder
    refine ⟨horder.2,fun id hid => (h.awaited id hid).imp_right ?_⟩
    rintro ⟨hcurrent,⟨t,ht,htid⟩ | ⟨t,stage,ht,-,hstage⟩⟩
    · -- a request that is still queued has a later id than the one that is done
      have hlater := horder.1 t ht
      refine ⟨?_,.inl ⟨t,ht,htid⟩⟩
      simp only [hcurrent,Option.some.injEq]
      rw [if_neg (by omega)]
    · rw [hrunning] at ht
      cases ht
      exact (hstage failed rfl).elim

theorem cleanupFails (h : s.Awaited) {s' : QuerySession} (hstep : s.cleanupFails = some s') :
    s'.Awaited := by
  rw [QuerySession.cleanupFails] at hstep
  split at hstep
  · next task hrunning =>
    cases hstep
    refine ⟨?_,fun id hid => (h.awaited id hid).imp_right ?_⟩
    · rw [tasks_setRunning hrunning]
      exact h.order
    rintro ⟨hcurrent,hqueued | ⟨t,stage,ht,-,hstage⟩⟩
    · exact ⟨hcurrent,.inl hqueued⟩
    · rw [hrunning] at ht
      cases ht
      exact (hstage false rfl).elim
  · cases hstep

/-- A signal under the pending id ends the waiting. -/
theorem receive_pending {m : TableModel} {d : QuerySignal} (hthread : m.threadMode = false)
    (hpending : m.pendingRequestId = some d.requestId) :
    (m.receive d).pendingRequestId = none := by
  cases d <;> simp_all [TableModel.receive,QuerySignal.requestId]

/-- A signal under another id is ignored. -/
theorem receive_other {m : TableModel} {d : QuerySignal}
    (hpending : m.pendingRequestId ≠ some d.requestId) : m.receive d = m := by
  cases d <;> simp_all [TableModel.receive,QuerySignal.requestId]

theorem deliver (h : s.Awaited) (hpaged : s.Paged normalizeForSearch) {place : Nat}
    {s' : QuerySession} (hstep : s.deliver place = some s') : s'.Awaited := by
  rw [QuerySession.deliver] at hstep
  split at hstep
  · next signal hsignal =>
    cases hstep
    by_cases hpending : s.table.pendingRequestId = some signal.requestId
    · have hthread := (hpaged.waiting (by rw [hpending]; rfl)).1
      refine ⟨h.order,fun id hid => ?_⟩
      rw [receive_pending hthread hpending] at hid
      cases hid
    · rw [receive_other hpending]
      refine ⟨h.order,fun id hid => (h.awaited id hid).imp_left ?_⟩
      rintro ⟨d,hd,hdid⟩
      refine ⟨d,List.mem_eraseIdx_iff_getElem?.mpr ?_,hdid⟩
      obtain ⟨i,hi⟩ := List.mem_iff_getElem?.mp hd
      refine ⟨i,fun hplace => hpending ?_,hi⟩
      rw [hplace,hsignal,Option.some.injEq] at hi
      rw [hi,hdid]
      exact hid
  · cases hstep

theorem step (h : s.Awaited) (hpaged : s.Paged normalizeForSearch) {action : QueryAction}
    {s' : QuerySession} (hstep : s.step normalizeForSearch action = some s')
    (hundisturbed : s.Undisturbed action) : s'.Awaited := by
  cases action with
  | setFilters filters =>
    cases hstep
    rw [QuerySession.setFilters]
    split
    · exact h.resetPages _
    · exact h
  | setSearch query mode =>
    cases hstep
    rw [QuerySession.setSearch]
    split
    · exact h.resetPages _
    · exact h
  | reload =>
    cases hstep
    split
    · exact h
    · exact (h.resetPages s.table).fetchMore (hpaged.resetPages s.table)
  | fetchMore =>
    cases hstep
    exact h.fetchMore hpaged
  | showThread items =>
    cases hstep
    exact h.setTable rfl
  | clearThread =>
    cases hstep
    rw [TableModel.clearThread]
    split
    · exact h.setTable rfl
    · exact h
  | stopLoading =>
    cases hstep
    exact h.stopLoading
  | otherIssue request =>
    cases hstep
    exact ⟨h.order_issue hpaged request,fun id hid => .inl (hundisturbed request rfl id hid)⟩
  | otherCancel =>
    cases hstep
    exact h.cancel
  | work answer => exact h.move (work_cases hstep)
  | cleanupFails => exact h.cleanupFails hstep
  | deliver place => exact h.deliver hpaged hstep

end Awaited

/-- How far the worker is from having nothing to do. -/
def rank (s : QuerySession) : Nat :=
  8 * s.queue.length + (s.running.map fun r => TaskStage.rank r.2).getD 0

/-- While there are requests the worker goes on, whatever the database does. -/
theorem work_progress {s : QuerySession} (h : s.tasks ≠ []) :
    ∃ s', s.work normalizeForSearch .fails = some s' ∧ s'.rank < s.rank := by
  cases hrunning : s.running with
  | none =>
    cases hqueue : s.queue with
    | nil => simp [tasks,hrunning,hqueue] at h
    | cons task queue =>
      simp only [work,hrunning,hqueue]
      refine ⟨_,rfl,?_⟩
      simp [rank,hrunning,hqueue,TaskStage.rank]
      omega
  | some r =>
    obtain ⟨task,stage⟩ := r
    cases stage with
    | started =>
      simp only [work,hrunning]
      refine ⟨_,rfl,?_⟩
      simp only [rank,hrunning]
      split <;> simp [TaskStage.rank]
    | executing =>
      simp only [work,hrunning]
      refine ⟨_,rfl,?_⟩
      simp [rank,hrunning,TaskStage.rank]
    | returned p =>
      simp only [work,hrunning]
      refine ⟨_,rfl,?_⟩
      simp only [rank,hrunning]
      split <;> simp [TaskStage.rank]
    | finishing o =>
      cases o with
      | page p =>
        simp only [work,hrunning]
        refine ⟨_,rfl,?_⟩
        simp [rank,hrunning,TaskStage.rank]
      | failed =>
        simp only [work,hrunning]
        refine ⟨_,rfl,?_⟩
        simp only [rank,hrunning]
        split <;> simp [TaskStage.rank]
      | cancelled =>
        simp only [work,hrunning]
        refine ⟨_,rfl,?_⟩
        simp only [rank,hrunning]
        split <;> simp [TaskStage.rank]
    | announced o =>
      simp only [work,hrunning]
      refine ⟨_,rfl,?_⟩
      simp [rank,hrunning,TaskStage.rank]
    | emitted failed =>
      simp only [work,hrunning]
      refine ⟨_,rfl,?_⟩
      simp [rank,hrunning,TaskStage.rank]

theorem UnderWay.tasks_ne_nil {s : QuerySession} {id : Nat} (h : s.UnderWay id) :
    s.tasks ≠ [] := by
  obtain ⟨-,⟨t,ht,-⟩ | ⟨t,stage,ht,-⟩⟩ := h
  · exact List.ne_nil_of_mem (List.mem_append_right _ ht)
  · simp [tasks_running ht]

/-- The worker gets to the end of the request it is awaited for, and its signal arrives. -/
theorem Awaited.canDeliver {s : QuerySession} (h : s.Awaited)
    (hpaged : s.Paged normalizeForSearch) : s.CanDeliver normalizeForSearch := by
  -- by induction on what the worker still has to do
  induction hrank : s.rank using Nat.strong_induction_on generalizing s with
  | _ n ih =>
    cases hpending : s.table.pendingRequestId with
    | none => exact ⟨s,.refl,hpending⟩
    | some id =>
      obtain ⟨d,hd,hdid⟩ | hunder := h.awaited id hpending
      · have hthread := (hpaged.waiting (by rw [hpending]; rfl)).1
        obtain ⟨place,hplace⟩ := List.mem_iff_getElem?.mp hd
        refine ⟨{ s with
          signals := s.signals.eraseIdx place, table := s.table.receive d },.single ?_,?_⟩
        · exact .inr (.inr ⟨place,by simp only [QuerySession.deliver,hplace]⟩)
        · exact Awaited.receive_pending hthread (by rw [hpending,hdid])
      · obtain ⟨s₁,hwork,hless⟩ : ∃ s₁, s.work normalizeForSearch .fails = some s₁ ∧
            s₁.rank < s.rank := work_progress hunder.tasks_ne_nil
        have hmove := work_cases hwork
        obtain ⟨s',hrun,hdone⟩ :=
          ih s₁.rank (hrank ▸ hless) (h.move hmove) (hpaged.move hmove) rfl
        exact ⟨s',hrun.head (.inl ⟨.fails,hwork⟩),hdone⟩

/-- A request that has been superseded is never heard of again. -/
def Lost (s : QuerySession) (id : Nat) : Prop :=
  s.table.pendingRequestId = some id ∧ ¬s.Signalled id ∧ s.current ≠ some id

theorem Lost.workerStep {s s' : QuerySession} {id : Nat} (h : s.Lost id)
    (hstep : WorkerStep normalizeForSearch s s') : s'.Lost id := by
  obtain ⟨hpending,hsignal,hcurrent⟩ := h
  obtain ⟨answer,hwork⟩ | hcleanup | ⟨place,hdeliver⟩ := hstep
  · cases work_cases hwork with
    | take _ _ => exact ⟨hpending,hsignal,hcurrent⟩
    | stage _ _ _ _ => exact ⟨hpending,hsignal,hcurrent⟩
    | @emit task stage o failed hrunning _ =>
      refine ⟨by simpa using hpending,?_,by simpa using hcurrent⟩
      rintro ⟨d,hd,hdid⟩
      simp only [QuerySession.emit] at hd
      split at hd
      · next hmine =>
        obtain hd | hd := List.mem_append.mp hd
        · exact hsignal ⟨d,hd,hdid⟩
        · -- only the current request is announced
          rw [List.mem_singleton.mp hd] at hdid
          refine hcurrent (hmine.trans ?_)
          cases o <;> exact congrArg some hdid
      · exact hsignal ⟨d,hd,hdid⟩
    | complete _ =>
      refine ⟨hpending,hsignal,?_⟩
      simp only
      split
      · simp
      · exact hcurrent
  · rw [QuerySession.cleanupFails] at hcleanup
    split at hcleanup
    · cases hcleanup
      exact ⟨hpending,hsignal,hcurrent⟩
    · cases hcleanup
  · rw [QuerySession.deliver] at hdeliver
    split at hdeliver
    · next signal hmem =>
      cases hdeliver
      have hother : s.table.pendingRequestId ≠ some signal.requestId := by
        rw [hpending,ne_eq,Option.some.injEq]
        rintro rfl
        exact hsignal ⟨signal,List.mem_of_getElem? hmem,rfl⟩
      rw [Lost,Awaited.receive_other hother]
      refine ⟨hpending,?_,hcurrent⟩
      rintro ⟨d,hd,hdid⟩
      exact hsignal ⟨d,List.eraseIdx_subset hd,hdid⟩
    · cases hdeliver

theorem Lost.not_canDeliver {s : QuerySession} {id : Nat} (h : s.Lost id) :
    ¬s.CanDeliver normalizeForSearch := by
  rintro ⟨s',hrun,hdone⟩
  have hlost : ∀ s₁, Relation.ReflTransGen (WorkerStep normalizeForSearch) s s₁ → s₁.Lost id := by
    intro s₁ hrun
    induction hrun with
    | refl => exact h
    | tail _ hstep ih => exact ih.workerStep hstep
  rw [(hlost s' hrun).1] at hdone
  cases hdone

/-- The states after any interleaving of actions. -/
def Reaches (normalizeForSearch : String → String) : QuerySession → QuerySession → Prop :=
  Relation.ReflTransGen fun s s' => ∃ action, s.step normalizeForSearch action = some s'

/-- The states after actions by which no other controller takes over the channel of a request
the table waits for. -/
def ReachesUndisturbed (normalizeForSearch : String → String) :
    QuerySession → QuerySession → Prop :=
  Relation.ReflTransGen fun s s' =>
    ∃ action, s.Undisturbed action ∧ s.step normalizeForSearch action = some s'

variable {query : String} {mode : SearchMode} {filters : MessageFilter} {pageSize : Nat}
  {s : QuerySession}

theorem Reaches.paged (h : Reaches normalizeForSearch (opened query mode filters pageSize) s) :
    s.Paged normalizeForSearch := by
  induction h with
  | refl => exact paged_opened query mode filters pageSize
  | tail _ hstep ih =>
    obtain ⟨action,hstep⟩ := hstep
    exact ih.step hstep

theorem ReachesUndisturbed.reaches {s₀ : QuerySession}
    (h : ReachesUndisturbed normalizeForSearch s₀ s) : Reaches normalizeForSearch s₀ s := by
  induction h with
  | refl => exact .refl
  | tail _ hstep ih =>
    obtain ⟨action,-,hstep⟩ := hstep
    exact ih.tail ⟨action,hstep⟩

theorem ReachesUndisturbed.awaited
    (h : ReachesUndisturbed normalizeForSearch (opened query mode filters pageSize) s) :
    s.Awaited := by
  induction h with
  | refl => exact awaited_opened query mode filters pageSize
  | tail hrun hstep ih =>
    obtain ⟨action,hundisturbed,hstep⟩ := hstep
    exact ih.step (ReachesUndisturbed.reaches hrun).paged hstep hundisturbed

/-- A step keeps a table reachable for its answer exactly when it does not take over the channel
of a request the table waits for. -/
theorem canDeliver_step_iff (hpaged : s.Paged normalizeForSearch) (h : s.Awaited)
    {action : QueryAction} {s' : QuerySession}
    (hstep : s.step normalizeForSearch action = some s') :
    s'.CanDeliver normalizeForSearch ↔ s.Undisturbed action := by
  refine ⟨fun hcan request haction id hid => ?_,fun hundisturbed =>
    (h.step hpaged hstep hundisturbed).canDeliver (hpaged.step hstep)⟩
  subst haction
  cases hstep
  by_contra hsignal
  have hlost : (s.issue request).Lost id := by
    refine ⟨hid,hsignal,fun hcurrent => ?_⟩
    have hold := hpaged.pendingId id hid
    have hnew := Option.some.inj hcurrent
    omega
  exact hlost.not_canDeliver hcan

/-- Whatever the interleaving, the rows are consecutive pages of the current query.  The pending
id is held only while its request can still be answered, as long as no other controller issues a
request on the channel before the table's own request is announced; the step that does leaves
the table waiting for good. -/
theorem rows_current_and_pending_answered (normalizeForSearch : String → String) (query : String)
    (mode : SearchMode) (filters : MessageFilter) (pageSize : Nat) :
    (∀ s, Reaches normalizeForSearch (opened query mode filters pageSize) s →
      s.table.RowsCurrent normalizeForSearch) ∧
    ∀ s, ReachesUndisturbed normalizeForSearch (opened query mode filters pageSize) s →
      s.CanDeliver normalizeForSearch ∧
        ∀ action s', s.step normalizeForSearch action = some s' →
          (s'.CanDeliver normalizeForSearch ↔ s.Undisturbed action) := by
  refine ⟨fun s hrun => hrun.paged.rows,fun s hrun => ?_⟩
  have hpaged := hrun.reaches.paged
  exact ⟨hrun.awaited.canDeliver hpaged,
    fun action s' hstep => canDeliver_step_iff hpaged hrun.awaited hstep⟩

theorem ReachesUndisturbed.of_actions {actions : List QueryAction} {s₀ : QuerySession}
    (hown : ∀ action ∈ actions, ∀ request, action ≠ .otherIssue request)
    (hrun : actions.foldlM (step normalizeForSearch) s₀ = some s) :
    ReachesUndisturbed normalizeForSearch s₀ s := by
  induction actions generalizing s₀ with
  | nil =>
    cases hrun
    exact .refl
  | cons action actions ih =>
    rw [List.foldlM_cons] at hrun
    obtain ⟨s₁,hstep,hrest⟩ := Option.bind_eq_some_iff.mp hrun
    have hundisturbed : s₀.Undisturbed action := fun request haction =>
      absurd haction (hown action List.mem_cons_self request)
    exact .head ⟨action,hundisturbed,hstep⟩
      (ih (fun a ha => hown a (List.mem_cons_of_mem _ ha)) hrest)

/-- The first page is asked for, read, announced and shown; then the next one is asked for. -/
def secondPageAsked : List QueryAction :=
  .fetchMore :: List.replicate 6 (.work (.reads noText threeStored)) ++ [.deliver 0,.fetchMore]

theorem second_page_answered : ∃ s,
    secondPageAsked.foldlM (step id) (opened "" .and {} 1) = some s ∧
    s.table.items.map MessageSummary.id = [2] ∧ s.table.pendingRequestId = some 2 ∧
    s.table.RowsCurrent id ∧ s.CanDeliver id := by
  have hmain := rows_current_and_pending_answered id "" .and {} 1
  have hrun : ∀ s, secondPageAsked.foldlM (step id) (opened "" .and {} 1) = some s →
      ReachesUndisturbed id (opened "" .and {} 1) s := by
    refine fun s => ReachesUndisturbed.of_actions fun action haction request => ?_
    rintro rfl
    simp [secondPageAsked] at haction
  exact ⟨_,rfl,rfl,rfl,hmain.1 _ (hrun _ rfl).reaches,(hmain.2 _ (hrun _ rfl)).1⟩

/-- The table has asked for its first page. -/
def firstPageAsked : QuerySession := (opened "" .and {} 200).fetchMore

/-- Another controller lists messages on the channel while the first page is on its way. -/
def channelTakenOver : QuerySession := firstPageAsked.issue ⟨"",.and,{},none,50⟩

theorem superseded_request_blocks : Reaches id (opened "" .and {} 200) channelTakenOver ∧
    channelTakenOver.table.pendingRequestId = some 1 ∧
    channelTakenOver.table.canFetchMore = false ∧ ¬channelTakenOver.CanDeliver id := by
  refine ⟨.tail (.single ⟨.fetchMore,rfl⟩) ⟨.otherIssue ⟨"",.and,{},none,50⟩,rfl⟩,rfl,rfl,?_⟩
  have hlost : channelTakenOver.Lost 1 := by
    refine ⟨rfl,?_,by decide⟩
    rintro ⟨d,hd,-⟩
    cases hd
  exact hlost.not_canDeliver

end QuerySession

end MailDock
