import MailDock.Search.Listing

/-!
# The message table and the query worker

`MessageTableModel`, `RequestState` and `QueryWorker` on the channel `list/search`.  The
table issues a request for each page and remembers its id; the worker runs the requests one
at a time on its own thread and drops what is no longer current; its signals reach the table
through the event queue of the main thread.  Other controllers issue and cancel requests on the
same channel.  A step is what one thread does between two looks at the shared request state.

## Main definitions

- `TableModel`, `QuerySession` — the table, and the table with the worker and what is in flight
- `QuerySession.step` — one step of the user, of another controller, of the worker, or the
  delivery of a signal
-/

namespace MailDock

/-- What a request asks the worker for; without a query the messages are listed. -/
structure SearchRequest where
  query : String
  mode : SearchMode
  filters : MessageFilter
  cursor : Option PageCursor
  limit : Nat
deriving DecidableEq, Repr

def SearchRequest.run (normalizeForSearch : String → String) (index : SearchIndex) (t : Tables)
    (r : SearchRequest) : Except SearchError SearchPage :=
  if r.query ≠ "" then
    searchMessages normalizeForSearch index t r.query r.mode r.filters r.cursor r.limit
  else listMessages index t r.filters r.cursor r.limit

/-- A queued request with the generation it was issued under. -/
structure QueryTask where
  requestId : Nat
  request : SearchRequest
deriving DecidableEq, Repr

inductive QueryOutcome
  | page (p : SearchPage)
  | failed
  | cancelled
deriving DecidableEq, Repr

/-- Where `_execute_task` stands. -/
inductive TaskStage
  | started
  /-- The checks before the operation have passed. -/
  | executing
  /-- The operation has returned; `run` looks once more whether it is current. -/
  | returned (p : SearchPage)
  /-- On the way into `_emit_task_result`, `_emit_task_failed` or `_emit_task_cancelled`. -/
  | finishing (o : QueryOutcome)
  /-- In `_on_task_failed` or `_on_task_cancelled`. -/
  | announced (o : QueryOutcome)
  /-- The signal is out, or was dropped; `failed` once an error was on its way. -/
  | emitted (failed : Bool)
deriving DecidableEq, Repr

/-- A signal in the event queue of the main thread. -/
inductive QuerySignal
  | result (requestId : Nat) (p : SearchPage)
  | requestFailed (requestId : Nat)
  | requestCancelled (requestId : Nat)
deriving DecidableEq, Repr

def QuerySignal.requestId : QuerySignal → Nat
  | .result id _ | .requestFailed id | .requestCancelled id => id

def QueryOutcome.signal (requestId : Nat) : QueryOutcome → QuerySignal
  | .page p => .result requestId p
  | .failed => .requestFailed requestId
  | .cancelled => .requestCancelled requestId

structure TableModel where
  query : String := ""
  mode : SearchMode := .and
  filters : MessageFilter := {}
  pageSize : Nat := 200
  items : List MessageSummary := []
  nextCursor : Option PageCursor := none
  exhausted : Bool := false
  pendingRequestId : Option Nat := none
  threadMode : Bool := false
  stopped : Bool := false
deriving DecidableEq, Repr

namespace TableModel

/-- The request for the page after a cursor. -/
def ask (m : TableModel) (cursor : Option PageCursor) : SearchRequest :=
  ⟨m.query,m.mode,m.filters,cursor,m.pageSize⟩

def canFetchMore (m : TableModel) : Bool :=
  !m.stopped && !m.threadMode && !m.exhausted && m.pendingRequestId.isNone

/-- The fields `_reset_pages` sets. -/
def cleared (m : TableModel) : TableModel :=
  { m with
    items := [], nextCursor := none, exhausted := false, threadMode := false,
    pendingRequestId := none }

def showThread (m : TableModel) (items : List MessageSummary) : TableModel :=
  { m with
    items := items, nextCursor := none, exhausted := true, pendingRequestId := none,
    threadMode := true }

def clearThread (m : TableModel) : TableModel := if m.threadMode then m.cleared else m

/-- `_on_result` and `_on_request_finished`. -/
def receive (m : TableModel) : QuerySignal → TableModel
  | .result id p =>
    if m.threadMode ∨ m.pendingRequestId ≠ some id then m
    else { m with
      pendingRequestId := none, items := m.items ++ p.items, nextCursor := p.nextCursor,
      exhausted := p.exhausted }
  | .requestFailed id | .requestCancelled id =>
    if m.pendingRequestId = some id then { m with pendingRequestId := none } else m

end TableModel

structure QuerySession where
  table : TableModel
  /-- `_next_ids`, `_current` and the cancelled tokens of the channel. -/
  nextId : Nat := 0
  current : Option Nat := none
  cancelledIds : List Nat := []
  queue : List QueryTask := []
  running : Option (QueryTask × TaskStage) := none
  signals : List QuerySignal := []

/-- What the database makes of an operation. -/
inductive DatabaseAnswer
  | reads (index : SearchIndex) (repo : Repository)
  | fails
  /-- The progress handler saw the cancelled token. -/
  | interrupted

inductive QueryAction
  | setFilters (filters : MessageFilter)
  | setSearch (query : String) (mode : SearchMode)
  | reload
  | fetchMore
  | showThread (items : List MessageSummary)
  | clearThread
  | stopLoading
  /-- Another controller issues a request on the channel. -/
  | otherIssue (request : SearchRequest)
  /-- Another controller cancels the current request of the channel. -/
  | otherCancel
  | work (answer : DatabaseAnswer)
  /-- Closing the connection after the operation fails. -/
  | cleanupFails
  /-- The signal at this place of the event queue is delivered. -/
  | deliver (place : Nat)

namespace QuerySession

/-- `RequestState.cancel`. -/
def cancel (s : QuerySession) : QuerySession :=
  { s with cancelledIds := s.current.toList ++ s.cancelledIds }

/-- `_queue`: `RequestState.issue` and `submit`. -/
def issue (s : QuerySession) (request : SearchRequest) : QuerySession :=
  { s.cancel with
    nextId := s.nextId + 1, current := some (s.nextId + 1),
    queue := s.queue ++ [⟨s.nextId + 1,request⟩] }

def resetPages (s : QuerySession) : QuerySession :=
  { (if s.table.pendingRequestId.isSome then s.cancel else s) with table := s.table.cleared }

def fetchMore (s : QuerySession) : QuerySession :=
  if s.table.canFetchMore then
    { s.issue (s.table.ask s.table.nextCursor) with
      table := { s.table with pendingRequestId := some (s.nextId + 1) } }
  else s

def setFilters (s : QuerySession) (filters : MessageFilter) : QuerySession :=
  if filters ≠ s.table.filters then
    { s with table := { s.table with filters := filters } }.resetPages
  else s

def setSearch (s : QuerySession) (query : String) (mode : SearchMode) : QuerySession :=
  if query ≠ s.table.query ∨ mode ≠ s.table.mode then
    { s with table := { s.table with query := query, mode := mode } }.resetPages
  else s

def stopLoading (s : QuerySession) : QuerySession :=
  if s.table.stopped then s
  else
    { (if s.table.pendingRequestId.isSome then s.cancel else s) with
      table := { s.table with stopped := true, pendingRequestId := none, exhausted := true } }

def emit (s : QuerySession) (id : Nat) (o : QueryOutcome) : QuerySession :=
  if s.current = some id then { s with signals := s.signals ++ [o.signal id] } else s

/-- The next step of the worker's thread; `none` when it has nothing to do. -/
def work (normalizeForSearch : String → String) (s : QuerySession) (answer : DatabaseAnswer) :
    Option QuerySession :=
  match s.running with
  | none =>
    match s.queue with
    | [] => none
    | task :: queue => some { s with queue := queue, running := some (task,.started) }
  | some (task,stage) =>
    match stage with
    | .started =>
      some { s with running := some (task,
        if task.requestId ∈ s.cancelledIds ∨ s.current ≠ some task.requestId then
          .finishing .cancelled
        else .executing) }
    | .executing =>
      match answer with
      | .reads index repo =>
        match task.request.run normalizeForSearch index repo.tables with
        | .ok p => some { s with running := some (task,.returned p) }
        | .error _ => some { s with running := some (task,.finishing .failed) }
      | .fails => some { s with running := some (task,.finishing .failed) }
      | .interrupted =>
        if task.requestId ∈ s.cancelledIds then
          some { s with running := some (task,.finishing .cancelled) }
        else none
    | .returned p =>
      some { s with running := some (task,
        if s.current = some task.requestId then .finishing (.page p)
        else .finishing .cancelled) }
    | .finishing (.page p) =>
      some { s.emit task.requestId (.page p) with running := some (task,.emitted false) }
    | .finishing o =>
      some { s with running := some (task,
        if s.current = some task.requestId then .announced o else .emitted (o = .failed)) }
    | .announced o =>
      some { s.emit task.requestId o with running := some (task,.emitted (o = .failed)) }
    | .emitted _ =>
      some { s with
        running := none,
        current := if s.current = some task.requestId then none else s.current }

/-- `_execute_task` reports a failed cleanup when no error was reported before. -/
def cleanupFails (s : QuerySession) : Option QuerySession :=
  match s.running with
  | some (task,.emitted false) => some { s with running := some (task,.finishing .failed) }
  | _ => none

def deliver (s : QuerySession) (place : Nat) : Option QuerySession :=
  match s.signals[place]? with
  | some signal => some { s with
      signals := s.signals.eraseIdx place, table := s.table.receive signal }
  | none => none

def step (normalizeForSearch : String → String) (s : QuerySession) :
    QueryAction → Option QuerySession
  | .setFilters filters => some (s.setFilters filters)
  | .setSearch query mode => some (s.setSearch query mode)
  | .reload => some (if s.table.stopped then s else s.resetPages.fetchMore)
  | .fetchMore => some s.fetchMore
  | .showThread items => some { s with table := s.table.showThread items }
  | .clearThread => some { s with table := s.table.clearThread }
  | .stopLoading => some s.stopLoading
  | .otherIssue request => some (s.issue request)
  | .otherCancel => some s.cancel
  | .work answer => s.work normalizeForSearch answer
  | .cleanupFails => s.cleanupFails
  | .deliver place => s.deliver place

/-- A new table on a channel nobody has used. -/
def opened (query : String) (mode : SearchMode) (filters : MessageFilter) (pageSize : Nat) :
    QuerySession :=
  { table := { query := query, mode := mode, filters := filters, pageSize := pageSize } }

end QuerySession

end MailDock
