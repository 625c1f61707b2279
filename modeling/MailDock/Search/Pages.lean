import MailDock.Lib.Keyset
import MailDock.Domain.Stamps
import MailDock.Search.Query
import Mathlib.Data.List.Sort
import Mathlib.Data.Prod.Lex
import Mathlib.Data.String.Basic

/-!
# Listing and counting messages

`_page` and `count_messages` of `search_repository.py` on the finalised schema, and
`list_all_messages` of `usecases/search_messages.py`, which follows the cursors.  A text
comparison of SQLite goes by the bytes of the UTF-8 encoding, and so by code points.
-/

namespace MailDock

structure MessageFilter where
  accountIds : Option (List String) := none
  folderIds : Option (List Nat) := none
  dateFrom : Option Stamp := none
  dateTo : Option Stamp := none
  hasAttachment : Option Bool := none
  localStates : List LocalState := [.active]
  remoteStates : Option (List RemoteState) := none
  threadKey : Option String := none
deriving DecidableEq, Repr

structure PageCursor where
  sortKey : String
  messageId : Nat
deriving DecidableEq, Repr

structure MessageSummary where
  id : Nat
  accountId : String
  folderId : Nat
  folderRawName : String
  folderDisplayName : String
  subject : String
  sender : String
  dateSent : Option Stamp
  internalDate : Option Stamp
  sizeBytes : Option Nat
  hasAttachment : Bool
  remoteState : RemoteState
  localState : LocalState
  threadKey : Option String
  imapFlags : Option String
  movedToFolderDisplayName : Option String
  failureClass : Option ErrorClass
  flagsSeenAt : Option Stamp
  trashedAt : Option Stamp
deriving DecidableEq, Repr

structure SearchPage where
  items : List MessageSummary
  nextCursor : Option PageCursor
  exhausted : Bool
  hasSlowPath : Bool := false
deriving DecidableEq, Repr

inductive SearchError
  | query (e : SearchQueryError)
  | value (message : String)
deriving DecidableEq, Repr

/-! The `WHERE` clause. -/

/-- `COALESCE(m.date_sent, m.internal_date, '')`. -/
def Message.dateKey (m : Message) : String :=
  (m.envelope.dateSent.or m.envelope.internalDate).getD ""

/-- The key of the `ORDER BY`, highest first. -/
def Message.pageKey (m : Message) : String ×ₗ Nat := toLex (m.dateKey,m.id)

def PageCursor.key (c : PageCursor) : String ×ₗ Nat := toLex (c.sortKey,c.messageId)

/-- `_filter_clause`.  An empty set makes the whole clause `0`, and no row is in it. -/
def MessageFilter.matches (filters : MessageFilter) (t : Tables) (m : Message) : Bool :=
  filters.accountIds.all (fun ids => ids.contains m.accountId) &&
    filters.folderIds.all (fun ids => t.memberships.any fun r =>
      r.messageId == m.id && ids.contains r.folderId) &&
    filters.dateFrom.all (fun d => decide (d.dbDatetime ≤ m.dateKey)) &&
    filters.dateTo.all (fun d => decide (m.dateKey ≤ d.dbDatetime)) &&
    filters.hasAttachment.all (fun b => m.envelope.hasAttachment == b) &&
    filters.localStates.contains m.localState &&
    filters.remoteStates.all (fun states => t.memberships.any fun r =>
      r.messageId == m.id && states.contains r.remoteState) &&
    filters.threadKey.all (fun key => m.envelope.threadKey == some key)

/-- The clauses of a search or a listing, without the cursor. -/
def isWanted (index : SearchIndex) (t : Tables) (plan : Option SearchPlan)
    (filters : MessageFilter) (m : Message) : Bool :=
  (plan.bind SearchPlan.matchingExpression).all (fun e => decide (m.id ∈ e.rows index)) &&
    filters.matches t m

/-! The joins. -/

structure PageRow where
  message : Message
  membership : Membership
  folder : Folder
  movedTo : Option Folder
  failure : Option SyncFailure
deriving DecidableEq, Repr

def PageRow.key (row : PageRow) : String ×ₗ Nat := row.message.pageKey

/-- `LEFT JOIN`: a row without partner stays, with `NULL`s. -/
def leftJoin {α : Type} (rows : List α) : List (Option α) :=
  if rows.isEmpty then [none] else rows.map some

namespace Tables

/-- A membership of the message in one of the folders asked for. -/
def isEligible (filters : MessageFilter) (messageId : Nat) (r : Membership) : Bool :=
  r.messageId == messageId && filters.folderIds.all fun ids => ids.contains r.folderId

/-- `SELECT MIN(mf2.folder_id) FROM message_folders AS mf2 WHERE …`. -/
def shownFolderId (t : Tables) (filters : MessageFilter) (messageId : Nat) : Option Nat :=
  ((t.memberships.filter (isEligible filters messageId)).map fun r => r.folderId).min?

def movedToFolders (t : Tables) (r : Membership) : List Folder :=
  t.folders.filter fun f => some f.id == r.movedToFolderId

def failuresOf (t : Tables) (m : Message) (r : Membership) : List SyncFailure :=
  t.failures.filter fun f => f.accountId == m.accountId && f.folderId == r.folderId &&
    some f.uidvalidity == r.uidvalidity && some f.uid == r.uid

def pageRowsOf (t : Tables) (filters : MessageFilter) (m : Message) : List PageRow :=
  (t.memberships.filter fun r => r.messageId == m.id &&
      some r.folderId == t.shownFolderId filters m.id).flatMap fun r =>
    (t.folders.filter fun f => f.id == r.folderId).flatMap fun f =>
      (leftJoin (t.movedToFolders r)).flatMap fun movedTo =>
        (leftJoin (t.failuresOf m r)).map fun failure => ⟨m,r,f,movedTo,failure⟩

end Tables

/-- `_summary`. -/
def PageRow.summary (row : PageRow) : MessageSummary :=
  { id := row.message.id, accountId := row.message.accountId, folderId := row.membership.folderId,
    folderRawName := row.folder.rawName, folderDisplayName := row.folder.displayName,
    subject := row.message.envelope.subject, sender := row.message.envelope.sender,
    dateSent := row.message.envelope.dateSent.bind Stamp.read,
    internalDate := row.message.envelope.internalDate.bind Stamp.read,
    sizeBytes := row.message.sizeBytes, hasAttachment := row.message.envelope.hasAttachment,
    remoteState := row.membership.remoteState, localState := row.message.localState,
    threadKey := row.message.envelope.threadKey, imapFlags := row.membership.imapFlags,
    movedToFolderDisplayName := row.movedTo.map Folder.displayName,
    failureClass := row.failure.map SyncFailure.errorClass,
    flagsSeenAt := row.membership.flagsSeenAt.bind Stamp.read,
    trashedAt := row.message.trashedAt.bind Stamp.read }

/-- `_sort_key`. -/
def MessageSummary.sortKey (s : MessageSummary) : String :=
  ((s.dateSent.or s.internalDate).map Stamp.dbDatetime).getD ""

section
variable (index : SearchIndex) (t : Tables) (plan : Option SearchPlan) (filters : MessageFilter)

/-- The rows of the joins that satisfy the `WHERE` clause, but for the cursor. -/
def joinedRows : List PageRow :=
  (t.messages.flatMap (t.pageRowsOf filters)).filter fun row =>
    isWanted index t plan filters row.message

/-- The rows of the statement before its `LIMIT`. -/
def selectedRows (cursor : Option PageCursor) : List PageRow :=
  Keyset.descend PageRow.key (Keyset.after PageRow.key (cursor.map PageCursor.key)
    (joinedRows index t plan filters))

/-- `_page`. -/
def page (cursor : Option PageCursor) (limit : Nat) : Except SearchError SearchPage :=
  if limit = 0 then .error (.value "limit must be positive")
  else
    let rows := (selectedRows index t plan filters cursor).take (limit + 1)
    let summaries := (rows.take limit).map PageRow.summary
    let hasMore := decide (limit < rows.length)
    let nextCursor := if hasMore then
        summaries.getLast?.map fun last => ⟨last.sortKey,last.id⟩
      else none
    .ok ⟨summaries,nextCursor,!hasMore,false⟩

def countMessages : Nat :=
  ((t.messages.filter (isWanted index t plan filters)).map Message.id).dedup.length

end

/-- The loop of `list_all_messages`: read a page, and go on with its cursor. -/
def followPages (fetch : Option PageCursor → Except SearchError SearchPage) :
    (rounds : Nat) → Option PageCursor → List MessageSummary →
      Except SearchError (Option (List MessageSummary))
  | 0,_,_ => .ok none
  | rounds + 1,cursor,results => do
    let page ← fetch cursor
    if page.exhausted then .ok (some (results ++ page.items))
    else
      match page.nextCursor with
      | none => .ok (some (results ++ page.items))
      | some cursor => followPages fetch rounds (some cursor) (results ++ page.items)

section
variable (normalizeForSearch : String → String) (index : SearchIndex) (t : Tables)

/-- `search_messages` of the use case. -/
def searchMessages (query : String) (mode : SearchMode) (filters : MessageFilter)
    (cursor : Option PageCursor) (limit : Nat) : Except SearchError SearchPage := do
  let plan ← (parseQuery normalizeForSearch query mode).mapError .query
  let page ← page index t (some plan) filters cursor limit
  pure { page with hasSlowPath := plan.hasSlowPath }

def listMessages (filters : MessageFilter) (cursor : Option PageCursor) (limit : Nat) :
    Except SearchError SearchPage :=
  page index t none filters cursor limit

/-- `list_all_messages` with a token nobody cancels; `none` while it is still reading after
so many rounds. -/
def listAllMessages (query : String) (mode : SearchMode) (filters : MessageFilter)
    (rounds : Nat) : Except SearchError (Option (List MessageSummary)) :=
  followPages (fun cursor =>
    if query ≠ "" then searchMessages normalizeForSearch index t query mode filters cursor 200
    else listMessages index t filters cursor 200) rounds none []

end

end MailDock
