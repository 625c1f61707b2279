import Mathlib.Data.List.Sort
import MailDock.Repository.Statements

/-!
# Reading the metadata database

The `SELECT`s of `message_repository.py` that the use cases rely on.  An
`ORDER BY` is an insertion sort on the key, so that a query can be evaluated.
-/

namespace MailDock

namespace Tables

def listAccounts (t : Tables) : List Account := t.accounts

def listFolders (t : Tables) (accountId : String) : List Folder :=
  (t.folders.filter fun f => f.accountId == accountId).insertionSort fun a b => a.id ≤ b.id

def listSyncTargets (t : Tables) (accountId : String) : List Folder :=
  (t.listFolders accountId).filter fun f => f.isSyncTarget

def folderRawName (t : Tables) (id : Nat) : Option String :=
  (t.folders.find? fun f => f.id == id).map fun f => f.rawName

/-- The memberships of a message in the order of their folder ids. -/
def membershipsOf (t : Tables) (messageId : Nat) : List Membership :=
  (t.memberships.filter fun r => r.messageId == messageId).insertionSort
    fun a b => a.folderId ≤ b.folderId

end Tables

/-- A membership joined with the names of the folders it refers to. -/
structure MembershipRow where
  membership : Membership
  folderRawName : String
  movedToFolderRawName : Option String
deriving DecidableEq, Repr

def Membership.toRecord (r : Membership) : MembershipRecord :=
  { folderId := r.folderId, uid := r.uid, uidvalidity := r.uidvalidity,
    remoteState := r.remoteState, movedToFolderId := r.movedToFolderId, imapFlags := r.imapFlags,
    flagsSeenAt := r.flagsSeenAt, lastSeenAt := r.lastSeenAt }

/-- The columns of a message row together with those of one of its memberships. -/
def Message.toRecord (m : Message) (r : Membership) : MessageRecord :=
  { accountId := m.accountId, folderId := r.folderId, messageId := m.messageId,
    contentKey := m.contentKey, sourceItemKey := m.sourceItemKey, uid := r.uid,
    uidvalidity := r.uidvalidity, remoteState := r.remoteState,
    movedToFolderId := r.movedToFolderId, localState := m.localState,
    relativePath := m.relativePath, fileHash := m.fileHash, envelope := m.envelope,
    sizeBytes := m.sizeBytes, imapFlags := r.imapFlags, flagsSeenAt := r.flagsSeenAt,
    lastSeenAt := r.lastSeenAt, gmailMsgid := m.gmailMsgid, gmailThrid := m.gmailThrid,
    gmailLabels := m.gmailLabels }

namespace Tables

def listMessageMemberships (t : Tables) (accountId : String) (key : SourceItemKey) :
    List MembershipRow :=
  match t.findMessage accountId key with
  | none => []
  | some m => (t.membershipsOf m.id).filterMap fun r =>
    (t.folderRawName r.folderId).map fun name =>
      ⟨r,name,r.movedToFolderId.bind t.folderRawName⟩

/-- A message with its membership in the first folder, if it has any. -/
def getMessage (t : Tables) (messageId : Nat) : Option (Message × Option Membership) :=
  (t.messages.find? fun m => m.id == messageId).map fun m => (m,(t.membershipsOf m.id).head?)

/-- The messages with an EML, each with its membership in the first folder, if it has any. -/
def listStoredMessages (t : Tables) (accountId : Option String) :
    List (Message × Option Membership) :=
  ((t.messages.filter fun m => m.relativePath.isSome && accountId.all (· == m.accountId)).insertionSort
    fun a b => a.id ≤ b.id).map fun m => (m,(t.membershipsOf m.id).head?)

def getMessageByUid (t : Tables) (accountId : String) (folderId uidvalidity uid : Nat) :
    Option (Message × Membership) :=
  (t.memberships.find? (t.isServerUid accountId folderId uidvalidity uid)).bind fun r =>
    (t.messages.find? fun m => m.id == r.messageId).map fun m => (m,r)

def localUids (t : Tables) (accountId : String) (folderId uidvalidity : Nat) : List Nat :=
  (t.memberships.filterMap fun r =>
    r.uid.bind fun uid =>
      if t.isServerUid accountId folderId uidvalidity uid r then some uid else none).dedup

def findMoveCandidates (t : Tables) (accountId contentKey fileHash : String)
    (excludeFolderId : Nat) : List (Message × Membership) :=
  ((t.messages.filter fun m => m.accountId == accountId && m.contentKey == contentKey &&
      m.fileHash == some fileHash).insertionSort fun a b => a.id ≤ b.id).flatMap fun m =>
    ((t.membershipsOf m.id).filter fun r =>
      r.folderId != excludeFolderId && r.remoteState == .present).map fun r => (m,r)

def findStoredEml (t : Tables) (accountId fileHash : String) : Option StoredEml :=
  ((t.messages.filter fun m => m.accountId == accountId && m.fileHash == some fileHash &&
      m.relativePath.isSome).insertionSort fun a b => a.id ≤ b.id).head?.bind fun m =>
    m.relativePath.map fun path => ⟨path,fileHash,m.sizeBytes.getD 0,false⟩

def findMessageIdBySourceItemKey (t : Tables) (accountId : String) (key : SourceItemKey) :
    Option Nat :=
  (t.findMessage accountId key).map fun m => m.id

def hasMessageContents (t : Tables) (messageId : Nat) : Bool :=
  t.contents.any fun c => c.1 == messageId

def pendingFailures (t : Tables) (accountId : String) (folderId uidvalidity : Nat) :
    List SyncFailure :=
  (t.failures.filter fun f => f.accountId == accountId && f.folderId == folderId &&
    f.uidvalidity == uidvalidity && f.attemptCount < 10).insertionSort fun a b => a.uid ≤ b.uid

/-- The memberships of a folder generation whose message is recent enough to
have its flags refreshed, in the order of their UIDs. -/
def listFlagRefreshItems (t : Tables) (accountId : String) (folderId uidvalidity : Nat)
    (sinceInternalDate : String) : List (Message × Membership) :=
  (t.memberships.filterMap fun r =>
    (t.messages.find? fun m => m.id == r.messageId).bind fun m =>
      if m.accountId == accountId && r.folderId == folderId && r.uidvalidity == some uidvalidity &&
          r.uid.isSome && (m.envelope.internalDate.any fun d => sinceInternalDate ≤ d) then
        some (m,r)
      else none).insertionSort fun a b => a.2.uid.getD 0 ≤ b.2.uid.getD 0

end Tables

end MailDock
