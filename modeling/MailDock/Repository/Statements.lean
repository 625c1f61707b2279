import MailDock.Repository.Writes

/-!
# The other writing statements

Updates of remote and local state, flags, cursors, failures and the audit log.
`WriteOp` collects every writing method a use case calls on the repository, with
its arguments, and `WriteOp.apply` is the effect of the call.
-/

namespace MailDock

open Relational

namespace Tables

def updateRemoteState (messageId : Nat) (state : RemoteState) (movedToFolderId : Option Nat)
    (folderId : Option Nat) (t : Tables) : Tables :=
  { t with
    memberships := update
      (fun r => r.messageId == messageId && folderId.all fun f => r.folderId == f)
      (fun r => { r with remoteState := state, movedToFolderId := movedToFolderId })
      t.memberships }

/-- The membership of the account with this server UID. -/
def isServerUid (t : Tables) (accountId : String) (folderId uidvalidity uid : Nat)
    (r : Membership) : Bool :=
  r.folderId == folderId && r.uidvalidity == some uidvalidity && r.uid == some uid &&
    t.messages.any fun m => m.id == r.messageId && m.accountId == accountId

def updateFlags (accountId : String) (folderId uidvalidity uid : Nat) (imapFlags : Option String)
    (flagsSeenAt : String) (t : Tables) : Tables :=
  { t with
    memberships := update (t.isServerUid accountId folderId uidvalidity uid)
      (fun r => { r with imapFlags := imapFlags, flagsSeenAt := some flagsSeenAt })
      t.memberships }

def touchFlagsSeenAt (accountId : String) (folderId uidvalidity : Nat) (uids : List Nat)
    (flagsSeenAt : String) (t : Tables) : Tables :=
  { t with
    memberships := update
      (fun r => uids.any fun uid => t.isServerUid accountId folderId uidvalidity uid r)
      (fun r => { r with flagsSeenAt := some flagsSeenAt }) t.memberships }

def updateGmailLabels (messageId : Nat) (gmailLabels : List String) (t : Tables) : Tables :=
  { t with
    messages := update (fun m => m.id == messageId)
      (fun m => { m with gmailLabels := some gmailLabels }) t.messages }

def updateFolder (folderId : Nat) (f : Folder → Folder) (t : Tables) : Tables :=
  { t with folders := update (fun r => r.id == folderId) f t.folders }

def setHighestModseq (folderId : Nat) (value : Option Nat) (t : Tables) : Tables :=
  t.updateFolder folderId fun f => { f with highestModseq := value }

def initializeSyncCursors (folderId uidvalidity maxUid : Nat) (t : Tables) : Tables :=
  t.updateFolder folderId fun f => { f with
    uidvalidity := some uidvalidity
    lastSeenUid := maxUid
    backfillNextUid := some maxUid
    initialSyncCompleted := maxUid == 0
    highestModseq := none }

/-- A cursor that is not given keeps its value. -/
def updateSyncCursors (folderId : Nat) (lastSeenUid backfillNextUid : Option Nat)
    (initialSyncCompleted : Option Bool) (t : Tables) : Tables :=
  t.updateFolder folderId fun f => { f with
    lastSeenUid := lastSeenUid.getD f.lastSeenUid
    backfillNextUid := backfillNextUid.or f.backfillNextUid
    initialSyncCompleted := initialSyncCompleted.getD f.initialSyncCompleted }

end Tables

def SyncFailure.isOf (accountId : String) (folderId uidvalidity uid : Nat) (f : SyncFailure) :
    Bool :=
  f.accountId == accountId && f.folderId == folderId && f.uidvalidity == uidvalidity && f.uid == uid

namespace Tables

def recordFailure (accountId : String) (folderId uidvalidity uid : Nat) (errorClass : ErrorClass)
    (message : String) (t : Tables) : Tables :=
  if t.failures.any (SyncFailure.isOf accountId folderId uidvalidity uid) then
    { t with
      failures := update (SyncFailure.isOf accountId folderId uidvalidity uid)
        (fun f => { f with
          errorClass := errorClass, errorMessage := message, attemptCount := f.attemptCount + 1 })
        t.failures }
  else { t with
    failures := t.failures ++ [⟨accountId,folderId,uidvalidity,uid,errorClass,message,1⟩] }

def clearFailure (accountId : String) (folderId uidvalidity uid : Nat) (t : Tables) : Tables :=
  { t with failures := deleteWhere (SyncFailure.isOf accountId folderId uidvalidity uid) t.failures }

def recordAudit (entry : AuditEntry) (t : Tables) : Tables :=
  { t with auditLog := t.auditLog ++ [entry] }

def setLocalState (messageId : Nat) (state : LocalState) (trashedAt : Option String)
    (t : Tables) : Tables :=
  { t with
    messages := update (fun m => m.id == messageId)
      (fun m => { m with localState := state, trashedAt := trashedAt }) t.messages }

def updateMessageStorage (messageId : Nat) (relativePath fileHash : Option String)
    (t : Tables) : Tables :=
  { t with
    messages := update (fun m => m.id == messageId)
      (fun m => { m with relativePath := relativePath, fileHash := fileHash }) t.messages }

def deleteMessageContents (messageId : Nat) (t : Tables) : Tables :=
  { t with contents := deleteWhere (fun c => c.1 == messageId) t.contents }

end Tables

inductive WriteOp
  | addMessage (record : MessageRecord) (contents : Option MessageContents)
  | mergeDuplicateMessage (accountId : String) (canonicalId duplicateId : Nat)
  | replaceMessageMemberships (messageId : Nat) (memberships : List MembershipRecord)
  | addMessageIdentityAlias (accountId : String) (observedSourceItemKey : SourceItemKey)
      (messageId : Nat) (evidenceKind : EvidenceKind)
  | updateRemoteState (messageId : Nat) (state : RemoteState) (movedToFolderId : Option Nat)
      (folderId : Option Nat)
  | updateFlags (accountId : String) (folderId uidvalidity uid : Nat) (imapFlags : Option String)
      (flagsSeenAt : String)
  | touchFlagsSeenAt (accountId : String) (folderId uidvalidity : Nat) (uids : List Nat)
      (flagsSeenAt : String)
  | updateGmailLabels (messageId : Nat) (gmailLabels : List String)
  | setHighestModseq (folderId : Nat) (value : Option Nat)
  | initializeSyncCursors (folderId uidvalidity maxUid : Nat)
  | updateSyncCursors (folderId : Nat) (lastSeenUid backfillNextUid : Option Nat)
      (initialSyncCompleted : Option Bool)
  | recordFailure (accountId : String) (folderId uidvalidity uid : Nat) (errorClass : ErrorClass)
      (message : String)
  | clearFailure (accountId : String) (folderId uidvalidity uid : Nat)
  | recordAudit (entry : AuditEntry)
  | setLocalState (messageId : Nat) (state : LocalState) (trashedAt : Option String)
  | updateMessageStorage (messageId : Nat) (relativePath fileHash : Option String)
  | deleteMessageContents (messageId : Nat)
deriving DecidableEq, Repr

open Repository in
def WriteOp.apply (repo : Repository) : WriteOp → Except Error Repository
  | .addMessage record contents => (repo.addMessage record contents).map Prod.snd
  | .mergeDuplicateMessage accountId canonicalId duplicateId =>
    repo.mergeDuplicateMessage accountId canonicalId duplicateId
  | .replaceMessageMemberships messageId memberships =>
    repo.replaceMessageMemberships messageId memberships
  | .addMessageIdentityAlias accountId key messageId evidenceKind =>
    repo.addMessageIdentityAlias accountId key messageId evidenceKind
  | .updateRemoteState messageId state movedToFolderId folderId =>
    exec "update remote state"
      (repo.tables.updateRemoteState messageId state movedToFolderId folderId)
  | .updateFlags accountId folderId uidvalidity uid imapFlags flagsSeenAt =>
    exec "update message flags"
      (repo.tables.updateFlags accountId folderId uidvalidity uid imapFlags flagsSeenAt)
  | .touchFlagsSeenAt accountId folderId uidvalidity uids flagsSeenAt =>
    exec "touch message flag timestamps"
      (repo.tables.touchFlagsSeenAt accountId folderId uidvalidity uids flagsSeenAt)
  | .updateGmailLabels messageId gmailLabels =>
    exec "update Gmail labels" (repo.tables.updateGmailLabels messageId gmailLabels)
  | .setHighestModseq folderId value =>
    exec "set folder highest modseq" (repo.tables.setHighestModseq folderId value)
  | .initializeSyncCursors folderId uidvalidity maxUid =>
    exec "update sync cursors" (repo.tables.initializeSyncCursors folderId uidvalidity maxUid)
  | .updateSyncCursors folderId lastSeenUid backfillNextUid initialSyncCompleted =>
    exec "update sync cursors"
      (repo.tables.updateSyncCursors folderId lastSeenUid backfillNextUid initialSyncCompleted)
  | .recordFailure accountId folderId uidvalidity uid errorClass message =>
    exec "record sync failure"
      (repo.tables.recordFailure accountId folderId uidvalidity uid errorClass message)
  | .clearFailure accountId folderId uidvalidity uid =>
    exec "clear sync failure" (repo.tables.clearFailure accountId folderId uidvalidity uid)
  | .recordAudit entry => exec "record audit log" (repo.tables.recordAudit entry)
  | .setLocalState messageId state trashedAt =>
    exec "set local message state" (repo.tables.setLocalState messageId state trashedAt)
  | .updateMessageStorage messageId relativePath fileHash =>
    exec "update message storage"
      (repo.tables.updateMessageStorage messageId relativePath fileHash)
  | .deleteMessageContents messageId =>
    exec "delete message contents" (repo.tables.deleteMessageContents messageId)

end MailDock
