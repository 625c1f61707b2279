import MailDock.Lib.Program
import MailDock.Repository.Tables

/-!
# Writing messages, memberships and aliases

`add_message`, `replace_message_memberships`, `add_message_identity_alias` and
`merge_duplicate_message` of `message_repository.py`, statement by statement.
A statement that SQLite refuses raises, and the surrounding transaction is then
never committed: an error carries no new repository.
-/

namespace MailDock

open Relational

/-- The columns a caller of `add_message` hands over. -/
structure MessageRecord where
  accountId : String
  folderId : Nat
  messageId : Option String := none
  contentKey : String
  sourceItemKey : SourceItemKey
  uid : Option Nat
  uidvalidity : Option Nat
  remoteState : RemoteState := .present
  movedToFolderId : Option Nat := none
  localState : LocalState := .active
  relativePath : Option String := none
  fileHash : Option String := none
  envelope : Envelope := {}
  sizeBytes : Option Nat := none
  imapFlags : Option String := none
  flagsSeenAt : Option String := none
  lastSeenAt : Option String := none
  gmailMsgid : Option Nat := none
  gmailThrid : Option Nat := none
  gmailLabels : Option (List String) := none
deriving DecidableEq, Repr

/-- The `messages` row written for a record; `trashed_at` is not among its columns. -/
def MessageRecord.toMessage (r : MessageRecord) (id : Nat) (trashedAt : Option String) : Message :=
  { id := id, accountId := r.accountId, messageId := r.messageId, contentKey := r.contentKey,
    sourceItemKey := r.sourceItemKey, localState := r.localState, trashedAt := trashedAt,
    relativePath := r.relativePath, fileHash := r.fileHash, envelope := r.envelope,
    sizeBytes := r.sizeBytes, gmailMsgid := r.gmailMsgid, gmailThrid := r.gmailThrid,
    gmailLabels := r.gmailLabels }

def MessageRecord.toMembership (r : MessageRecord) (messageId : Nat) : Membership :=
  { messageId := messageId, folderId := r.folderId, uid := r.uid, uidvalidity := r.uidvalidity,
    remoteState := r.remoteState, movedToFolderId := r.movedToFolderId, imapFlags := r.imapFlags,
    flagsSeenAt := r.flagsSeenAt, lastSeenAt := r.lastSeenAt }

/-- The membership columns of one entry of a membership snapshot. -/
structure MembershipRecord where
  folderId : Nat
  uid : Option Nat
  uidvalidity : Option Nat
  remoteState : RemoteState := .present
  movedToFolderId : Option Nat := none
  imapFlags : Option String := none
  flagsSeenAt : Option String := none
  lastSeenAt : Option String := none
deriving DecidableEq, Repr

def MembershipRecord.toMembership (r : MembershipRecord) (messageId : Nat) : Membership :=
  { messageId := messageId, folderId := r.folderId, uid := r.uid, uidvalidity := r.uidvalidity,
    remoteState := r.remoteState, movedToFolderId := r.movedToFolderId, imapFlags := r.imapFlags,
    flagsSeenAt := r.flagsSeenAt, lastSeenAt := r.lastSeenAt }

def Message.hasKey (accountId : String) (key : SourceItemKey) (m : Message) : Bool :=
  m.accountId == accountId && m.sourceItemKey == key

def Membership.isOf (messageId folderId : Nat) (r : Membership) : Bool :=
  r.messageId == messageId && r.folderId == folderId

def Alias.hasKey (accountId : String) (key : SourceItemKey) (a : Alias) : Bool :=
  a.accountId == accountId && a.observedSourceItemKey == key

namespace Tables

def findMessage (t : Tables) (accountId : String) (key : SourceItemKey) : Option Message :=
  t.messages.find? (Message.hasKey accountId key)

/-- `INSERT INTO messages … ON CONFLICT(account_id, source_item_key) DO UPDATE`. -/
def upsertMessage (record : MessageRecord) (t : Tables) : Tables :=
  if (t.findMessage record.accountId record.sourceItemKey).isSome then
    { t with
      messages := update (Message.hasKey record.accountId record.sourceItemKey)
        (fun m => record.toMessage m.id m.trashedAt) t.messages }
  else
    { t with
      messages := t.messages ++ [record.toMessage t.nextMessageId none]
      nextMessageId := t.nextMessageId + 1 }

def findMembership (t : Tables) (messageId folderId : Nat) : Option Membership :=
  t.memberships.find? (Membership.isOf messageId folderId)

/-- `INSERT INTO message_folders … ON CONFLICT(message_id, folder_id) DO UPDATE`. -/
def upsertMembership (row : Membership) (t : Tables) : Tables :=
  if (t.findMembership row.messageId row.folderId).isSome then
    { t with
      memberships := update (Membership.isOf row.messageId row.folderId)
        (fun _ => row) t.memberships }
  else { t with memberships := t.memberships ++ [row] }

def putContents (messageId : Nat) (contents : MessageContents) (t : Tables) : Tables :=
  { t with
    contents := deleteWhere (fun c => c.1 == messageId) t.contents ++ [(messageId,contents)] }

def findAlias (t : Tables) (accountId : String) (key : SourceItemKey) : Option Alias :=
  t.aliases.find? (Alias.hasKey accountId key)

/-- `INSERT OR IGNORE INTO message_identity_aliases`. -/
def insertOrIgnoreAlias (row : Alias) (t : Tables) : Tables :=
  if (t.findAlias row.accountId row.observedSourceItemKey).isSome then t
  else { t with aliases := t.aliases ++ [row] }

end Tables

namespace Repository

def addMessage (repo : Repository) (record : MessageRecord) (contents : Option MessageContents) :
    Except Error (Nat × Repository) := do
  let upserted ← exec "add message" (repo.tables.upsertMessage record)
  match upserted.tables.findMessage record.accountId record.sourceItemKey with
  | none => .error ⟨.database,"Message upsert did not return an id"⟩
  | some message =>
    let stored ← exec "add message"
      (upserted.tables.upsertMembership (record.toMembership message.id))
    match contents with
    | none => .ok (message.id,stored)
    | some contents =>
      let written ← exec "add message" (stored.tables.putContents message.id contents)
      .ok (message.id,written)

def replaceMessageMemberships (repo : Repository) (messageId : Nat)
    (memberships : List MembershipRecord) : Except Error Repository := do
  let cleared ← exec "replace message memberships"
    { repo.tables with
      memberships := deleteWhere (fun r => r.messageId == messageId) repo.tables.memberships }
  memberships.foldlM (fun r membership => exec "replace message memberships"
    { r.tables with memberships := r.tables.memberships ++ [membership.toMembership messageId] })
    cleared

def addMessageIdentityAlias (repo : Repository) (accountId : String)
    (observedSourceItemKey : SourceItemKey) (messageId : Nat) (evidenceKind : EvidenceKind) :
    Except Error Repository := do
  let inserted ← exec "restore message identity alias"
    (repo.tables.insertOrIgnoreAlias ⟨accountId,observedSourceItemKey,messageId,evidenceKind⟩)
  match inserted.tables.findAlias accountId observedSourceItemKey with
  | some row =>
    if row.messageId = messageId then .ok inserted
    else .error ⟨.database,"Message identity alias maps to multiple canonical messages"⟩
  | none => .error ⟨.database,"Message identity alias maps to multiple canonical messages"⟩

/-- The local state of a merged message: `active` wins over `trashed` over `purged`. -/
def mergedLocalState (canonical duplicate : LocalState) : LocalState :=
  if canonical = .active ∨ duplicate = .active then .active
  else if canonical = .trashed ∨ duplicate = .trashed then .trashed
  else .purged

/-- The canonical row takes the duplicate's EML over when it has neither path nor hash. -/
def mergeStorage (canonical duplicate : Message) (repo : Repository) : Except Error Repository :=
  if canonical.relativePath = none ∧ canonical.fileHash = none then
    exec "merge duplicate message"
      { repo.tables with
        messages := update (fun m => m.id == canonical.id)
          (fun m => { m with
            fileHash := duplicate.fileHash, relativePath := duplicate.relativePath })
          repo.tables.messages }
  else .ok repo

def mergeState (canonical duplicate : Message) (repo : Repository) : Except Error Repository :=
  let mergedState := mergedLocalState canonical.localState duplicate.localState
  if mergedState ≠ canonical.localState then
    exec "merge duplicate message"
      { repo.tables with
        messages := update (fun m => m.id == canonical.id)
          (fun m => { m with localState := mergedState }) repo.tables.messages }
  else .ok repo

def mergeContents (canonical duplicate : Message) (repo : Repository) : Except Error Repository :=
  if (repo.tables.contents.any fun c => c.1 == canonical.id) = false ∧
      (repo.tables.contents.any fun c => c.1 == duplicate.id) = true then
    exec "merge duplicate message"
      { repo.tables with
        contents := update (fun c => c.1 == duplicate.id) (fun c => (canonical.id,c.2))
          repo.tables.contents }
  else .ok repo

/-- The alias statements: a copy of each alias of the duplicate, one for its own
key, and the deletion of what still points at the duplicate. -/
def mergeAliases (accountId : String) (canonical duplicate : Message) (repo : Repository) :
    Except Error Repository := do
  let aliases := repo.tables.aliases.filter fun a =>
    a.messageId == duplicate.id && a.accountId == accountId
  let copied ← aliases.foldlM (fun r a => exec "merge duplicate message"
    (r.tables.insertOrIgnoreAlias
      ⟨accountId,a.observedSourceItemKey,canonical.id,a.evidenceKind⟩)) repo
  let linked ← exec "merge duplicate message"
    (copied.tables.insertOrIgnoreAlias
      ⟨accountId,duplicate.sourceItemKey,canonical.id,.mergedDuplicate⟩)
  exec "merge duplicate message"
    { linked.tables with
      aliases := deleteWhere (fun a => a.messageId == duplicate.id) linked.tables.aliases }

/-- Move one membership of the duplicate, or drop it when the canonical message
already has the folder under the same UID. -/
def mergeMembership (canonicalId duplicateId : Nat) (repo : Repository) (membership : Membership) :
    Except Error Repository :=
  match repo.tables.findMembership canonicalId membership.folderId with
  | some existing =>
    if (existing.uid,existing.uidvalidity) ≠ (membership.uid,membership.uidvalidity) then
      .error ⟨.database,"Cannot merge duplicate memberships with conflicting folder UIDs"⟩
    else exec "merge duplicate message"
      { repo.tables with
        memberships := deleteWhere (Membership.isOf duplicateId membership.folderId)
          repo.tables.memberships }
  | none => exec "merge duplicate message"
      { repo.tables with
        memberships := update (Membership.isOf duplicateId membership.folderId)
          (fun r => { r with messageId := canonicalId }) repo.tables.memberships }

def mergeMemberships (canonicalId duplicateId : Nat) (repo : Repository) :
    Except Error Repository :=
  (repo.tables.memberships.filter fun r => r.messageId == duplicateId).foldlM
    (mergeMembership canonicalId duplicateId) repo

/-- `DELETE FROM messages`, with its `ON DELETE CASCADE` tables. -/
def deleteDuplicate (canonicalId duplicateId : Nat) (repo : Repository) :
    Except Error Repository := do
  let redirected ← exec "merge duplicate message"
    { repo.tables with
      pstImportItems := update (fun i => i.messageRowId == some duplicateId)
        (fun i => { i with messageRowId := some canonicalId }) repo.tables.pstImportItems }
  exec "merge duplicate message"
    { redirected.tables with
      messages := deleteWhere (fun m => m.id == duplicateId) redirected.tables.messages
      memberships := deleteWhere (fun r => r.messageId == duplicateId)
        redirected.tables.memberships
      aliases := deleteWhere (fun a => a.messageId == duplicateId) redirected.tables.aliases
      contents := deleteWhere (fun c => c.1 == duplicateId) redirected.tables.contents }

def mergeDuplicateMessage (repo : Repository) (accountId : String)
    (canonicalId duplicateId : Nat) : Except Error Repository := do
  if canonicalId = duplicateId then .ok repo
  else
    let byId := fun id => repo.tables.messages.find? fun m => m.id == id && m.accountId == accountId
    match byId canonicalId,byId duplicateId with
    | some canonical,some duplicate =>
      if canonical.fileHash ≠ none ∧ duplicate.fileHash ≠ none ∧
          canonical.fileHash ≠ duplicate.fileHash then
        .error ⟨.database,"Cannot merge messages with different EML hashes"⟩
      else
        let stored ← mergeStorage canonical duplicate repo
        let stated ← mergeState canonical duplicate stored
        let contents ← mergeContents canonical duplicate stated
        let aliases ← mergeAliases accountId canonical duplicate contents
        let memberships ← mergeMemberships canonicalId duplicateId aliases
        deleteDuplicate canonicalId duplicateId memberships
    | _,_ => .error ⟨.database,"Cannot merge a message that no longer exists"⟩

end Repository

end MailDock
