import MailDock.Lib.Table
import MailDock.Domain.Messages

/-!
# The metadata database

The tables of `migrations/*.sql` after the message-folder finalisation, each as
the list of its rows, with the uniqueness and foreign-key constraints SQLite
enforces (`PRAGMA foreign_keys = ON`).  A `Repository` carries the proof that its
tables satisfy all of them: a statement that would break one raises instead.
-/

namespace MailDock

open Relational

inductive LocalState
  | active | trashed | purged
deriving DecidableEq, Repr

inductive RemoteState
  | present | deleted | moved | unknown | uncertain | noRemote
deriving DecidableEq, Repr

inductive EvidenceKind
  | gmailMsgid | copyuid | fileHashMove | mergedDuplicate | normalized | imapSourceKeyNormalized
deriving DecidableEq, Repr

inductive ErrorClass
  | auth | transient | permanent | oversize | parse | integrity
deriving DecidableEq, Repr

structure Account where
  id : String
  providerType : String := "imap"
  displayName : Option String := none
  host : Option String := none
  port : Nat := 993
  username : Option String := none
  isEnabled : Bool := true
  tlsMode : String := "implicit"
  caCertPath : Option String := none
  authType : String := "password"
  oauthProvider : Option String := none
  oauthClientId : Option String := none
  oauthTenant : Option String := none
deriving DecidableEq, Repr

structure Folder where
  id : Nat
  accountId : String
  rawName : String
  displayName : String
  uidvalidity : Option Nat := none
  lastSeenUid : Nat := 0
  isSyncTarget : Bool := false
  lastSyncedAt : Option String := none
  backfillNextUid : Option Nat := none
  initialSyncCompleted : Bool := false
  highestModseq : Option Nat := none
deriving DecidableEq, Repr

/-- The columns of `messages` that are copied from the parsed EML. -/
structure Envelope where
  subject : String := ""
  sender : String := ""
  recipient : String := ""
  cc : String := ""
  dateSent : Option String := none
  internalDate : Option String := none
  hasAttachment : Bool := false
  inReplyTo : Option String := none
  referencesIds : Option String := none
  threadKey : Option String := none
deriving DecidableEq, Repr

structure Message where
  id : Nat
  accountId : String
  messageId : Option String
  contentKey : String
  sourceItemKey : SourceItemKey
  localState : LocalState := .active
  trashedAt : Option String := none
  relativePath : Option String
  fileHash : Option String
  envelope : Envelope
  sizeBytes : Option Nat
  gmailMsgid : Option Nat := none
  gmailThrid : Option Nat := none
  gmailLabels : Option (List String) := none
deriving DecidableEq, Repr

/-- A row of `message_folders`. -/
structure Membership where
  messageId : Nat
  folderId : Nat
  uid : Option Nat
  uidvalidity : Option Nat
  remoteState : RemoteState := .present
  movedToFolderId : Option Nat := none
  imapFlags : Option String := none
  flagsSeenAt : Option String := none
  lastSeenAt : Option String := none
deriving DecidableEq, Repr

/-- The key of `uq_message_folders_uid`; a row with a `NULL` in it is never in conflict. -/
def Membership.serverUid (r : Membership) : Option (Nat × Nat × Nat) :=
  match r.uidvalidity,r.uid with
  | some v,some u => some (r.folderId,v,u)
  | _,_ => none

/-- A row of `message_identity_aliases`. -/
structure Alias where
  accountId : String
  observedSourceItemKey : SourceItemKey
  messageId : Nat
  evidenceKind : EvidenceKind
deriving DecidableEq, Repr

structure MessageContents where
  subjectNorm : Option String
  senderNorm : Option String
  bodyText : Option String
  attachmentNames : Option String
deriving DecidableEq, Repr

structure SyncFailure where
  accountId : String
  folderId : Nat
  uidvalidity : Nat
  uid : Nat
  errorClass : ErrorClass
  errorMessage : String
  attemptCount : Nat := 1
deriving DecidableEq, Repr

/-- `message_id` is a `TEXT` column: the id of a message is stored as its decimal text. -/
structure AuditEntry where
  occurredAt : String
  operation : String
  accountId : Option String
  messageId : Option String
  subject : Option String
  sizeBytes : Option Nat
  detail : String
deriving DecidableEq, Repr

/-- The columns of `pst_import_items` that a message merge touches. -/
structure PstImportItem where
  importId : Nat
  sourceItemKey : SourceItemKey
  messageRowId : Option Nat
deriving DecidableEq, Repr

structure Tables where
  accounts : List Account := []
  folders : List Folder := []
  messages : List Message := []
  memberships : List Membership := []
  aliases : List Alias := []
  contents : List (Nat × MessageContents) := []
  failures : List SyncFailure := []
  auditLog : List AuditEntry := []
  pstImportItems : List PstImportItem := []
  nextFolderId : Nat := 1
  nextMessageId : Nat := 1
deriving DecidableEq, Repr

namespace Tables

def HasAccount (t : Tables) (id : String) : Prop := ∃ a ∈ t.accounts, a.id = id
def HasFolder (t : Tables) (id : Nat) : Prop := ∃ f ∈ t.folders, f.id = id
def HasMessage (t : Tables) (id : Nat) : Prop := ∃ m ∈ t.messages, m.id = id

instance (t : Tables) (id : String) : Decidable (t.HasAccount id) :=
  inferInstanceAs (Decidable (∃ a ∈ t.accounts, a.id = id))
instance (t : Tables) (id : Nat) : Decidable (t.HasFolder id) :=
  inferInstanceAs (Decidable (∃ f ∈ t.folders, f.id = id))
instance (t : Tables) (id : Nat) : Decidable (t.HasMessage id) :=
  inferInstanceAs (Decidable (∃ m ∈ t.messages, m.id = id))

/-- The constraints of the schema: primary keys, unique indexes, foreign keys,
and the `AUTOINCREMENT` counters lying above every id in use. -/
structure Valid (t : Tables) : Prop where
  accountId : UniqueOn (fun a : Account => some a.id) t.accounts
  folderId : UniqueOn (fun f : Folder => some f.id) t.folders
  folderName : UniqueOn (fun f : Folder => some (f.accountId,f.rawName)) t.folders
  folderNext : ∀ f ∈ t.folders, f.id < t.nextFolderId
  folderAccount : ∀ f ∈ t.folders, t.HasAccount f.accountId
  messageId : UniqueOn (fun m : Message => some m.id) t.messages
  messageKey : UniqueOn (fun m : Message => some (m.accountId,m.sourceItemKey)) t.messages
  messageNext : ∀ m ∈ t.messages, m.id < t.nextMessageId
  messageAccount : ∀ m ∈ t.messages, t.HasAccount m.accountId
  membershipKey : UniqueOn (fun r : Membership => some (r.messageId,r.folderId)) t.memberships
  membershipUid : UniqueOn Membership.serverUid t.memberships
  membershipMessage : ∀ r ∈ t.memberships, t.HasMessage r.messageId
  membershipFolder : ∀ r ∈ t.memberships, t.HasFolder r.folderId
  membershipMovedTo : ∀ r ∈ t.memberships, ∀ f ∈ r.movedToFolderId, t.HasFolder f
  aliasKey : UniqueOn (fun a : Alias => some (a.accountId,a.observedSourceItemKey)) t.aliases
  aliasAccount : ∀ a ∈ t.aliases, t.HasAccount a.accountId
  aliasMessage : ∀ a ∈ t.aliases, t.HasMessage a.messageId
  contentsKey : UniqueOn (fun c : Nat × MessageContents => some c.1) t.contents
  contentsMessage : ∀ c ∈ t.contents, t.HasMessage c.1
  failureKey : UniqueOn (fun f : SyncFailure => some (f.accountId,f.folderId,f.uidvalidity,f.uid))
    t.failures
  pstItemMessage : ∀ i ∈ t.pstImportItems, ∀ id ∈ i.messageRowId, t.HasMessage id

instance (t : Tables) : Decidable t.Valid :=
  decidable_of_iff
    (UniqueOn (fun a : Account => some a.id) t.accounts ∧
      UniqueOn (fun f : Folder => some f.id) t.folders ∧
      UniqueOn (fun f : Folder => some (f.accountId,f.rawName)) t.folders ∧
      (∀ f ∈ t.folders, f.id < t.nextFolderId) ∧
      (∀ f ∈ t.folders, t.HasAccount f.accountId) ∧
      UniqueOn (fun m : Message => some m.id) t.messages ∧
      UniqueOn (fun m : Message => some (m.accountId,m.sourceItemKey)) t.messages ∧
      (∀ m ∈ t.messages, m.id < t.nextMessageId) ∧
      (∀ m ∈ t.messages, t.HasAccount m.accountId) ∧
      UniqueOn (fun r : Membership => some (r.messageId,r.folderId)) t.memberships ∧
      UniqueOn Membership.serverUid t.memberships ∧
      (∀ r ∈ t.memberships, t.HasMessage r.messageId) ∧
      (∀ r ∈ t.memberships, t.HasFolder r.folderId) ∧
      (∀ r ∈ t.memberships, ∀ f ∈ r.movedToFolderId, t.HasFolder f) ∧
      UniqueOn (fun a : Alias => some (a.accountId,a.observedSourceItemKey)) t.aliases ∧
      (∀ a ∈ t.aliases, t.HasAccount a.accountId) ∧
      (∀ a ∈ t.aliases, t.HasMessage a.messageId) ∧
      UniqueOn (fun c : Nat × MessageContents => some c.1) t.contents ∧
      (∀ c ∈ t.contents, t.HasMessage c.1) ∧
      UniqueOn (fun f : SyncFailure => some (f.accountId,f.folderId,f.uidvalidity,f.uid))
        t.failures ∧
      ∀ i ∈ t.pstImportItems, ∀ id ∈ i.messageRowId, t.HasMessage id)
    ⟨fun ⟨h1,h2,h3,h4,h5,h6,h7,h8,h9,h10,h11,h12,h13,h14,h15,h16,h17,h18,h19,h20,h21⟩ =>
      ⟨h1,h2,h3,h4,h5,h6,h7,h8,h9,h10,h11,h12,h13,h14,h15,h16,h17,h18,h19,h20,h21⟩,
     fun h => ⟨h.1,h.2,h.3,h.4,h.5,h.6,h.7,h.8,h.9,h.10,h.11,h.12,h.13,h.14,h.15,h.16,h.17,
      h.18,h.19,h.20,h.21⟩⟩

theorem valid_empty : ({} : Tables).Valid := by decide

end Tables

/-- A database whose tables satisfy every constraint. -/
structure Repository where
  tables : Tables
  valid : tables.Valid

namespace Repository

def empty : Repository := ⟨{},Tables.valid_empty⟩

theorem ext {a b : Repository} (h : a.tables = b.tables) : a = b := by
  cases a; cases b; cases h; rfl

instance : DecidableEq Repository := fun a b =>
  decidable_of_iff (a.tables = b.tables) ⟨ext,fun h => h ▸ rfl⟩

/-- Run a statement whose effect on the tables is `t`.  SQLite refuses it, and the
repository turns the refusal into a `DatabaseError`, exactly when `t` breaks a
constraint. -/
def exec (operation : String) (t : Tables) : Except Error Repository :=
  if h : t.Valid then .ok ⟨t,h⟩
  else .error ⟨.database,"SQLite operation failed: " ++ operation⟩

theorem exec_eq_ok {operation : String} {t : Tables} {r : Repository} :
    exec operation t = .ok r ↔ r.tables = t := by
  unfold exec
  constructor
  · intro h
    split at h
    · cases h; rfl
    · cases h
  · rintro rfl
    rw [dif_pos r.valid]

theorem exec_of_valid {operation : String} {t : Tables} (h : t.Valid) :
    exec operation t = .ok ⟨t,h⟩ := dif_pos h

end Repository

end MailDock
