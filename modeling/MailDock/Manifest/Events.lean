import MailDock.Repository.Tables

/-!
# Manifest events

The records of `infrastructure/storage/manifest.py`.  The JSON types a record must
have are the types of the fields here; what is left of `_validate_event` are the
checks on values: required texts, the mode of a remote delete, the keys of an
identity link and the order of checkpoints.  Time stamps are the ones the writers
format themselves, which always parse.
-/

namespace MailDock

inductive RemoteDeleteMode
  | trash | expunge | removeMembership
deriving DecidableEq, Repr

def RemoteDeleteMode.text : RemoteDeleteMode → String
  | .trash => "trash"
  | .expunge => "expunge"
  | .removeMembership => "remove_membership"

structure FetchEvent where
  accountId : String
  folderId : Nat
  folderRawName : String
  uid : Nat
  uidvalidity : Nat
  sourceItemKey : SourceItemKey
  messageId : Option String
  relativePath : String
  fileHash : String
  sizeBytes : Nat
  internalDate : Option String
  timestamp : String
  deduplicated : Bool
  gmailMsgid : Option Nat := none
  gmailThrid : Option Nat := none
  gmailLabels : Option (List String) := none
deriving DecidableEq, Repr

structure FetchSkippedEvent where
  accountId : String
  folderId : Nat
  folderRawName : String
  uid : Nat
  uidvalidity : Nat
  sizeBytes : Nat
  reason : String
  timestamp : String
deriving DecidableEq, Repr

inductive StateEventKind
  | deleteDetected | remoteStateUnknown | moved
deriving DecidableEq, Repr

/-- `delete_detected`, `remote_state_unknown` and `moved`. -/
structure StateEvent where
  kind : StateEventKind
  accountId : String
  folderRawName : String
  uid : Nat
  uidvalidity : Nat
  sourceItemKey : SourceItemKey
  messageId : Option String
  contentKey : String
  fileHash : Option String
  timestamp : String
  movedToFolderRawName : Option String := none
deriving DecidableEq, Repr

structure CheckpointEvent where
  accountId : String
  sequence : Nat
  batchId : String
  timestamp : String
deriving DecidableEq, Repr

structure AccountSnapshotEvent where
  accountId : String
  providerType : String
  displayName : Option String
  host : String
  port : Nat
  username : String
  isEnabled : Bool
  tlsMode : String
  caCertPath : Option String
  authType : String
  oauthProvider : Option String
  oauthClientId : Option String
  oauthTenant : Option String
  timestamp : String
deriving DecidableEq, Repr

structure FolderSnapshotEvent where
  accountId : String
  folderRawName : String
  displayName : String
  uidvalidity : Option Nat
  delimiter : Option String
  isSyncTarget : Bool
  timestamp : String
deriving DecidableEq, Repr

/-- `purge_intent` and `purged`. -/
structure PurgeEvent where
  accountId : String
  sourceItemKey : SourceItemKey
  relativePath : String
  fileHash : String
  timestamp : String
  sharedReferenceCount : Nat
  physicalDelete : Bool
deriving DecidableEq, Repr

inductive RemoteDeleteStage
  | intent | completed | uncertain
deriving DecidableEq, Repr

structure RemoteDeleteEvent where
  stage : RemoteDeleteStage
  accountId : String
  folderRawName : String
  uid : Nat
  uidvalidity : Nat
  mode : RemoteDeleteMode
  timestamp : String
deriving DecidableEq, Repr

/-- One membership of a `message_membership_snapshot`. -/
structure MembershipEntry where
  folderRawName : String
  uid : Option Nat
  uidvalidity : Option Nat
  remoteState : RemoteState
  movedToFolderRawName : Option String
  imapFlags : Option String
  flagsSeenAt : Option String
  lastSeenAt : Option String
deriving DecidableEq, Repr

structure MembershipSnapshotEvent where
  accountId : String
  sourceItemKey : SourceItemKey
  memberships : List MembershipEntry
  gmailLabels : Option (List String)
  timestamp : String
deriving DecidableEq, Repr

structure IdentityLinkEvent where
  accountId : String
  canonicalSourceItemKey : SourceItemKey
  aliasSourceItemKey : SourceItemKey
  evidenceKind : EvidenceKind
  fileHash : String
  timestamp : String
deriving DecidableEq, Repr

inductive ManifestEvent
  | fetch (e : FetchEvent)
  | fetchSkipped (e : FetchSkippedEvent)
  | state (e : StateEvent)
  | checkpoint (e : CheckpointEvent)
  | accountSnapshot (e : AccountSnapshotEvent)
  | folderSnapshot (e : FolderSnapshotEvent)
  | purgeIntent (e : PurgeEvent)
  | purged (e : PurgeEvent)
  | remoteDelete (e : RemoteDeleteEvent)
  | membershipSnapshot (e : MembershipSnapshotEvent)
  | identityLinked (e : IdentityLinkEvent)
deriving DecidableEq, Repr

/-- `_require_text`: the named field must not be empty. -/
def requireText (value field eventName : String) : Except Error Unit :=
  if value = "" then
    .error ⟨.value,eventName ++ " event " ++ field ++ " must be a non-empty string"⟩
  else .ok ()

/-- An empty key can only come from a manifest older than the `imap:` and `gmail:` keys. -/
def requireKey (key : SourceItemKey) (field eventName : String) : Except Error Unit :=
  if key = .legacy "" then
    .error ⟨.value,eventName ++ " event " ++ field ++ " must be a non-empty string"⟩
  else .ok ()

def RemoteDeleteStage.eventName : RemoteDeleteStage → String
  | .intent => "remote_delete_intent"
  | .completed => "remote_delete_completed"
  | .uncertain => "remote_delete_uncertain"

def validatePurge (e : PurgeEvent) (eventName : String) : Except Error Unit := do
  requireText e.accountId "account_id" eventName
  requireKey e.sourceItemKey "source_item_key" eventName
  requireText e.relativePath "relative_path" eventName
  requireText e.fileHash "file_hash" eventName

def validateMembershipEntry (m : MembershipEntry) : Except Error Unit :=
  if m.folderRawName = "" then
    .error ⟨.value,"membership snapshot folder_raw_name must be a non-empty string"⟩
  else .ok ()

/-- The checks of `_validate_event` that depend on values. -/
def validateEvent : ManifestEvent → Except Error Unit
  | .fetch _ | .fetchSkipped _ => .ok ()
  | .state e =>
    match e.kind with
    | .deleteDetected | .remoteStateUnknown => .ok ()
    | .moved =>
      match e.movedToFolderRawName with
      | none => .error ⟨.value,"moved event is missing required fields: ['moved_to_folder_raw_name']"⟩
      | some destination => do
        requireText e.accountId "account_id" "moved"
        requireText e.folderRawName "folder_raw_name" "moved"
        requireText destination "moved_to_folder_raw_name" "moved"
        requireKey e.sourceItemKey "source_item_key" "moved"
  | .checkpoint e => do
    requireText e.accountId "account_id" "checkpoint"
    requireText e.batchId "batch_id" "checkpoint"
  | .accountSnapshot e => do
    requireText e.accountId "account_id" "account_snapshot"
    requireText e.providerType "provider_type" "account_snapshot"
    requireText e.host "host" "account_snapshot"
    requireText e.username "username" "account_snapshot"
  | .folderSnapshot e => do
    requireText e.accountId "account_id" "folder_snapshot"
    requireText e.folderRawName "folder_raw_name" "folder_snapshot"
    requireText e.displayName "display_name" "folder_snapshot"
  | .purgeIntent e => validatePurge e "purge_intent"
  | .purged e => validatePurge e "purged"
  | .remoteDelete e => do
    requireText e.accountId "account_id" e.stage.eventName
    requireText e.folderRawName "folder_raw_name" e.stage.eventName
    if e.mode = .removeMembership then
      .error ⟨.value,e.stage.eventName ++ " event mode must be 'trash' or 'expunge'"⟩
    else .ok ()
  | .membershipSnapshot e => do
    requireText e.accountId "account_id" "message_membership_snapshot"
    requireKey e.sourceItemKey "source_item_key" "message_membership_snapshot"
    e.memberships.forM validateMembershipEntry
  | .identityLinked e => do
    requireText e.accountId "account_id" "message_identity_linked"
    requireKey e.canonicalSourceItemKey "canonical_source_item_key" "message_identity_linked"
    requireKey e.aliasSourceItemKey "alias_source_item_key" "message_identity_linked"
    requireText e.fileHash "file_hash" "message_identity_linked"
    if e.canonicalSourceItemKey = e.aliasSourceItemKey then
      .error ⟨.value,"identity link canonical and alias keys must differ"⟩
    else .ok ()

/-- What `ManifestWriter.append` checks before it writes; the result is the new
`last_checkpoint_sequence`. -/
def appendEvent (lastCheckpointSequence : Option Nat) (e : ManifestEvent) :
    Except Error (Option Nat) := do
  validateEvent e
  match e with
  | .checkpoint c =>
    match lastCheckpointSequence with
    | some previous =>
      if c.sequence ≤ previous then
        .error ⟨.value,"checkpoint event sequence must increase monotonically"⟩
      else .ok (some c.sequence)
    | none => .ok (some c.sequence)
  | _ => .ok lastCheckpointSequence

end MailDock
