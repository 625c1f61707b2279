import MailDock.DeleteRemote.Program
import MailDock.Manifest.Payload
import MailDock.Sync.Program
import MailDock.Trash.Program

/-!
# The events the program builds

Each place of the program that builds an event, with the inputs it builds it from, and
the condition on these inputs under which `_validate_event` accepts the event.  The
schema of a remote delete knows two of the three modes of `RemoteDeleteMode`, so that
none of the events of a Gmail label removal is accepted; and an account that reindex
rebuilt from a PST import has no host.

## Main definitions

- `Built`, `Built.event` — the builders with their inputs, and the events they build
- `Built.Acceptable` — what the schema asks of the inputs
-/

namespace MailDock

open Hoare Wire

/-! ## Snapshots and the migration -/

/-- `str` of a column that may be `NULL`. -/
def strOf : Option String → String
  | none => "None"
  | some text => text

/-- `_account_event`, of a row of `accounts`. -/
def accountEvent (account : Account) (timestamp : String) : ManifestEvent :=
  .accountSnapshot
    { accountId := account.id, providerType := account.providerType,
      displayName := account.displayName, host := strOf account.host, port := account.port,
      username := strOf account.username, isEnabled := account.isEnabled,
      tlsMode := account.tlsMode, caCertPath := account.caCertPath, authType := account.authType,
      oauthProvider := account.oauthProvider, oauthClientId := account.oauthClientId,
      oauthTenant := account.oauthTenant, timestamp := timestamp }

/-- The fields of the record, none of which may look like a credential. -/
def accountFields : List String :=
  ["account_id","auth_type","ca_cert_path","display_name","event","host","is_enabled",
    "oauth_client_id","oauth_provider","oauth_tenant","port","provider_type","timestamp","tls_mode",
    "username"]

/-- The row that reindex writes for a PST import. -/
def rebuiltPstAccount (accountId sourceFilename : String) (displayName : Option String) : Account :=
  { id := accountId, providerType := "pst_import", displayName := displayName, host := some "",
    port := 993, username := some sourceFilename, isEnabled := true }

/-- `_membership_snapshot` of the message-folder migration. -/
def migrationSnapshotEvent (accountId : String) (canonicalKey : SourceItemKey)
    (memberships : List MembershipEntry) (timestamp : String) : ManifestEvent :=
  .membershipSnapshot ⟨accountId,canonicalKey,memberships,none,timestamp⟩

/-- The identity link of the migration. -/
def migrationLinkEvent (accountId : String) (canonicalKey aliasKey : SourceItemKey)
    (fileHash timestamp : String) : ManifestEvent :=
  .identityLinked ⟨accountId,canonicalKey,aliasKey,
    if "gmail:".toList.isPrefixOf canonicalKey.text.toList then .gmailMsgid
    else .imapSourceKeyNormalized,fileHash,timestamp⟩

/-! ## Builders -/

inductive Built
  /-- `_event` of `execute` and `reconcile_uncertain_deletes`. -/
  | remoteDelete (stage : RemoteDeleteStage) (candidate : DeleteCandidate) (mode : RemoteDeleteMode)
      (timestamp : String)
  /-- The snapshot of a label removal, with the rows the repository lists. -/
  | removalSnapshot (candidate : DeleteCandidate) (message : Message) (rows : List MembershipRow)
      (timestamp : String)
  /-- The link of a trash merge plan. -/
  | trashLink (candidate : DeleteCandidate) (message : Message) (aliasKey : SourceItemKey)
      (timestamp : String)
  | trashSnapshot (candidate : DeleteCandidate) (message : Message) (rows : List MembershipRow)
      (trashFolderId : Nat) (trashFolderRawName : String) (moveResult : RemoteMoveResult)
      (timestamp : String)
  /-- `_fetch_event`. -/
  | fetch (accountId folderRawName : String) (folderId uidvalidity : Nat) (key : SourceItemKey)
      (ref : RemoteMessageRef) (parsed : ParsedMessage) (stored : StoredEml)
      (gmailMsgid gmailThrid : Option Nat) (gmailLabels : Option (List String))
      (timestamp : String)
  /-- `_skipped_event`. -/
  | skipped (accountId folderRawName : String) (folderId uidvalidity : Nat) (ref : RemoteMessageRef)
      (sizeBytes : Nat) (timestamp : String)
  /-- `_membership_snapshot_event` of a sync, with the folders and rows of the repository. -/
  | membershipSnapshot (accountId : String) (record : MessageRecord) (removeFolderId : Option Nat)
      (additionalRecords : List MessageRecord) (folders : List Folder) (rows : List MembershipRow)
      (timestamp : String)
  /-- The link of a fetched Gmail message. -/
  | gmailLink (accountId : String) (record : MessageRecord) (aliasKey : SourceItemKey)
      (fileHash timestamp : String)
  /-- The outcome of deletion detection for one UID. -/
  | state (d : Detection) (accountId : String) (folder : Folder) (uidvalidity uid : Nat)
      (known : List ((Nat × Nat × Nat) × LocalMessage)) (found : LocalMessage)
      (candidates : List LocalMessage) (timestamp : String)
  | moveLink (accountId : String) (item : MoveStateEvent) (candidate : LocalMessage)
      (timestamp : String)
  | checkpoint (accountId : String) (sequence : Nat) (batchId timestamp : String)
  /-- `folder_snapshot_event`. -/
  | folderSnapshot (accountId rawName displayName : String) (uidvalidity : Option Nat)
      (delimiter : Option String) (isSyncTarget : Bool) (timestamp : String)
  /-- `_account_event`. -/
  | account (row : Account) (timestamp : String)
  /-- `_purge_event`. -/
  | purge (completed : Bool) (message : Message) (relativePath fileHash timestamp : String)
      (sharedReferenceCount : Nat) (physicalDelete : Bool)
  | migrationSnapshot (accountId : String) (canonicalKey : SourceItemKey)
      (memberships : List MembershipEntry) (timestamp : String)
  | migrationLink (accountId : String) (canonicalKey aliasKey : SourceItemKey)
      (fileHash timestamp : String)

namespace Built

def event : Built → ManifestEvent
  | remoteDelete stage candidate mode timestamp => remoteDeleteEvent stage candidate mode timestamp
  | removalSnapshot candidate message rows timestamp =>
    .membershipSnapshot ⟨candidate.accountId,message.sourceItemKey,
      (rows.filter fun r => some r.membership.folderId ≠ candidate.folderId).map
        MembershipRow.toEntry,
      message.gmailLabels.map fun labels => labels.filter (· ≠ candidate.folderRawName),timestamp⟩
  | trashLink candidate message aliasKey timestamp =>
    .identityLinked ⟨candidate.accountId,message.sourceItemKey,aliasKey,.copyuid,
      candidate.fileHash,timestamp⟩
  | trashSnapshot candidate message rows trashFolderId trashFolderRawName moveResult timestamp =>
    .membershipSnapshot ⟨candidate.accountId,message.sourceItemKey,
      (movedRows rows candidate.folderId trashFolderId trashFolderRawName ++
        [arrivedRow message.id trashFolderId trashFolderRawName moveResult timestamp]).map
          MembershipRow.toEntry,none,timestamp⟩
  | fetch accountId folderRawName folderId uidvalidity key ref parsed stored gmailMsgid gmailThrid
      gmailLabels timestamp =>
    .fetch
      { accountId := accountId, folderId := folderId, folderRawName := folderRawName,
        uid := ref.uid, uidvalidity := uidvalidity, sourceItemKey := key,
        messageId := orText parsed.messageId ref.messageId, relativePath := stored.relativePath,
        fileHash := stored.fileHash, sizeBytes := stored.sizeBytes,
        internalDate := dateIso ref.internalDate, timestamp := timestamp,
        deduplicated := stored.deduplicated, gmailMsgid := gmailMsgid, gmailThrid := gmailThrid,
        gmailLabels := gmailLabels }
  | skipped accountId folderRawName folderId uidvalidity ref sizeBytes timestamp =>
    .fetchSkipped ⟨accountId,folderId,folderRawName,ref.uid,uidvalidity,sizeBytes,"oversize",
      timestamp⟩
  | membershipSnapshot accountId record removeFolderId additionalRecords folders rows timestamp =>
    .membershipSnapshot ⟨accountId,record.sourceItemKey,
      snapshotEntries folders (snapshotRows rows record removeFolderId additionalRecords),
      record.gmailLabels,timestamp⟩
  | gmailLink accountId record aliasKey fileHash timestamp =>
    .identityLinked ⟨accountId,record.sourceItemKey,aliasKey,.gmailMsgid,fileHash,timestamp⟩
  | state d accountId folder uidvalidity uid known found candidates timestamp =>
    .state (d.stateEvent accountId folder uidvalidity uid known found candidates timestamp).event
  | moveLink accountId item candidate timestamp =>
    .identityLinked ⟨accountId,item.record.sourceItemKey,candidate.record.sourceItemKey,
      .fileHashMove,candidate.record.fileHash.getD "",timestamp⟩
  | checkpoint accountId sequence batchId timestamp =>
    .checkpoint ⟨accountId,sequence,batchId,timestamp⟩
  | folderSnapshot accountId rawName displayName uidvalidity delimiter isSyncTarget timestamp =>
    .folderSnapshot ⟨accountId,rawName,displayName,uidvalidity,delimiter,isSyncTarget,timestamp⟩
  | account row timestamp => accountEvent row timestamp
  | purge completed message relativePath fileHash timestamp sharedReferenceCount physicalDelete =>
    if completed then
      .purged (purgeEvent message relativePath fileHash timestamp sharedReferenceCount
        physicalDelete)
    else .purgeIntent (purgeEvent message relativePath fileHash timestamp sharedReferenceCount
      physicalDelete)
  | migrationSnapshot accountId canonicalKey memberships timestamp =>
    migrationSnapshotEvent accountId canonicalKey memberships timestamp
  | migrationLink accountId canonicalKey aliasKey fileHash timestamp =>
    migrationLinkEvent accountId canonicalKey aliasKey fileHash timestamp

/-- What the schema asks of the inputs of each builder, but for the time stamp. -/
def FieldsAcceptable (rt : Runtime) : Built → Prop
  | remoteDelete _ candidate mode _ =>
    candidate.accountId ≠ "" ∧ candidate.folderRawName ≠ "" ∧ mode ≠ .removeMembership
  | removalSnapshot candidate message rows _ =>
    candidate.accountId ≠ "" ∧ message.sourceItemKey ≠ .legacy "" ∧
      ∀ r ∈ rows, some r.membership.folderId ≠ candidate.folderId → r.folderRawName ≠ ""
  | trashLink candidate message aliasKey _ =>
    candidate.accountId ≠ "" ∧ message.sourceItemKey ≠ .legacy "" ∧ aliasKey ≠ .legacy "" ∧
      candidate.fileHash ≠ "" ∧ message.sourceItemKey.text ≠ aliasKey.text
  | trashSnapshot candidate message rows _ trashFolderRawName _ _ =>
    candidate.accountId ≠ "" ∧ message.sourceItemKey ≠ .legacy "" ∧
      (∀ r ∈ rows, r.folderRawName ≠ "") ∧ trashFolderRawName ≠ ""
  | fetch _ _ _ _ _ ref _ _ _ _ _ _ => ∀ date ∈ ref.internalDate, Clocked rt (toUtcIso8601 date)
  | skipped .. => True
  | membershipSnapshot accountId record removeFolderId additionalRecords folders rows _ =>
    accountId ≠ "" ∧ record.sourceItemKey ≠ .legacy "" ∧
      ∀ r ∈ snapshotRows rows record removeFolderId additionalRecords,
        ((folders.find? fun f => f.id == r.membership.folderId).map
          fun f => f.rawName).getD r.folderRawName ≠ ""
  | gmailLink accountId record aliasKey fileHash _ =>
    accountId ≠ "" ∧ record.sourceItemKey ≠ .legacy "" ∧ aliasKey ≠ .legacy "" ∧ fileHash ≠ "" ∧
      record.sourceItemKey.text ≠ aliasKey.text
  | state d accountId folder _ _ known found candidates _ =>
    ∀ c ∈ d.mergeCandidate known folder.id found.record.fileHash candidates,
      accountId ≠ "" ∧ folder.rawName ≠ "" ∧
        (∃ destination, d.targetName c.record.folderId = some destination ∧ destination ≠ "") ∧
          found.record.sourceItemKey ≠ .legacy ""
  | moveLink accountId item candidate _ =>
    accountId ≠ "" ∧ item.record.sourceItemKey ≠ .legacy "" ∧
      candidate.record.sourceItemKey ≠ .legacy "" ∧ candidate.record.fileHash.getD "" ≠ "" ∧
        item.record.sourceItemKey.text ≠ candidate.record.sourceItemKey.text
  | checkpoint accountId _ batchId _ => accountId ≠ "" ∧ batchId ≠ ""
  | folderSnapshot accountId rawName displayName _ _ _ _ =>
    accountId ≠ "" ∧ rawName ≠ "" ∧ displayName ≠ ""
  | account row _ =>
    row.id ≠ "" ∧ row.providerType ≠ "" ∧ row.host ≠ some "" ∧ row.username ≠ some "" ∧ ∀ field ∈ accountFields, ∀ part ∈ secretFieldParts,
        ¬ part.toList <:+: (rt.casefold field).toList
  | purge _ message relativePath fileHash _ _ _ =>
    message.accountId ≠ "" ∧ message.sourceItemKey ≠ .legacy "" ∧ relativePath ≠ "" ∧ fileHash ≠ ""
  | migrationSnapshot accountId canonicalKey memberships _ =>
    accountId ≠ "" ∧ canonicalKey ≠ .legacy "" ∧ ∀ m ∈ memberships, m.folderRawName ≠ ""
  | migrationLink accountId canonicalKey aliasKey fileHash _ =>
    accountId ≠ "" ∧ canonicalKey ≠ .legacy "" ∧ aliasKey ≠ .legacy "" ∧ fileHash ≠ "" ∧
      canonicalKey.text ≠ aliasKey.text

def timestamp : Built → String
  | remoteDelete _ _ _ timestamp | removalSnapshot _ _ _ timestamp | trashLink _ _ _ timestamp
  | trashSnapshot _ _ _ _ _ _ timestamp | fetch _ _ _ _ _ _ _ _ _ _ _ timestamp
  | skipped _ _ _ _ _ _ timestamp | membershipSnapshot _ _ _ _ _ _ timestamp
  | gmailLink _ _ _ _ timestamp | state _ _ _ _ _ _ _ _ timestamp | moveLink _ _ _ timestamp
  | checkpoint _ _ _ timestamp | folderSnapshot _ _ _ _ _ _ timestamp | account _ timestamp
  | purge _ _ _ _ timestamp _ _ | migrationSnapshot _ _ _ timestamp
  | migrationLink _ _ _ _ timestamp => timestamp

/-- The time stamp is one that `_parse_timestamp` takes, and the fields are what the schema asks. -/
def Acceptable (rt : Runtime) (b : Built) : Prop :=
  Clocked rt b.timestamp ∧ b.FieldsAcceptable rt

end Built

variable {rt : Runtime}

theorem text_ne_empty_iff {key : SourceItemKey} : key.text ≠ "" ↔ key ≠ .legacy "" := by
  refine not_congr ⟨SourceItemKey.text_eq_empty,?_⟩
  rintro rfl
  rfl

theorem strOf_ne_empty_iff {text : Option String} : strOf text ≠ "" ↔ text ≠ some "" := by
  cases text with
  | none => exact iff_of_true (by decide) (fun h => by cases h)
  | some text =>
    rw [Ne,Ne,Option.some_inj]
    rfl

/-- The entries of a snapshot are the rows under the names of their folders. -/
theorem snapshotEntries_names {folders : List Folder} {rows : List MembershipRow} :
    (∀ m ∈ snapshotEntries folders rows, m.folderRawName ≠ "") ↔
      ∀ r ∈ rows, ((folders.find? fun f => f.id == r.membership.folderId).map
        fun f => f.rawName).getD r.folderRawName ≠ "" := by
  unfold snapshotEntries
  simp only [List.forall_mem_map,List.mem_insertionSort]

/-- A snapshot after a move to the trash names every folder it named before. -/
theorem movedRows_names {rows : List MembershipRow} {folderId : Option Nat} {trashFolderId : Nat}
    {trashFolderRawName : String} :
    (∀ r ∈ movedRows rows folderId trashFolderId trashFolderRawName, r.folderRawName ≠ "") ↔
      ∀ r ∈ rows, r.folderRawName ≠ "" := by
  unfold movedRows
  rw [List.forall_mem_map]
  refine forall₂_congr fun r _ => ?_
  split
  · rfl
  · rfl

/-- A link is accepted when its texts are there and its keys differ. -/
theorem link_accepted_iff (e : IdentityLinkEvent) :
    Wire.validateEvent rt e.payload = .ok () ↔ Clocked rt e.timestamp ∧ e.accountId ≠ "" ∧
      e.canonicalSourceItemKey ≠ .legacy "" ∧ e.aliasSourceItemKey ≠ .legacy "" ∧
        e.fileHash ≠ "" ∧ e.canonicalSourceItemKey.text ≠ e.aliasSourceItemKey.text := by
  rw [e.accepted_iff,text_ne_empty_iff,text_ne_empty_iff]

theorem snapshot_accepted_iff (e : MembershipSnapshotEvent) :
    Wire.validateEvent rt e.payload = .ok () ↔ Clocked rt e.timestamp ∧ e.accountId ≠ "" ∧
      e.sourceItemKey ≠ .legacy "" ∧ ∀ m ∈ e.memberships, m.folderRawName ≠ "" := by
  rw [e.accepted_iff,text_ne_empty_iff]

theorem trashSnapshot_names {rows : List MembershipRow} {folderId : Option Nat}
    {messageId trashFolderId : Nat} {trashFolderRawName timestamp : String}
    {moveResult : RemoteMoveResult} :
    (∀ m ∈ (movedRows rows folderId trashFolderId trashFolderRawName ++
      [arrivedRow messageId trashFolderId trashFolderRawName moveResult timestamp]).map
        MembershipRow.toEntry, m.folderRawName ≠ "") ↔
      (∀ r ∈ rows, r.folderRawName ≠ "") ∧ trashFolderRawName ≠ "" := by
  rw [List.forall_mem_map,List.forall_mem_append,List.forall_mem_singleton]
  exact and_congr movedRows_names Iff.rfl

theorem accountEvent_accepted_iff (row : Account) (timestamp : String) :
    Wire.validateEvent rt (accountEvent row timestamp).payload = .ok () ↔
      (Built.account row timestamp).Acceptable rt := by
  refine (AccountSnapshotEvent.accepted_iff _).trans (and_congr_right fun _ =>
    and_congr_right fun _ => and_congr_right fun _ => and_congr strOf_ne_empty_iff
      (and_congr strOf_ne_empty_iff ?_))
  show (accountFields.all fun field => secretFieldParts.all fun part =>
    !decide (part.toList <:+: (rt.casefold field).toList)) = true ↔ _
  simp only [List.all_eq_true,Bool.not_eq_true',decide_eq_false_iff_not]

/-- A state event only names a destination when it is a move. -/
theorem state_accepted_iff (d : Detection) (accountId : String) (folder : Folder)
    (uidvalidity uid : Nat) (known : List ((Nat × Nat × Nat) × LocalMessage)) (found : LocalMessage)
    (candidates : List LocalMessage) (timestamp : String) :
    Wire.validateEvent rt
        (d.stateEvent accountId folder uidvalidity uid known found candidates timestamp).event.payload =
      .ok () ↔
    (Built.state d accountId folder uidvalidity uid known found candidates timestamp).Acceptable rt := by
  refine (StateEvent.accepted_iff _).trans (and_congr_right fun _ => ?_)
  show ((d.kind (d.mergeCandidate known folder.id found.record.fileHash candidates)
    found.record.fileHash candidates = .moved) → _ ∧ _ ∧ (∃ destination,
      ((d.mergeCandidate known folder.id found.record.fileHash candidates).bind
        fun c => d.targetName c.record.folderId) = some destination ∧ _) ∧ _) ↔ ∀ c ∈ _, _
  cases d.mergeCandidate known folder.id found.record.fileHash candidates with
  | none =>
    refine iff_of_true (fun hkind => ?_) fun c hc => by cases hc
    unfold Detection.kind at hkind
    split at hkind
    · rename_i hsome
      cases hsome
    · split at hkind
      · cases hkind
      · cases hkind
  | some c =>
    constructor
    · intro h c' hc
      cases hc
      obtain ⟨haccount,hfolder,hdestination,hkey⟩ := h rfl
      exact ⟨haccount,hfolder,hdestination,text_ne_empty_iff.mp hkey⟩
    · intro h _
      obtain ⟨haccount,hfolder,hdestination,hkey⟩ := h c rfl
      exact ⟨haccount,hfolder,hdestination,text_ne_empty_iff.mpr hkey⟩

/-- `_validate_event` accepts an event the program builds if and only if the inputs of its
builder are acceptable. -/
theorem built_event_accepted_iff (b : Built) :
    Wire.validateEvent rt b.event.payload = .ok () ↔ b.Acceptable rt := by
  cases b with
  | remoteDelete stage candidate mode timestamp => exact RemoteDeleteEvent.accepted_iff _
  | removalSnapshot candidate message rows timestamp =>
    refine (snapshot_accepted_iff _).trans (and_congr_right fun _ => and_congr_right fun _ =>
      and_congr_right fun _ => ?_)
    rw [List.forall_mem_map,List.forall_mem_filter]
    exact forall₂_congr fun r _ => by rw [decide_eq_true_iff]; rfl
  | trashLink candidate message aliasKey timestamp => exact link_accepted_iff _
  | trashSnapshot candidate message rows trashFolderId trashFolderRawName moveResult timestamp =>
    exact (snapshot_accepted_iff _).trans (and_congr_right fun _ => and_congr_right fun _ =>
      and_congr_right fun _ => trashSnapshot_names)
  | fetch accountId folderRawName folderId uidvalidity key ref parsed stored gmailMsgid gmailThrid
      gmailLabels timestamp =>
    refine (FetchEvent.accepted_iff _).trans (and_congr_right fun _ => ?_)
    show (∀ text ∈ ref.internalDate.map toUtcIso8601, Clocked rt text) ↔ _
    exact Option.forall_mem_map
  | skipped accountId folderRawName folderId uidvalidity ref sizeBytes timestamp =>
    exact (FetchSkippedEvent.accepted_iff _).trans (and_iff_left trivial).symm
  | membershipSnapshot accountId record removeFolderId additionalRecords folders rows timestamp =>
    exact (snapshot_accepted_iff _).trans (and_congr_right fun _ => and_congr_right fun _ =>
      and_congr_right fun _ => snapshotEntries_names)
  | gmailLink accountId record aliasKey fileHash timestamp => exact link_accepted_iff _
  | state d accountId folder uidvalidity uid known found candidates timestamp =>
    exact state_accepted_iff d accountId folder uidvalidity uid known found candidates timestamp
  | moveLink accountId item candidate timestamp => exact link_accepted_iff _
  | checkpoint accountId sequence batchId timestamp => exact CheckpointEvent.accepted_iff _
  | folderSnapshot accountId rawName displayName uidvalidity delimiter isSyncTarget timestamp =>
    exact FolderSnapshotEvent.accepted_iff _
  | account row timestamp => exact accountEvent_accepted_iff row timestamp
  | purge completed message relativePath fileHash timestamp count physicalDelete =>
    have hkeys := fun name hname => (@PurgeEvent.accepted_iff rt
      (purgeEvent message relativePath fileHash timestamp count physicalDelete) name hname).trans
        (and_congr_right fun _ => and_congr_right fun _ => and_congr_left' text_ne_empty_iff)
    cases completed with
    | true => exact hkeys .purged (.inr rfl)
    | false => exact hkeys .purgeIntent (.inl rfl)
  | migrationSnapshot accountId canonicalKey memberships timestamp => exact snapshot_accepted_iff _
  | migrationLink accountId canonicalKey aliasKey fileHash timestamp => exact link_accepted_iff _

/-- The intent of a Gmail label removal, and the account of a PST import after reindex. -/
theorem label_removal_and_rebuilt_pst_rejected :
    Wire.validateEvent januaryRuntime
      (Built.remoteDelete .intent
        { messageId := 1, accountId := "work", folderRawName := "Receipts", uid := 7,
          uidvalidity := 3, subject := "", dateSent := none, internalDate := none, sizeBytes := 10,
          relativePath := "eml/work/unknown/a.eml", fileHash := "ab" } .removeMembership
        "2026-01-05T10:00:00+00:00").event.payload =
      .error ⟨.valueError,"remote_delete_intent event mode must be 'trash' or 'expunge'"⟩ ∧
    Wire.validateEvent januaryRuntime
      (Built.account (rebuiltPstAccount "pst_e3b0c44298fc_6f1c1d0e" "archive.pst" none)
        "2026-01-05T10:00:00+00:00").event.payload =
      .error ⟨.typeError,"account_snapshot event host must be a non-empty string"⟩ := by
  exact ⟨rfl,rfl⟩

/-! ## Builders that read the database -/

section
variable {env : Env} {P : World → Prop}

theorem membershipSnapshotEvent_built {accountId : String} {record : MessageRecord}
    {removeFolderId : Option Nat} {additionalRecords : List MessageRecord} :
    Triple P (membershipSnapshotEvent env accountId record removeFolderId additionalRecords)
      (fun e _ => ∃ folders rows timestamp, e = (Built.membershipSnapshot accountId record
        removeFolderId additionalRecords folders rows timestamp).event) fun _ _ => True := by
  refine (Triple.skip _).seq fun folders => (Triple.skip _).seq fun rows =>
    (Triple.skip _).seq fun now => Triple.ret fun _ _ => ⟨folders,rows,now,rfl⟩

theorem removalSnapshotEvent_built {candidate : DeleteCandidate} {message : Message} :
    Triple P (removalSnapshotEvent env candidate message)
      (fun e _ => ∃ rows timestamp,
        e = (Built.removalSnapshot candidate message rows timestamp).event) fun _ _ => True := by
  refine (Triple.skip _).seq fun rows => ?_
  dsimp only
  split
  · exact Triple.raise fun _ _ => trivial
  · exact (Triple.skip _).seq fun now => Triple.ret fun _ _ => ⟨rows,now,rfl⟩

theorem buildTrashMergePlan_built {candidate : DeleteCandidate} {message : Message}
    {trashFolderRawName : String} {moveResult : RemoteMoveResult} :
    Triple P (buildTrashMergePlan env candidate message trashFolderRawName moveResult)
      (fun plan _ => ∀ p ∈ plan, ∃ rows timestamp,
        p.identityEvent =
          (Built.trashLink candidate message p.aliasSourceItemKey timestamp).event ∧
        p.snapshotEvent = (Built.trashSnapshot candidate message rows p.trashFolderId
          trashFolderRawName moveResult timestamp).event) fun _ _ => True := by
  refine (Triple.skip _).seq fun aliasKey => ?_
  split
  · exact Triple.ret fun _ _ p hp => by cases hp
  · refine (Triple.skip _).seq fun folders => ?_
    split
    · exact Triple.ret fun _ _ p hp => by cases hp
    · refine (Triple.skip _).seq fun now => (Triple.skip _).seq fun rows =>
        (Triple.skip _).seq fun duplicate => Triple.ret fun _ _ p hp => ?_
      cases hp
      exact ⟨rows,now,rfl,rfl⟩

theorem fetchEvent_built {accountId folderRawName : String} {folderId uidvalidity : Nat}
    {ref : RemoteMessageRef} {parsed : ParsedMessage} {stored : StoredEml}
    {gmailMsgid gmailThrid : Option Nat} {gmailLabels : Option (List String)} :
    Triple P (fetchEvent env accountId folderRawName folderId uidvalidity ref parsed stored
        gmailMsgid gmailThrid gmailLabels)
      (fun e _ => ∃ key timestamp, .fetch e = (Built.fetch accountId folderRawName folderId
        uidvalidity key ref parsed stored gmailMsgid gmailThrid gmailLabels timestamp).event)
      fun _ _ => True := by
  refine (Triple.skip _).seq fun key => (Triple.skip _).seq fun now =>
    Triple.ret fun _ _ => ⟨key,now,rfl⟩

theorem skippedEvent_built {accountId folderRawName : String} {folderId uidvalidity : Nat}
    {ref : RemoteMessageRef} {sizeBytes : Nat} :
    Triple P (skippedEvent env accountId folderRawName folderId uidvalidity ref sizeBytes)
      (fun e _ => ∃ timestamp, e = (Built.skipped accountId folderRawName folderId uidvalidity ref
        sizeBytes timestamp).event) fun _ _ => True := by
  exact (Triple.skip _).seq fun now => Triple.ret fun _ _ => ⟨now,rfl⟩

end

end MailDock
