import MailDock.Reindex.Replay
import MailDock.Storage.Verify

/-!
# Rebuilding the database

The second half of `reindex`: the EML of every fetch is read and parsed, unless a completed purge
explains why it is gone, and the rows are written to the replacement database in one batch.  The
progress callback is left out.

## Main definitions

- `prepareFetch` — the row of one fetch
- `writeRows` — the batch
- `reindex` — the use case
-/

namespace MailDock

open Hoare Relational

/-! ## Accounts and folders -/

/-- `_account_record`. -/
def AccountSnapshotEvent.accountRecord (e : AccountSnapshotEvent) : Option Account :=
  if e.accountId = "" ∨ e.providerType = "" ∨ e.host = "" ∨ e.username = "" then none
  else some
    { id := e.accountId, providerType := e.providerType, displayName := e.displayName,
      host := some e.host, port := e.port, username := some e.username, isEnabled := e.isEnabled,
      tlsMode := e.tlsMode, caCertPath := e.caCertPath, authType := e.authType,
      oauthProvider := e.oauthProvider, oauthClientId := e.oauthClientId,
      oauthTenant := e.oauthTenant }

/-- `_folder_record`: a rebuilt folder is never a sync target. -/
def FolderSnapshotEvent.folderRecord (e : FolderSnapshotEvent) : Option FolderRecord :=
  if e.accountId = "" ∨ e.folderRawName = "" ∨ e.displayName = "" then none
  else some
    { accountId := e.accountId, rawName := e.folderRawName, displayName := some e.displayName,
      uidvalidity := some e.uidvalidity, isSyncTarget := some false }

/-- The record of a folder that is known by its name only. -/
def namedFolder (accountId rawName : String) : FolderRecord :=
  { accountId := accountId, rawName := rawName, displayName := some rawName,
    isSyncTarget := some false }

namespace Replay

def accounts (s : Replay) : List (String × Account) :=
  s.accountEvents.filterMap fun entry => entry.2.accountRecord.map fun a => (entry.1,a)

def folders (s : Replay) : List ((String × String) × FolderRecord) :=
  s.folderEvents.filterMap fun entry =>
    if (s.accounts.lookup entry.1.1).isSome then entry.2.folderRecord.map fun f => (entry.1,f)
    else none

/-- The fetches of folders that are known. -/
def validFetches (s : Replay) : List (FetchKey × FetchEvent) :=
  s.fetches.filter fun f => (s.folders.lookup (f.1.1,f.1.2.1)).isSome

/-- The warnings that need no EML. -/
def snapshotWarnings (s : Replay) : List String :=
  (s.accountEvents.filterMap fun entry =>
    if entry.2.accountRecord.isNone then some ("invalid account snapshot: " ++ entry.1) else none) ++
  (s.fetches.flatMap fun f =>
    (if (s.accounts.lookup f.1.1).isSome then []
      else ["fetch has no account snapshot: " ++ f.1.1]) ++
    (if (s.folders.lookup (f.1.1,f.1.2.1)).isSome then []
      else ["fetch has no folder snapshot: " ++ f.1.1 ++ "/" ++ f.1.2.1])) ++
  if s.folders.isEmpty && !s.fetches.isEmpty then ["no valid folder snapshots were available"]
  else []

end Replay

/-- `INSERT INTO accounts … ON CONFLICT(id) DO UPDATE SET` every other column. -/
def Tables.upsertAccount (account : Account) (t : Tables) : Tables :=
  if t.accounts.any fun a => a.id == account.id then
    { t with accounts := update (fun a => a.id == account.id) (fun _ => account) t.accounts }
  else { t with accounts := t.accounts ++ [account] }

/-! ## The rows of the fetches -/

/-- A row that is ready to be written, but for the ids of its folders. -/
structure PreparedMessage where
  record : MessageRecord
  contents : Option MessageContents
  folderKey : String × String
  destination : Option String
deriving DecidableEq, Repr

/-- What the audit entries take from a parsed EML. -/
structure ParsedMetadata where
  messageId : Option String
  subject : Option String
  sizeBytes : Nat
deriving DecidableEq, Repr

structure Preparation where
  messages : List PreparedMessage := []
  parsedMetadata : List ((String × SourceItemKey) × ParsedMetadata) := []
  contentsCount : Nat := 0
  purgedCount : Nat := 0
  skippedCount : Nat := 0
  warnings : List String := []
deriving DecidableEq, Repr

/-- `_internal_date`. -/
def FetchEvent.parsedInternalDate (e : FetchEvent) : Option DateTime :=
  (e.internalDate.bind presentText).bind DateTime.fromIsoformat

/-- The record of a fetch whose EML was parsed. -/
def reindexRecord (key : FetchKey) (e : FetchEvent) (sourceItemKey : SourceItemKey)
    (parsed : ParsedMessage) (state : MessageState) (snapshot : Option MembershipSnapshotEvent)
    (isPurged : Bool) : MessageRecord where
  accountId := key.1
  folderId := 0
  messageId := orText parsed.messageId (e.messageId.bind presentText)
  contentKey := (orText parsed.contentKey none).getD ("sha256:" ++ emlStem e.fileHash)
  sourceItemKey := sourceItemKey
  uid := some key.2.2.2
  uidvalidity := some key.2.2.1
  remoteState := state.remoteState
  localState := if isPurged then .purged else .active
  relativePath := if isPurged then none else some e.relativePath
  fileHash := some e.fileHash
  envelope :=
    { subject := parsed.subject, sender := parsed.sender, recipient := parsed.recipient,
      cc := parsed.cc, dateSent := dateIso parsed.dateSent, internalDate := e.internalDate,
      hasAttachment := parsed.hasAttachment, inReplyTo := parsed.inReplyTo,
      referencesIds := parsed.referencesIds, threadKey := parsed.threadKey }
  sizeBytes := some e.sizeBytes
  gmailMsgid := e.gmailMsgid
  gmailThrid := e.gmailThrid
  gmailLabels := ((snapshot.bind fun snapshot => snapshot.gmailLabels).or e.gmailLabels)

/-- The completed purges have an entry with the key, the path and the hash of the fetch. -/
def Canonical.isPurged (c : Canonical) (key : FetchKey) (sourceItemKey : SourceItemKey)
    (e : FetchEvent) : Bool :=
  (key.1,sourceItemKey,e.relativePath,e.fileHash) ∈ c.completedPurges

section
variable (env : Env)

/-- A file that cannot be read or has another hash raises one of the two errors that are caught. -/
def readStored (relativePath fileHash : String) : App (Option Bytes) := do
  let read ← outcome (readVerified env relativePath fileHash)
  match read with
  | .ok raw => pure (some raw)
  | .error e => if e.kind = .fileNotFound ∨ e.isStorageError then pure none else throw e

/-- What a fetch adds once its EML was read, or is known to be gone. -/
def preparedFetch (s : Replay) (c : Canonical) (p : Preparation) (key : FetchKey) (e : FetchEvent)
    (sourceItemKey : SourceItemKey) (raw : Option Bytes) : Preparation :=
  let isPurged := c.isPurged key sourceItemKey e
  let parsed := (raw.map fun raw => env.parse raw e.parsedInternalDate).getD {}
  let state := (s.states.lookup key).getD ⟨.present,none⟩
  let hasContents := !isPurged && parsed.parseError.isNone
  { p with
    messages := p.messages ++
      [{ record := reindexRecord key e sourceItemKey parsed state
           (c.snapshots.lookup (key.1,sourceItemKey)) isPurged
         contents := if hasContents then some (messageContents parsed false) else none
         folderKey := (key.1,key.2.1)
         destination := state.movedToFolderRawName }]
    parsedMetadata := assign p.parsedMetadata (key.1,sourceItemKey)
      ⟨parsed.messageId,presentText parsed.subject,e.sizeBytes⟩
    contentsCount := p.contentsCount + if hasContents then 1 else 0
    purgedCount := p.purgedCount + if isPurged then 1 else 0
    warnings := p.warnings ++
      if parsed.parseError.isSome then ["EML parse failed: " ++ e.relativePath] else [] }

/-- One round of the loop over the fetches. -/
def prepareFetch (s : Replay) (c : Canonical) (p : Preparation) (f : FetchKey × FetchEvent) :
    App Preparation :=
  if f.2.relativePath = "" ∨ f.2.fileHash = "" then
    pure { p with
      skippedCount := p.skippedCount + 1
      warnings := p.warnings ++
        ["fetch has no stored EML: " ++ f.1.1 ++ ":" ++ toString f.1.2.2.2] }
  else
    match c.byFetch.lookup f.1 with
    | none => throw ⟨.value,"fetch has no canonical key"⟩
    | some sourceItemKey => do
      let raw ← readStored env f.2.relativePath f.2.fileHash
      if raw.isNone && !c.isPurged f.1 sourceItemKey f.2 then
        pure { p with
          skippedCount := p.skippedCount + 1
          warnings := p.warnings ++ ["could not verify EML: " ++ f.2.relativePath] }
      else pure (preparedFetch env s c p f.1 f.2 sourceItemKey raw)

/-- The rows of the fetches, and whether the operation was cancelled. -/
def prepareFetches (s : Replay) (c : Canonical) :
    List (FetchKey × FetchEvent) → Preparation → App (Preparation × Bool)
  | [],p => pure (p,false)
  | f :: rest,p => do
    let stop ← isCancelled env
    if stop then pure (p,true)
    else do
      let p ← prepareFetch env s c p f
      prepareFetches s c rest p

/-! ## The batch -/

def upsertAccount (account : Account) : App Unit :=
  if account.id = "" then throw ⟨.database,"Account id is required"⟩
  else do
    repoCall env
    let w ← get
    let db ← Prog.ofExcept (Repository.exec "upsert account" (w.db.tables.upsertAccount account))
    set (w.folderWritten db)

/-- The ids of the folders and messages written so far. -/
structure WrittenIds where
  folders : List ((String × String) × Nat) := []
  messages : List ((String × SourceItemKey) × Nat) := []
deriving DecidableEq, Repr

/-- The id of a folder, which is added when no snapshot named it. -/
def folderIdOf (ids : WrittenIds) (accountId rawName : String) : App (Nat × WrittenIds) :=
  match ids.folders.lookup (accountId,rawName) with
  | some id => pure (id,ids)
  | none => do
    let id ← upsertFolder env (namedFolder accountId rawName)
    pure (id,{ ids with folders := assign ids.folders (accountId,rawName) id })

def optionalFolderId (ids : WrittenIds) (accountId : String) (rawName : Option String) :
    App (Option Nat × WrittenIds) :=
  match rawName with
  | none => pure (none,ids)
  | some rawName => do
    let (id,ids) ← folderIdOf env ids accountId rawName
    pure (some id,ids)

def writeMessage (ids : WrittenIds) (m : PreparedMessage) : App WrittenIds :=
  match ids.folders.lookup m.folderKey with
  | none => throw ⟨.value,"message has no folder"⟩
  | some folderId => do
    let (movedTo,ids) ← optionalFolderId env ids m.record.accountId m.destination
    let id ← addMessage env { m.record with folderId := folderId, movedToFolderId := movedTo }
      m.contents
    pure { ids with
      messages := assign ids.messages (m.record.accountId,m.record.sourceItemKey) id }

def writeAlias (links : IdentityLinks) (ids : WrittenIds)
    (entry : (String × SourceItemKey) × (SourceItemKey × EvidenceKind × String)) : App Unit := do
  let canonicalKey ← Prog.ofExcept (resolveIdentityKey entry.1.1 entry.2.1 links)
  match ids.messages.lookup (entry.1.1,canonicalKey) with
  | none => throw ⟨.storage,"Manifest identity link has no canonical fetch"⟩
  | some id => writeRepo env (.addMessageIdentityAlias entry.1.1 entry.1.2 id entry.2.2.1)

/-- One entry of a membership snapshot. -/
def membershipOf (accountId : String) (acc : List MembershipRecord × WrittenIds)
    (m : MembershipEntry) : App (List MembershipRecord × WrittenIds) :=
  if m.folderRawName = "" then
    throw ⟨.storage,"Manifest membership snapshot has no folder name"⟩
  else do
    let (folderId,ids) ← folderIdOf env acc.2 accountId m.folderRawName
    let (movedTo,ids) ← optionalFolderId env ids accountId m.movedToFolderRawName
    pure (acc.1 ++
      [{ folderId := folderId, uid := m.uid, uidvalidity := m.uidvalidity,
         remoteState := m.remoteState, movedToFolderId := movedTo, imapFlags := m.imapFlags,
         flagsSeenAt := m.flagsSeenAt, lastSeenAt := m.lastSeenAt }],ids)

def writeSnapshot (ids : WrittenIds)
    (entry : (String × SourceItemKey) × MembershipSnapshotEvent) : App WrittenIds :=
  match ids.messages.lookup entry.1 with
  | none => throw ⟨.storage,"Membership snapshot has no canonical fetch"⟩
  | some id => do
    let (memberships,ids) ← entry.2.memberships.foldlM (membershipOf env entry.1.1) ([],ids)
    writeRepo env (.replaceMessageMemberships id memberships)
    pure ids

def writeRows (s : Replay) (c : Canonical) (messages : List PreparedMessage) : App Unit := do
  beginBatch env
  s.accounts.forM fun entry => upsertAccount env entry.2
  let ids ← s.folders.foldlM (fun (ids : WrittenIds) entry => do
    let id ← upsertFolder env entry.2
    pure { ids with folders := assign ids.folders entry.1 id }) {}
  let ids ← messages.foldlM (writeMessage env) ids
  s.identityLinks.forM (writeAlias env s.identityLinks ids)
  let _ ← c.snapshots.foldlM (writeSnapshot env) ids
  commitBatch env

/-! ## Audit entries -/

/-- `event.get("event")` of the events that leave an audit entry. -/
def ManifestEvent.auditedName : ManifestEvent → String
  | .state e =>
    match e.kind with
    | .deleteDetected => "delete_detected"
    | .remoteStateUnknown => "remote_state_unknown"
    | .moved => "moved"
  | .remoteDelete e => e.stage.eventName
  | .purged _ => "purged"
  | _ => "manifest"

/-- What the audit entry of an event takes from the event itself: its account, key, event key,
message id and timestamp. -/
def ManifestEvent.audited :
    ManifestEvent → String × Option SourceItemKey × Option FetchKey × Option String × String
  | .state e => (e.accountId,some e.sourceItemKey,e.eventKey,e.messageId,e.timestamp)
  | .remoteDelete e => (e.accountId,none,e.eventKey,none,e.timestamp)
  | .purged e => (e.accountId,some e.sourceItemKey,none,none,e.timestamp)
  | _ => ("",none,none,none,"")

/-- The key under which the metadata of an audited message is looked up. -/
def auditKey (links : IdentityLinks) (event : ManifestEvent) (related : Option FetchEvent) :
    Except Error (Option SourceItemKey) := do
  let (accountId,sourceItemKey,key,_,_) := event.audited
  let own := sourceItemKey.bind fun k => if k = .legacy "" then none else some k
  let source ← match related with
    | some f =>
      match f.eventKey with
      | some fetchKey => (f.identityKey fetchKey).map some
      | none => .ok own
    | none => .ok own
  match source,key with
  | none,some key =>
    (resolveIdentityKey key.1 (.legacy (toString key.2.2.1 ++ ":" ++ toString key.2.2.2)) links).map
      some
  | some source,_ =>
    if accountId = "" then .ok (some source)
    else (resolveIdentityKey accountId source links).map some
  | none,none => .ok none

/-- `_audit_entry`: the event first, then the parsed EML, then the fetch. -/
def reindexAudit (event : ManifestEvent) (operation : String) (related : Option FetchEvent)
    (metadata : Option ParsedMetadata) : AuditEntry :=
  let (accountId,_,_,messageId,timestamp) := event.audited
  { occurredAt := timestamp
    operation := operation
    accountId := some accountId
    messageId := messageId.or ((metadata.bind fun m => m.messageId).or
      (related.bind fun f => f.messageId))
    subject := metadata.bind fun m => m.subject
    sizeBytes := (metadata.map fun m => m.sizeBytes).or (related.map fun f => f.sizeBytes)
    detail := "reconstructed from " ++ event.auditedName ++ " event" }

def writeAudit (links : IdentityLinks)
    (parsedMetadata : List ((String × SourceItemKey) × ParsedMetadata))
    (entry : ManifestEvent × String × Option FetchEvent) : App Unit := do
  let key ← Prog.ofExcept (auditKey links entry.1 entry.2.2)
  let accountId := entry.1.audited.1
  let metadata := if accountId = "" then none
    else key.bind fun key => parsedMetadata.lookup (accountId,key)
  writeRepo env (.recordAudit (reindexAudit entry.1 entry.2.1 entry.2.2 metadata))

/-! ## The use case -/

structure ReindexResult where
  accountCount : Nat := 0
  folderCount : Nat := 0
  messageCount : Nat := 0
  contentsCount : Nat := 0
  purgedCount : Nat := 0
  skippedCount : Nat := 0
  warnings : List String := []
  cancelled : Bool := false
deriving DecidableEq, Repr

/-- The events before a cancellation, and whether there was one. -/
def replayEvents : List ManifestEvent → Replay → App (Replay × Bool)
  | [],s => pure (s,false)
  | event :: rest,s => do
    let stop ← isCancelled env
    if stop then pure (s,true)
    else do
      let s ← Prog.ofExcept (replayEvent s event)
      replayEvents rest s

def reindex : App ReindexResult := do
  let w ← get
  let (s,stopped) ← replayEvents env w.manifest {}
  if stopped then pure { cancelled := true }
  else do
    let c ← Prog.ofExcept (canonicalize s)
    let warnings := s.snapshotWarnings
    let stop ← isCancelled env
    if stop then pure { warnings := warnings, cancelled := true }
    else do
      let (p,stopped) ← prepareFetches env s c s.validFetches { warnings := warnings }
      if stopped then pure { warnings := p.warnings, cancelled := true }
      else do
        let stop ← isCancelled env
        if stop then pure { warnings := p.warnings, cancelled := true }
        else do
          writeRows env s c p.messages
          s.auditEvents.forM (writeAudit env s.identityLinks p.parsedMetadata)
          pure
            { accountCount := s.accounts.length, folderCount := s.folders.length,
              messageCount := p.messages.length, contentsCount := p.contentsCount,
              purgedCount := p.purgedCount, skippedCount := p.skippedCount,
              warnings := p.warnings ++ c.purgeEvents.filterMap fun entry =>
                if entry.1 ∈ c.completedPurges then none
                else some ("incomplete purge intent: " ++ entry.1.2.1.text) }

end

end MailDock
