import MailDock.App.World

/-!
# Fetched messages and the batches that make them durable

The first half of `sync_mail.py`: the records and events of one message, how a
message reference becomes a pending item, and `commit_pending`, which writes a
batch of pending items to the manifest and then to the database.
-/

namespace MailDock

open Hoare

structure SyncOptions where
  maxMessageBytes : Nat := 50 * 1024 * 1024
  flagRefreshEnabled : Bool := true
  flagRefreshWindowDays : Nat := 30
  flagRefreshMinIntervalSeconds : Nat := 3600
deriving DecidableEq, Repr

def modifySession (f : SyncSession → SyncSession) : App Unit :=
  modify fun w => { w with session := f w.session }

def dateIso (value : Option DateTime) : Option String := value.map toUtcIso8601

/-- `_message_contents`; the text of a message that could not be parsed is empty. -/
def messageContents (parsed : ParsedMessage) (empty : Bool) : MessageContents :=
  if empty then ⟨some "",some "",some "",some ""⟩
  else
    let names := parsed.attachments.filterMap fun a => if a.isInline then none else a.filename
    ⟨some parsed.subject,some parsed.sender,some parsed.bodyText,some ("\n".intercalate names)⟩

/-! Membership snapshots. -/

/-- The membership columns of a record, as a row without a folder name. -/
def MessageRecord.toMembershipRow (r : MessageRecord) : MembershipRow :=
  ⟨r.toMembership 0,"",none⟩

/-- Assignment to the dict of memberships, whose key is the folder. -/
def putMembershipRow (rows : List MembershipRow) (row : MembershipRow) : List MembershipRow :=
  if rows.any fun r => r.membership.folderId == row.membership.folderId then
    rows.map fun r => if r.membership.folderId = row.membership.folderId then row else r
  else rows ++ [row]

def snapshotRows (rows : List MembershipRow) (record : MessageRecord) (removeFolderId : Option Nat)
    (additionalRecords : List MessageRecord) : List MembershipRow :=
  let base := match removeFolderId with
    | some folderId => rows.filter fun r => r.membership.folderId ≠ folderId
    | none => putMembershipRow rows record.toMembershipRow
  additionalRecords.foldl (fun rows r => putMembershipRow rows r.toMembershipRow) base

def snapshotEntries (folders : List Folder) (rows : List MembershipRow) : List MembershipEntry :=
  let nameOf := fun id : Nat => (folders.find? fun f => f.id == id).map fun f => f.rawName
  (rows.insertionSort fun a b => (nameOf a.membership.folderId).getD "" ≤
    (nameOf b.membership.folderId).getD "").map fun r =>
      { folderRawName := (nameOf r.membership.folderId).getD r.folderRawName
        uid := r.membership.uid
        uidvalidity := r.membership.uidvalidity
        remoteState := r.membership.remoteState
        movedToFolderRawName := r.membership.movedToFolderId.bind nameOf
        imapFlags := r.membership.imapFlags
        flagsSeenAt := r.membership.flagsSeenAt
        lastSeenAt := r.membership.lastSeenAt }

/-- The records of each source key, in the order in which the keys first occur. -/
def recordsByKey (records : List MessageRecord) : List (List MessageRecord) :=
  (Relational.distinct (records.map fun r => r.sourceItemKey)).map fun key =>
    records.filter fun r => r.sourceItemKey == key

section
variable (env : Env) (accountId : String)

def membershipSnapshotEvent (record : MessageRecord) (removeFolderId : Option Nat)
    (additionalRecords : List MessageRecord) : App ManifestEvent := do
  let folders ← queryRepo env fun t => t.listFolders accountId
  let rows ← queryRepo env fun t => t.listMessageMemberships accountId record.sourceItemKey
  let now ← nowIso env
  pure (.membershipSnapshot ⟨accountId,record.sourceItemKey,
    snapshotEntries folders (snapshotRows rows record removeFolderId additionalRecords),
    record.gmailLabels,now⟩)

/-- One snapshot for each source key of the records. -/
def appendSnapshots (records : List MessageRecord) : App Unit :=
  (recordsByKey records).forM fun group =>
    match group with
    | [] => pure ()
    | record :: additional => do
      let snapshot ← membershipSnapshotEvent env accountId record none additional
      appendManifest env snapshot

/-! Records and events of one message. -/

def fetchEvent (folderRawName : String) (folderId uidvalidity : Nat) (ref : RemoteMessageRef)
    (parsed : ParsedMessage) (stored : StoredEml) (gmailMsgid gmailThrid : Option Nat)
    (gmailLabels : Option (List String)) : App FetchEvent := do
  let key ← Prog.ofExcept (remoteSourceItemKey folderRawName uidvalidity ref.uid gmailMsgid)
  let now ← nowIso env
  pure
    { accountId := accountId, folderId := folderId, folderRawName := folderRawName, uid := ref.uid,
      uidvalidity := uidvalidity, sourceItemKey := key,
      messageId := orText parsed.messageId ref.messageId, relativePath := stored.relativePath,
      fileHash := stored.fileHash, sizeBytes := stored.sizeBytes,
      internalDate := dateIso ref.internalDate, timestamp := now,
      deduplicated := stored.deduplicated, gmailMsgid := gmailMsgid, gmailThrid := gmailThrid,
      gmailLabels := gmailLabels }

def skippedEvent (folderRawName : String) (folderId uidvalidity : Nat) (ref : RemoteMessageRef)
    (sizeBytes : Nat) : App ManifestEvent := do
  let now ← nowIso env
  pure (.fetchSkipped ⟨accountId,folderId,folderRawName,ref.uid,uidvalidity,sizeBytes,"oversize",
    now⟩)

def recordForMessage (folderRawName : String) (folderId uidvalidity : Nat)
    (ref : RemoteMessageRef) (parsed : ParsedMessage) (stored : Option StoredEml)
    (sizeBytes : Nat) : App MessageRecord := do
  let key ← Prog.ofExcept (remoteSourceItemKey folderRawName uidvalidity ref.uid ref.gmailMsgid)
  let flagsSeenAt ← nowIso env
  let lastSeenAt ← nowIso env
  let fallback := match stored with
    | some eml => "sha256:" ++ emlStem eml.fileHash
    | none => "uid:" ++ toString uidvalidity ++ ":" ++ toString ref.uid
  pure
    { accountId := accountId
      folderId := folderId
      messageId := orText parsed.messageId ref.messageId
      contentKey := (orText parsed.contentKey none).getD fallback
      sourceItemKey := key
      uid := some ref.uid
      uidvalidity := some uidvalidity
      relativePath := stored.map fun eml => eml.relativePath
      fileHash := stored.map fun eml => eml.fileHash
      envelope :=
        { subject := parsed.subject, sender := parsed.sender, recipient := parsed.recipient,
          cc := parsed.cc, dateSent := dateIso parsed.dateSent,
          internalDate := dateIso ref.internalDate, hasAttachment := parsed.hasAttachment,
          inReplyTo := parsed.inReplyTo, referencesIds := parsed.referencesIds,
          threadKey := parsed.threadKey }
      sizeBytes := some sizeBytes
      imapFlags := some (" ".intercalate ref.flags)
      flagsSeenAt := some flagsSeenAt
      lastSeenAt := some lastSeenAt
      gmailMsgid := ref.gmailMsgid
      gmailThrid := ref.gmailThrid
      gmailLabels := ref.gmailLabels }

/-! From a reference to a pending item. -/

/-- The EML of a downloaded message: one the database knows, if it is intact, or a new file. -/
def storeEml (internalDate : Option DateTime) (raw : Bytes) : App StoredEml := do
  let existing ← queryRepo env fun t => t.findStoredEml accountId (env.sha256 raw)
  let reused ← (match existing with
    | some eml => reuseEml env eml.relativePath (env.sha256 raw)
    | none => pure none : App (Option StoredEml))
  match reused with
  | some stored => pure stored
  | none => saveEml env accountId internalDate raw

/-- The item of a message above the size limit: a row without EML, and a failure. -/
def oversizeItem (folderRawName : String) (folderId uidvalidity : Nat) (ref : RemoteMessageRef)
    (content : Bytes) (sizeBytes : Nat) : App PendingItem := do
  let record ← recordForMessage env accountId folderRawName folderId uidvalidity ref
    (env.parse content ref.internalDate) none sizeBytes
  modifySession fun s => { s with
    fetchedCount := s.fetchedCount + 1
    skippedCount := s.skippedCount + 1
    failedCount := s.failedCount + 1 }
  let event ← skippedEvent env accountId folderRawName folderId uidvalidity ref sizeBytes
  pure
    { uid := ref.uid, event := some event, record := some record,
      failure := some (uidvalidity,.oversize,"message exceeds configured size limit"),
      transferredBytes := content.length }

/-- The item of a message within the size limit. -/
def storedItem (folderRawName : String) (folderId uidvalidity : Nat) (ref : RemoteMessageRef)
    (raw : Bytes) : App PendingItem := do
  let stored ← storeEml env accountId ref.internalDate raw
  let parsed := env.parse raw ref.internalDate
  let record ← recordForMessage env accountId folderRawName folderId uidvalidity ref parsed
    (some stored) raw.length
  let parseFailed := parsed.parseError.isSome
  modifySession fun s => { s with
    failedCount := s.failedCount + (if parseFailed then 1 else 0)
    fetchedCount := s.fetchedCount + 1 }
  let event ← fetchEvent env accountId folderRawName folderId uidvalidity ref parsed stored
    ref.gmailMsgid ref.gmailThrid ref.gmailLabels
  pure
    { uid := ref.uid, event := some (.fetch event), record := some record,
      contents := some (messageContents parsed parseFailed),
      failure := if parseFailed then
        some (uidvalidity,.parse,(orText parsed.parseError none).getD "message parsing failed")
        else none
      clearFailure := !parseFailed, transferredBytes := raw.length }

def makeItem (options : SyncOptions) (folderRawName : String) (folderId uidvalidity : Nat)
    (ref : RemoteMessageRef) : App PendingItem := do
  modifySession fun s => { s with estimatedBytes := s.estimatedBytes + ref.sizeBytes.getD 0 }
  if options.maxMessageBytes < ref.sizeBytes.getD 0 then
    let headers ← withRetry env (downloadEmlHeaders env folderRawName ref.uid) 3
    let item ← oversizeItem env accountId folderRawName folderId uidvalidity ref headers
      (ref.sizeBytes.getD 0)
    modifySession fun s => { s with transferredBytes := s.transferredBytes + headers.length }
    pure item
  else
    let raw ← withRetry env (downloadEmlBytes env folderRawName ref.uid) 3
    modifySession fun s => { s with
      transferredBytes := s.transferredBytes + raw.length
      estimatedBytes := s.estimatedBytes + (if ref.sizeBytes.isNone then raw.length else 0) }
    if options.maxMessageBytes < raw.length then
      oversizeItem env accountId folderRawName folderId uidvalidity ref raw raw.length
    else storedItem env accountId folderRawName folderId uidvalidity ref raw

def recordFetchFailure (uid uidvalidity : Nat) (e : Error) : PendingItem :=
  let errorClass := if e.isAuthentication then .auth else if e.isTransient then .transient
    else .permanent
  { uid := uid, failure := some (uidvalidity,errorClass,e.message) }

/-- A failure item carries the folder it is recorded for. -/
def PendingItem.inFolder (item : PendingItem) (folderId : Nat) : PendingItem :=
  if item.failure.isSome then { item with failureFolderId := some folderId } else item

def World.pended (w : World) (item : PendingItem) : World :=
  { w with session := { w.session with pending := w.session.pending ++ [item] } }

/-- A failed message becomes a failure item; authentication failures, cancellations and
database errors are raised. -/
def processRef (options : SyncOptions) (folderRawName : String) (folderId uidvalidity : Nat)
    (ref : RemoteMessageRef) : App Unit := do
  raiseIfCancelled env
  let item ← tryCatch (do
    let item ← makeItem env accountId options folderRawName folderId uidvalidity ref
    pure (item.inFolder folderId))
    fun e =>
      if e.isAuthentication then throw e
      else if e.isFetchError || e.isStorageError then do
        modifySession fun s => { s with failedCount := s.failedCount + 1 }
        pure ((recordFetchFailure ref.uid uidvalidity e).inFolder folderId)
      else throw e
  modify fun w => w.pended item

/-! The durable batch. -/

/-- The cursor columns a batch updates. -/
structure CursorUpdate where
  folderId : Nat
  lastSeenUid : Option Nat := none
  backfillNextUid : Option Nat := none
  initialSyncCompleted : Option Bool := none
deriving DecidableEq, Repr

/-- The record of an item that was fetched with its EML. -/
def PendingItem.fetchedRecord (item : PendingItem) : Option MessageRecord :=
  match item.event with
  | some (.fetch _) => item.record
  | _ => none

/-- A Gmail message is also known under the IMAP key of the place it was fetched from. -/
def gmailAlias (event : FetchEvent) (record : MessageRecord) :
    Except Error (Option (SourceItemKey × String)) :=
  match record.gmailMsgid,record.uidvalidity,record.uid,record.fileHash with
  | some _,some uidvalidity,some uid,some fileHash => do
    let aliasKey ← imapSourceItemKey event.folderRawName uidvalidity uid
    if aliasKey = record.sourceItemKey then .ok none else .ok (some (aliasKey,fileHash))
  | _,_,_,_ => .ok none

/-- Append the event of one item, with its identity link; the links found so far
are pairs of a canonical key and an alias. -/
def appendItem (links : List (SourceItemKey × SourceItemKey)) (item : PendingItem) :
    App (List (SourceItemKey × SourceItemKey)) := do
  match item.event,item.record with
  | none,_ => pure links
  | some (.fetch event),some record => do
    appendManifest env (.fetch event)
    let found ← Prog.ofExcept (gmailAlias event record)
    match found with
    | none => pure links
    | some (aliasKey,fileHash) => do
      let now ← nowIso env
      appendManifest env (.identityLinked
        ⟨accountId,record.sourceItemKey,aliasKey,.gmailMsgid,fileHash,now⟩)
      pure (links ++ [(record.sourceItemKey,aliasKey)])
  | some event,_ => do
    appendManifest env event
    pure links

def writeItem (links : List (SourceItemKey × SourceItemKey)) (item : PendingItem) :
    App Unit := do
  (match item.record with
    | some record => do
      let messageId ← addMessage env record item.contents
      modifySession fun s => { s with
        knownMessages := ((record.folderId,record.uidvalidity.getD 0,record.uid.getD 0),
          ⟨messageId,record⟩) :: s.knownMessages }
      (links.filter fun l => l.1 == record.sourceItemKey).forM fun l =>
        writeRepo env (.addMessageIdentityAlias accountId l.2 messageId .gmailMsgid)
    | none => pure () : App Unit)
  match item.failure,item.record with
  | some (uidvalidity,errorClass,message),_ =>
    writeRepo env (.recordFailure accountId (item.failureFolderId.getD 0) uidvalidity item.uid
      errorClass message)
  | none,some record =>
    if item.clearFailure then
      writeRepo env (.clearFailure accountId record.folderId (record.uidvalidity.getD 0) item.uid)
    else pure ()
  | none,none => pure ()

def writeCursor (cursor : Option CursorUpdate) : App Unit :=
  match cursor with
  | some c => writeRepo env (.updateSyncCursors c.folderId c.lastSeenUid c.backfillNextUid
      c.initialSyncCompleted)
  | none => pure ()

/-- The manifest half of a batch: events, identity links and snapshots, then one flush. -/
def appendPending (pending : List PendingItem) : App (List (SourceItemKey × SourceItemKey)) := do
  let links ← pending.foldlM (appendItem env accountId) []
  appendSnapshots env accountId (pending.filterMap PendingItem.fetchedRecord)
  flushAndSync env
  pure links

/-- The database half of a batch. -/
def writePending (pending : List PendingItem) (links : List (SourceItemKey × SourceItemKey))
    (cursor : Option CursorUpdate) : App Unit := do
  beginBatch env
  pending.forM (writeItem env accountId links)
  writeCursor env cursor
  commitBatch env

/-- `manifest.checkpoint`, after every tenth of which the database is checkpointed too. -/
def checkpointBatch : App Unit := do
  modifySession fun s => { s with
    pending := []
    checkpointSequence := s.checkpointSequence + 1 }
  let t ← nextTick
  let w ← get
  checkpointManifest env accountId w.session.checkpointSequence (env.uuid t)
  if w.session.checkpointSequence % 10 = 0 then repoCall env else pure ()

def commitPending (cursor : Option CursorUpdate) : App Unit := do
  let w ← get
  if w.session.pending.isEmpty && cursor.isNone then pure ()
  else
    let links ← appendPending env accountId w.session.pending
    writePending env accountId w.session.pending links cursor
    checkpointBatch env accountId

end

end MailDock
