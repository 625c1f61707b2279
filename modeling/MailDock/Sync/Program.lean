import MailDock.Sync.Flags

/-!
# Synchronisation of an account

The second half of `sync_mail.py`: the ranges of UIDs a folder is scanned in, the
two cursors, the detection of deleted and moved messages, `sync_account` itself
and `force_fetch_message`.
-/

namespace MailDock

open Hoare

/-- `pending` has reached one of the limits of a batch. -/
def batchIsFull (pending : List PendingItem) : Bool :=
  100 ≤ pending.length || 50 * 1024 * 1024 ≤ (pending.map fun item => item.transferredBytes).sum

/-- The cursor of a folder after the UIDs down to `minimumSeen` are done. -/
def historyCursor (folderId minimumSeen : Nat) : CursorUpdate :=
  { folderId := folderId, backfillNextUid := some (minimumSeen - 1),
    initialSyncCompleted := some (minimumSeen - 1 == 0) }

def markAttempted (uid : Nat) : App Unit :=
  modifySession fun s => { s with attempted := uid :: s.attempted }

/-- The local variables `last_seen_uid`, `backfill_next_uid` and `initial_completed`. -/
structure FolderCursors where
  lastSeenUid : Nat
  backfillNextUid : Nat
  initialCompleted : Bool
deriving DecidableEq, Repr

def folderSnapshotEvent (accountId : String) (folder : Folder) (uidvalidity : Nat)
    (timestamp : String) : ManifestEvent :=
  .folderSnapshot
    { accountId := accountId, folderRawName := folder.rawName, displayName := folder.displayName,
      uidvalidity := some uidvalidity, delimiter := none, isSyncTarget := folder.isSyncTarget,
      timestamp := timestamp }

section
variable (env : Env) (accountId : String)

/-- One item of an `iter_message_refs` iterator, of whose range `minUid … maxUid` is left. -/
def nextRef (folderRawName : String) (minUid maxUid : Nat) : App (Option RemoteMessageRef) := do
  let t ← nextTick
  raiseFault (env.fetchFault t)
  pure (env.nextRef t folderRawName minUid maxUid)

section
variable (options : SyncOptions) (folder : Folder) (uidvalidity : Nat)

/-! Ranges of UIDs. -/

def commitIfFull (cursor : Option CursorUpdate) : App Bool := do
  let w ← get
  if batchIsFull w.session.pending then
    commitPending env accountId cursor
    pure true
  else pure false

def retryFailure (failure : SyncFailure) : App Unit := do
  let ref ← nextRef env folder.rawName failure.uid failure.uid
  match ref with
  | none => pure ()
  | some ref =>
    markAttempted failure.uid
    if failure.errorClass = .oversize && ref.sizeBytes.any (options.maxMessageBytes < ·) then
      pure ()
    else
      processRef env accountId options folder.rawName folder.id uidvalidity ref
      let _ ← commitIfFull env accountId none
      pure ()

def retryPendingFailures : App Unit := do
  let failures ← queryRepo env fun t => t.pendingFailures accountId folder.id uidvalidity
  failures.forM (retryFailure env accountId options folder uidvalidity)

/-- One reference of a range; the result is the new `minimum_seen`. -/
def processRangeRef (history : Bool) (ref : RemoteMessageRef) (minimumSeen : Option Nat) :
    App (Option Nat) := do
  let w ← get
  if w.session.attempted.contains ref.uid then pure minimumSeen
  else
    markAttempted ref.uid
    processRef env accountId options folder.rawName folder.id uidvalidity ref
    let seen := minimumSeen.elim ref.uid (min · ref.uid)
    let committed ← commitIfFull env accountId
      (if history then some (historyCursor folder.id seen) else none)
    pure (if committed && history then none else some seen)

def processRefs (history : Bool) (minUid : Nat) :
    (limit maxUid : Nat) → Option Nat → App (Option Nat)
  | 0,_,minimumSeen => pure minimumSeen
  | limit + 1,maxUid,minimumSeen => do
    let ref ← nextRef env folder.rawName minUid maxUid
    match ref with
    | none => pure minimumSeen
    | some ref =>
      let minimumSeen ← processRangeRef env accountId options folder uidvalidity history ref
        minimumSeen
      processRefs history minUid limit (ref.uid - 1) minimumSeen

def processRange (history : Bool) (minUid maxUid : Nat) : App (Option Nat) := do
  let t ← nextTick
  processRefs env accountId options folder uidvalidity history minUid
    (maxUid + 1 - minUid + env.extraRefs t) maxUid none

/-! One folder. -/

/-- The cursors a folder starts with; a new UIDVALIDITY starts them afresh. -/
def openCursors : App FolderCursors := do
  if folder.uidvalidity ≠ some uidvalidity then
    let maxUid ← getMaxUid env folder.rawName
    beginBatch env
    writeRepo env (.initializeSyncCursors folder.id uidvalidity maxUid)
    commitBatch env
    let now ← timestamp env
    appendManifest env (folderSnapshotEvent accountId folder uidvalidity now)
    flushAndSync env
    pure ⟨maxUid,maxUid,maxUid == 0⟩
  else match folder.backfillNextUid with
  | some next => pure ⟨folder.lastSeenUid,next,folder.initialSyncCompleted⟩
  | none => do
    let maxUid ← getMaxUid env folder.rawName
    beginBatch env
    writeRepo env (.updateSyncCursors folder.id none (some maxUid)
      (some folder.initialSyncCompleted))
    commitBatch env
    pure ⟨folder.lastSeenUid,maxUid,folder.initialSyncCompleted⟩

/-- Fetch the messages above `lastSeenUid` and move it up; the result is its new value. -/
def scanNew (lastSeenUid : Nat) : App Nat := do
  let maxUid ← getMaxUid env folder.rawName
  if lastSeenUid < maxUid then
    let _ ← processRange env accountId options folder uidvalidity false (lastSeenUid + 1) maxUid
    commitPending env accountId (some { folderId := folder.id, lastSeenUid := some maxUid })
    pure maxUid
  else pure lastSeenUid

/-- The last commit of a history scan; without anything left to commit the range was empty. -/
def commitHistory (minimumSeen : Option Nat) : App Unit := do
  let w ← get
  if w.session.pending.isEmpty then
    if minimumSeen.isNone then
      beginBatch env
      writeRepo env (.updateSyncCursors folder.id none (some 0) (some true))
      commitBatch env
    else pure ()
  else
    let next := minimumSeen.elim 0 (· - 1)
    commitPending env accountId (some
      { folderId := folder.id, backfillNextUid := some next,
        initialSyncCompleted := some (next == 0) })

/-- Fetch the history down from `limit`; the result is the new `initial_completed`. -/
def scanHistory (limit : Nat) : App Bool := do
  let minimumSeen ← processRange env accountId options folder uidvalidity true 1 limit
  commitHistory env accountId folder minimumSeen
  pure (minimumSeen.elim 0 (· - 1) == 0)

/-- The body of the `try` of `sync_folder`. -/
def scanFolder (google : Bool) (cursors : FolderCursors) : App Bool := do
  retryPendingFailures env accountId options folder uidvalidity
  let lastSeenUid ← scanNew env accountId options folder uidvalidity cursors.lastSeenUid
  let completed ←
    (if !cursors.initialCompleted && 0 < cursors.backfillNextUid then
      scanHistory env accountId options folder uidvalidity cursors.backfillNextUid
    else pure cursors.initialCompleted : App Bool)
  let _ ← scanNew env accountId options folder uidvalidity lastSeenUid
  commitPending env accountId none
  tryCatch (refreshFlags env accountId google options folder uidvalidity completed) fun e =>
    if e.isAuthentication || e.isCancelled then throw e
    else if e.isFetchError then pure ()
    else throw e
  pure false

end

/-- The result says whether the run was cancelled. -/
def syncFolder (google : Bool) (options : SyncOptions) (folder : Folder) : App Bool := do
  let uidvalidity ← selectFolder env folder.rawName
  modifySession fun s => { s with selected := (folder.id,uidvalidity) :: s.selected }
  let cursors ← openCursors env accountId folder uidvalidity
  modifySession fun s => { s with pending := [], attempted := [] }
  tryCatch (scanFolder env accountId options folder uidvalidity google cursors) fun e =>
    if e.isCancelled then do
      commitPending env accountId none
      pure true
    else if e.isAuthentication then do
      commitPending env accountId none
      throw e
    else throw e

/-- Scan the folders in turn; the result is the ids of those that were scanned to
the end, or nothing when the run was cancelled. -/
def syncFolders (google : Bool) (options : SyncOptions) :
    List Folder → List Nat → App (Option (List Nat))
  | [],scanned => pure (some scanned)
  | folder :: rest,scanned => do
    let result ← outcome (syncFolder env accountId google options folder)
    match result with
    | .ok true => pure none
    | .ok false => syncFolders google options rest (folder.id :: scanned)
    | .error e =>
      if e.isAuthentication then throw e
      else if e.isFetchError then syncFolders google options rest scanned
      else throw e

/-! Detection of deleted and moved messages. -/

/-- `_MoveStateEvent`. -/
structure MoveStateEvent where
  messageId : Nat
  folderId : Nat
  movedTo : Option Nat
  event : StateEvent
  record : MessageRecord
  removeMembership : Bool
  mergeCandidate : Option LocalMessage := none
deriving DecidableEq, Repr

/-- What the detection pass knows about the run before it. -/
structure Detection where
  google : Bool
  targets : List Folder
  scanned : List Nat
deriving DecidableEq, Repr

def Detection.targetName (d : Detection) (folderId : Nat) : Option String :=
  (d.targets.find? fun f => f.id == folderId).map fun f => f.rawName

/-- The candidates of a move that were freshly fetched into a folder scanned to the end. -/
def Detection.mergeable (d : Detection) (known : List ((Nat × Nat × Nat) × LocalMessage))
    (candidates : List LocalMessage) : List LocalMessage :=
  candidates.filter fun c =>
    d.scanned.contains c.record.folderId && known.any fun k =>
      some k.1 == match c.record.uidvalidity,c.record.uid with
        | some v,some u => some (c.record.folderId,v,u)
        | _,_ => none

/-- The message that a missing one may be merged with. -/
def Detection.mergeCandidate (d : Detection) (known : List ((Nat × Nat × Nat) × LocalMessage))
    (folderId : Nat) (fileHash : Option String) (candidates : List LocalMessage) :
    Option LocalMessage :=
  if !d.google && fileHash.isSome && d.scanned.contains folderId then
    match d.mergeable known candidates with
    | [c] => some c
    | _ => none
  else none

def Detection.kind (d : Detection) (merge : Option LocalMessage) (fileHash : Option String)
    (candidates : List LocalMessage) : StateEventKind :=
  if merge.isSome then .moved
  else if d.google || (candidates.isEmpty && fileHash.isSome) then .deleteDetected
  else .remoteStateUnknown

def Detection.stateEvent (d : Detection) (folder : Folder) (uidvalidity uid : Nat)
    (known : List ((Nat × Nat × Nat) × LocalMessage)) (found : LocalMessage)
    (candidates : List LocalMessage) (now : String) : MoveStateEvent :=
  let merge := d.mergeCandidate known folder.id found.record.fileHash candidates
  { messageId := found.messageId
    folderId := folder.id
    movedTo := merge.map fun c => c.record.folderId
    event :=
      { kind := d.kind merge found.record.fileHash candidates
        accountId := accountId
        folderRawName := folder.rawName
        uid := uid
        uidvalidity := uidvalidity
        sourceItemKey := found.record.sourceItemKey
        messageId := found.record.messageId
        contentKey := found.record.contentKey
        fileHash := found.record.fileHash
        timestamp := now
        movedToFolderRawName := merge.bind fun c => d.targetName c.record.folderId }
    record := found.record
    removeMembership := d.google
    mergeCandidate := merge }

/-- `_get_local_message`. -/
def getLocalMessage (folderId uidvalidity uid : Nat) : App (Option LocalMessage) := do
  let row ← queryRepo env fun t => t.getMessageByUid accountId folderId uidvalidity uid
  pure (row.map fun r => ⟨r.1.id,r.1.toRecord r.2⟩)

def moveCandidates (folderId : Nat) (record : MessageRecord) : App (List LocalMessage) :=
  match record.fileHash with
  | none => pure []
  | some fileHash => queryRepo env fun t =>
    (t.findMoveCandidates accountId record.contentKey fileHash folderId).map fun r =>
      ⟨r.1.id,r.1.toRecord r.2⟩

/-- The outcome for one UID the server no longer has. -/
def detectMissing (d : Detection) (folder : Folder) (uidvalidity : Nat)
    (events : List MoveStateEvent) (uid : Nat) : App (List MoveStateEvent) := do
  let w ← get
  let found ← (match w.session.knownMessages.lookup (folder.id,uidvalidity,uid) with
    | some known => pure (some known)
    | none => getLocalMessage env accountId folder.id uidvalidity uid : App (Option LocalMessage))
  match found with
  | none => pure events
  | some found =>
    let candidates ← moveCandidates env accountId folder.id found.record
    let now ← nowIso env
    pure (events ++ [d.stateEvent accountId folder uidvalidity uid w.session.knownMessages found
      candidates now])

/-- The record of a message that was moved, as its snapshot shows it. -/
def MoveStateEvent.movedRecord (item : MoveStateEvent) : MessageRecord :=
  { item.record with remoteState := .moved, movedToFolderId := item.movedTo }

def appendStateSnapshot (item : MoveStateEvent) : App Unit := do
  if item.removeMembership then
    let snapshot ← membershipSnapshotEvent env accountId item.record (some item.folderId) []
    appendManifest env snapshot
  else match item.mergeCandidate with
  | none => pure ()
  | some candidate => do
    let now ← nowIso env
    appendManifest env (.identityLinked ⟨accountId,item.record.sourceItemKey,
      candidate.record.sourceItemKey,.fileHashMove,candidate.record.fileHash.getD "",now⟩)
    let snapshot ← membershipSnapshotEvent env accountId item.movedRecord none [candidate.record]
    appendManifest env snapshot

def StateEventKind.remoteState : StateEventKind → RemoteState
  | .deleteDetected => .deleted
  | .remoteStateUnknown => .unknown
  | .moved => .moved

def writeStateEvent (item : MoveStateEvent) : App Unit := do
  if item.removeMembership then
    let rows ← queryRepo env fun t => t.listMessageMemberships accountId item.event.sourceItemKey
    writeRepo env (.replaceMessageMemberships item.messageId
      ((rows.filter fun r => r.membership.folderId ≠ item.folderId).map
        fun r => r.membership.toRecord))
  else match item.mergeCandidate with
  | some candidate => do
    writeRepo env (.mergeDuplicateMessage accountId item.messageId candidate.messageId)
    writeRepo env (.updateRemoteState item.messageId .moved item.movedTo (some item.folderId))
  | none =>
    writeRepo env (.updateRemoteState item.messageId item.event.kind.remoteState item.movedTo
      (some item.folderId))

/-- Make the outcomes of one folder durable, the manifest before the database. -/
def commitStateEvents (events : List MoveStateEvent) : App Unit := do
  if events.isEmpty then pure ()
  else
    events.forM fun item => appendManifest env (.state item.event)
    events.forM (appendStateSnapshot env accountId)
    flushAndSync env
    beginBatch env
    events.forM (writeStateEvent env accountId)
    commitBatch env

/-- The local UIDs of a folder that are not among the server's. -/
def missingUids (t : Tables) (folderId uidvalidity : Nat) (remoteUids : List Nat) : List Nat :=
  ((t.localUids accountId folderId uidvalidity).filter fun uid => !remoteUids.contains uid).insertionSort
    (· ≤ ·)

def detectFolder (d : Detection) (folder : Folder) : App Unit := do
  let w ← get
  let uidvalidity := (w.session.selected.lookup folder.id).getD (folder.uidvalidity.getD 0)
  let answer ← outcome (listExistingUids env folder.rawName)
  match answer with
  | .error e => if e.isFetchError then pure () else throw e
  | .ok remoteUids =>
    let missing ← queryRepo env fun t => missingUids accountId t folder.id uidvalidity remoteUids
    let events ← missing.foldlM (detectMissing env accountId d folder uidvalidity) []
    commitStateEvents env accountId events

/-! The use cases. -/

structure SyncResult where
  fetchedCount : Nat
  transferredBytes : Nat
  skippedCount : Nat
  failedCount : Nat
  cancelled : Bool
deriving DecidableEq, Repr

def syncResult (cancelled : Bool) : App SyncResult := do
  let w ← get
  pure ⟨w.session.fetchedCount,w.session.transferredBytes,w.session.skippedCount,
    w.session.failedCount,cancelled⟩

/-- The folders are scanned, and unless the run was cancelled every target is
then searched for messages that are gone. -/
def syncTargets (options : SyncOptions) (google : Bool) (targets : List Folder) :
    App SyncResult := do
  let scanned ← syncFolders env accountId google options targets []
  match scanned with
  | none => syncResult true
  | some scanned =>
    (if google then pure () else repoCall env : App Unit)
    targets.forM (detectFolder env accountId ⟨google,targets,scanned⟩)
    syncResult false

def isGoogleAccount (accounts : List Account) : Bool :=
  accounts.any fun a => a.id == accountId && a.oauthProvider == some "google"

def syncAccount (options : SyncOptions) : App SyncResult := do
  ensureImapAccount env accountId
  let accounts ← queryRepo env Tables.listAccounts
  let targets ← queryRepo env fun t => t.listSyncTargets accountId
  modify fun w => { w with session :=
    { checkpointSequence := w.lastCheckpointSequence.getD 0 } }
  syncTargets env accountId options (isGoogleAccount accountId accounts) targets

/-- `force_fetch_message`: one message, whatever its size. -/
def forceFetchMessage (folderRawName : String) (folderId uidvalidity uid : Nat) :
    App SyncResult := do
  raiseIfCancelled env
  let current ← selectFolder env folderRawName
  if current ≠ uidvalidity then
    throw ⟨.permanent,"message UIDVALIDITY has changed; run synchronization again"⟩
  else
    let ref ← nextRef env folderRawName uid uid
    match ref with
    | none => throw ⟨.permanent,"message no longer exists on the server"⟩
    | some ref =>
      let raw ← withRetry env (downloadEmlBytes env folderRawName uid) 3
      raiseIfCancelled env
      let stored ← storeEml env accountId ref.internalDate raw
      let parsed := env.parse raw ref.internalDate
      let record ← recordForMessage env accountId folderRawName folderId uidvalidity ref parsed
        (some stored) raw.length
      let parseFailed := parsed.parseError.isSome
      -- the Gmail ids of the reference are not handed on here
      let event ← fetchEvent env accountId folderRawName folderId uidvalidity ref parsed stored
        none none none
      appendManifest env (.fetch event)
      flushAndSync env
      beginBatch env
      let _ ← addMessage env record (some (messageContents parsed parseFailed))
      writeRepo env (if parseFailed then
          .recordFailure accountId folderId uidvalidity uid .parse
            ((orText parsed.parseError none).getD "message parsing failed")
        else .clearFailure accountId folderId uidvalidity uid)
      commitBatch env
      let t ← nextTick
      let w ← get
      checkpointManifest env accountId (w.lastCheckpointSequence.getD 0 + 1) (env.uuid t)
      pure ⟨1,raw.length,0,if parseFailed then 1 else 0,false⟩

end

end MailDock
