import MailDock.App.World

/-!
# Remote deletion

The delete operations of `generic_imap.py` and the use case `execute` of
`delete_remote.py`.
-/

namespace MailDock

open Hoare

section
variable (env : Env)

/-! The fetcher. -/

/-- `_select_folder_for_delete`: the UIDVALIDITY is compared only when one is expected. -/
def selectFolderForDelete (folderRawName : String) (expectedUidvalidity : Option Nat) :
    App Unit := do
  let t ← imapCommand env (.select folderRawName)
  match expectedUidvalidity with
  | none => pure ()
  | some expected =>
    if env.uidvalidity t folderRawName = expected then
      emit (.uidvalidityMatched folderRawName expected)
    else throw ⟨.uidValidityChanged,"UIDVALIDITY changed for folder " ++ folderRawName⟩

def findTrashFolder : App (Option String) := do
  let t ← imapCommand env .list
  pure (env.trashFolder t)

def expungeSelectedUid (folderRawName : String) (uid : Nat) : App Unit := do
  if env.supportsUidExpunge then
    let _ ← imapCommand env (.storeDeleted folderRawName uid)
    let _ ← imapCommand env (.expunge folderRawName uid)
    pure ()
  else throw ⟨.permanent,"UID EXPUNGE is not supported by this IMAP server"⟩

def moveRemoteMessageToTrash (folderRawName : String) (uid : Nat)
    (expectedUidvalidity : Option Nat) : App (Option RemoteMoveResult) := do
  selectFolderForDelete env folderRawName expectedUidvalidity
  let trash ← findTrashFolder env
  match trash with
  | none => throw ⟨.permanent,"could not identify the remote trash folder"⟩
  | some _ =>
    if env.supportsMove then
      let t ← imapCommand env (.move folderRawName uid)
      pure (env.copyuid t)
    else if env.supportsUidExpunge then
      let t ← imapCommand env (.copy folderRawName uid)
      expungeSelectedUid env folderRawName uid
      pure (env.copyuid t)
    else throw ⟨.permanent,
      "UID EXPUNGE is required when MOVE is not supported by this IMAP server"⟩

def expungeRemoteMessage (folderRawName : String) (uid : Nat)
    (expectedUidvalidity : Option Nat) : App Unit := do
  if env.googleFetcher then throw ⟨.permanent,"Gmail accounts do not support remote expunge"⟩
  else
    selectFolderForDelete env folderRawName expectedUidvalidity
    expungeSelectedUid env folderRawName uid

def removeRemoteMembership (folderRawName : String) (uid : Nat)
    (expectedUidvalidity : Option Nat) : App Unit := do
  if env.googleFetcher then
    selectFolderForDelete env folderRawName expectedUidvalidity
    let _ ← imapCommand env (.removeLabel folderRawName uid)
    pure ()
  else throw ⟨.permanent,"remote membership removal is only supported for Gmail labels"⟩

end

/-! Candidates. -/

structure DeleteCandidate where
  messageId : Nat
  accountId : String
  folderRawName : String
  uid : Nat
  uidvalidity : Nat
  subject : String
  dateSent : Option String
  internalDate : Option String
  sizeBytes : Nat
  relativePath : String
  fileHash : String
  messageIdHeader : Option String := none
  folderId : Option Nat := none
deriving DecidableEq, Repr

/-- `_folder_names`: the folders of an account that have a name. -/
def folderNames (t : Tables) (accountId : String) : List (Nat × String × Option Nat) :=
  ((t.listFolders accountId).filter fun f => f.rawName != "").map fun f =>
    (f.id,f.rawName,f.uidvalidity)

/-- The membership a candidate is about, or why there is none. -/
def selectMembership (rows : List MembershipRow) (folderId : Option Nat) :
    Except String (Option MembershipRow) :=
  match folderId with
  | some f =>
    match rows.filter fun r => r.membership.folderId == f with
    | [row] => .ok (some row)
    | _ => .error "membership_not_found"
  | none =>
    match rows with
    | [] => .ok none
    | [row] => .ok (some row)
    | _ => .error "folder_selection_required"

/-- The checks of `_candidate_from_record` before the EML is read. -/
def candidateFields (message : Message) (membership : Option Membership)
    (folderRawName : Option String) (names : List (Nat × String × Option Nat))
    (excludeFlagged requirePresent : Bool) : Except String DeleteCandidate := do
  let remoteState := membership.map fun r => r.remoteState
  if (requirePresent && remoteState != some .present) || remoteState == some .deleted ||
      remoteState == some .uncertain then .error "remote_state_not_deletable"
  else if excludeFlagged &&
      hasImapFlag ((membership.bind fun r => r.imapFlags).getD "") "\\Flagged" then
    .error "flagged"
  else if message.accountId = "" then .error "account_id_missing"
  else match orText message.relativePath none,orText message.fileHash none with
  | none,_ => .error "eml_missing"
  | _,none => .error "file_hash_missing"
  | some relativePath,some fileHash =>
    match membership.bind (·.uid),membership.bind (·.uidvalidity),message.sizeBytes with
    | none,_,_ => .error "uid_missing"
    | _,none,_ => .error "uidvalidity_missing"
    | _,_,none => .error "size_missing"
    | some uid,some uidvalidity,some sizeBytes =>
      let candidate := fun name : String =>
        ({ messageId := message.id, accountId := message.accountId, folderRawName := name,
           uid := uid, uidvalidity := uidvalidity, subject := message.envelope.subject,
           dateSent := message.envelope.dateSent, internalDate := message.envelope.internalDate,
           sizeBytes := sizeBytes, relativePath := relativePath, fileHash := fileHash,
           messageIdHeader := message.messageId,
           folderId := membership.map fun r => r.folderId } : DeleteCandidate)
      match orText folderRawName none with
      | some name => .ok (candidate name)
      | none =>
        match names.find? fun n => some n.1 == membership.map fun r => r.folderId with
        | none => .error "folder_missing"
        | some (_,name,folderUidvalidity) =>
          if folderUidvalidity.any (· ≠ uidvalidity) then .error "uidvalidity_mismatch"
          else .ok (candidate name)

/-- `"hash" in str(error).casefold()`. -/
def mentionsHash (message : String) : Bool :=
  decide ("hash".toList <:+: message.toList.map Char.toLower)

section
variable (env : Env)

/-- `read_verified` with the errors that only exclude the message. -/
def verifyEml (relativePath fileHash : String) : App (Option String) :=
  tryCatch (do
    let _ ← readVerified env relativePath fileHash
    pure none) fun e =>
      if e.kind = .storageDetached then throw e
      else if e.kind = .fileNotFound then pure (some "eml_missing")
      else if e.isStorageError then
        pure (some (if mentionsHash e.message then "hash_mismatch" else "eml_unreadable"))
      else throw e

def candidateFromRecord (message : Message) (first : Option Membership) (folderId : Option Nat)
    (excludeFlagged requirePresent : Bool) : App (Except String DeleteCandidate) := do
  let rows ← queryRepo env fun t => t.listMessageMemberships message.accountId message.sourceItemKey
  match selectMembership rows folderId with
  | .error reason => pure (.error reason)
  | .ok row =>
    let names ← (if (orText (row.map fun r => r.folderRawName) none).isSome then pure []
      else queryRepo env fun t => folderNames t message.accountId :
        App (List (Nat × String × Option Nat)))
    match candidateFields message ((row.map fun r => r.membership).or first) (row.map fun r => r.folderRawName) names
        excludeFlagged requirePresent with
    | .error reason => pure (.error reason)
    | .ok candidate =>
      let problem ← verifyEml env candidate.relativePath candidate.fileHash
      match problem with
      | some reason => pure (.error reason)
      | none =>
        let hasContents ← queryRepo env fun t => t.hasMessageContents message.id
        if hasContents then pure (.ok candidate) else pure (.error "message_contents_missing")

end

/-! Durable records of one deletion. -/

def remoteDeleteEvent (stage : RemoteDeleteStage) (candidate : DeleteCandidate)
    (mode : RemoteDeleteMode) (timestamp : String) : ManifestEvent :=
  .remoteDelete ⟨stage,candidate.accountId,candidate.folderRawName,candidate.uid,
    candidate.uidvalidity,mode,timestamp⟩

def remoteDeleteAudit (candidate : DeleteCandidate) (mode : RemoteDeleteMode)
    (timestamp : String) : AuditEntry :=
  { occurredAt := timestamp, operation := "remote_delete", accountId := some candidate.accountId,
    messageId := some (toString candidate.messageId), subject := some candidate.subject,
    sizeBytes := some candidate.sizeBytes,
    detail := "mode=" ++ mode.text ++ "; uid=" ++ toString candidate.uid ++ "; folder=" ++
      candidate.folderRawName }

def MembershipRow.toEntry (r : MembershipRow) : MembershipEntry :=
  { folderRawName := r.folderRawName, uid := r.membership.uid,
    uidvalidity := r.membership.uidvalidity, remoteState := r.membership.remoteState,
    movedToFolderRawName := r.movedToFolderRawName, imapFlags := r.membership.imapFlags,
    flagsSeenAt := r.membership.flagsSeenAt, lastSeenAt := r.membership.lastSeenAt }

/-- `_TrashMergePlan`. -/
structure TrashMergePlan where
  aliasSourceItemKey : SourceItemKey
  duplicateMessageId : Option Nat
  identityEvent : ManifestEvent
  snapshotEvent : ManifestEvent
  newMembership : List MembershipRecord
  trashFolderId : Nat
deriving DecidableEq, Repr

/-- The rows of a message after its move to the trash folder. -/
def movedRows (rows : List MembershipRow) (folderId : Option Nat) (trashFolderId : Nat)
    (trashFolderRawName : String) : List MembershipRow :=
  rows.map fun r =>
    if some r.membership.folderId = folderId then
      { r with
        membership := { r.membership with
          remoteState := .moved, movedToFolderId := some trashFolderId }
        movedToFolderRawName := some trashFolderRawName }
    else r

/-- `new_trash_membership`. -/
def arrivedRow (messageId trashFolderId : Nat) (trashFolderRawName : String)
    (moveResult : RemoteMoveResult) (timestamp : String) : MembershipRow :=
  { membership :=
      { messageId := messageId
        folderId := trashFolderId
        uid := some moveResult.uid
        uidvalidity := some moveResult.uidvalidity
        lastSeenAt := some timestamp }
    folderRawName := trashFolderRawName
    movedToFolderRawName := none }

section
variable (env : Env)

def buildTrashMergePlan (candidate : DeleteCandidate) (message : Message)
    (trashFolderRawName : String) (moveResult : RemoteMoveResult) :
    App (Option TrashMergePlan) := do
  let canonicalKey := message.sourceItemKey
  let aliasKey ← Prog.ofExcept
    (imapSourceItemKey trashFolderRawName moveResult.uidvalidity moveResult.uid)
  if aliasKey = canonicalKey then pure none
  else
    let folders ← queryRepo env fun t => t.listFolders candidate.accountId
    match folders.find? fun f => f.rawName == trashFolderRawName with
    | none => pure none
    | some trash =>
      let now ← timestamp env
      let rows ← queryRepo env fun t => t.listMessageMemberships candidate.accountId canonicalKey
      let memberships := movedRows rows candidate.folderId trash.id trashFolderRawName ++
        [arrivedRow message.id trash.id trashFolderRawName moveResult now]
      let duplicate ← queryRepo env fun t =>
        t.findMessageIdBySourceItemKey candidate.accountId aliasKey
      pure (some
        { aliasSourceItemKey := aliasKey
          duplicateMessageId := duplicate
          identityEvent := .identityLinked ⟨candidate.accountId,canonicalKey,aliasKey,.copyuid,
            candidate.fileHash,now⟩
          snapshotEvent := .membershipSnapshot ⟨candidate.accountId,canonicalKey,
            memberships.map MembershipRow.toEntry,none,now⟩
          newMembership := memberships.map fun r => r.membership.toRecord
          trashFolderId := trash.id })

/-- `_membership_snapshot_event` of a Gmail label removal. -/
def removalSnapshotEvent (candidate : DeleteCandidate) (message : Message) :
    App ManifestEvent := do
  let rows ← queryRepo env fun t => t.listMessageMemberships candidate.accountId message.sourceItemKey
  let remaining := rows.filter fun r => some r.membership.folderId ≠ candidate.folderId
  if remaining.any fun r => r.folderRawName == "" then
    throw ⟨.storage,"Gmail membership snapshot has an unknown folder"⟩
  else
  let now ← timestamp env
  pure (.membershipSnapshot ⟨candidate.accountId,message.sourceItemKey,
    remaining.map MembershipRow.toEntry,
    message.gmailLabels.map fun labels => labels.filter (· ≠ candidate.folderRawName),now⟩)

def writeCompletedState (candidate : DeleteCandidate) (mode : RemoteDeleteMode)
    (message : Message) (mergePlan : Option TrashMergePlan) : App Unit := do
  if mode = .removeMembership then
    let rows ← queryRepo env fun t =>
      t.listMessageMemberships candidate.accountId message.sourceItemKey
    writeRepo env (.replaceMessageMemberships candidate.messageId
      ((rows.filter fun r => some r.membership.folderId ≠ candidate.folderId).map
        fun r => r.membership.toRecord))
  else match mergePlan with
  | some plan =>
    match plan.duplicateMessageId with
    | some duplicate => do
      writeRepo env (.mergeDuplicateMessage candidate.accountId candidate.messageId duplicate)
      writeRepo env (.updateRemoteState candidate.messageId .moved (some plan.trashFolderId)
        candidate.folderId)
    | none => do
      writeRepo env (.replaceMessageMemberships candidate.messageId plan.newMembership)
      writeRepo env (.addMessageIdentityAlias candidate.accountId plan.aliasSourceItemKey
        candidate.messageId .copyuid)
  | none =>
    writeRepo env (.updateRemoteState candidate.messageId .deleted none candidate.folderId)

def commitCompletedState (candidate : DeleteCandidate) (mode : RemoteDeleteMode)
    (timestamp : String) (message : Message) (mergePlan : Option TrashMergePlan) : App Unit := do
  beginBatch env
  writeCompletedState env candidate mode message mergePlan
  writeRepo env (.recordAudit (remoteDeleteAudit candidate mode timestamp))
  commitBatch env

end

/-! The use case. -/

structure DeleteOptions where
  mode : RemoteDeleteMode := .trash
  deleteBatchLimit : Nat := 1000
  excludeFlagged : Bool := false
deriving DecidableEq, Repr

/-- `DeleteResult`, with the folders given up during the run. -/
structure DeleteResult where
  completedIds : List Nat := []
  uncertainIds : List Nat := []
  skippedIds : List Nat := []
  errors : List (Nat × String) := []
  totalSizeBytes : Nat := 0
  invalidatedFolders : List String := []
deriving DecidableEq, Repr

def DeleteResult.skip (r : DeleteResult) (messageId : Nat) (reason : String) : DeleteResult :=
  { r with skippedIds := r.skippedIds ++ [messageId], errors := r.errors ++ [(messageId,reason)] }

/-- What the preflight found out about one folder. -/
structure Preflight where
  verifiedFlags : List ((String × Nat) × List String) := []
  skips : List (Nat × String) := []
deriving DecidableEq, Repr

def Preflight.skipAll (p : Preflight) (items : List DeleteCandidate) (reason : String) :
    Preflight :=
  { p with skips := (items.map fun c => (c.messageId,reason)) ++ p.skips }

section
variable (env : Env)

/-- `select_folder` and `iter_flags` of the preflight; the reports come back in order. -/
def preflightReports (folderRawName : String) (items : List DeleteCandidate)
    (expectedUidvalidity : Nat) : App (Option (List RemoteMessageRef)) := do
  let selected ← selectFolder env folderRawName
  if selected ≠ expectedUidvalidity then pure none
  else
    let (refs,failure) ← iterFlags env folderRawName (items.map fun c => c.uid)
      (some expectedUidvalidity)
    raiseFault failure
    pure (some refs)

def preflightFolder (folderRawName : String) (items : List DeleteCandidate) (p : Preflight) :
    App Preflight := do
  match (items.map fun c => c.uidvalidity).dedup with
  | [expected] =>
    let reports ← outcome (preflightReports env folderRawName items expected)
    match reports with
    | .ok none => pure (p.skipAll items "uidvalidity_mismatch")
    | .ok (some refs) => pure { p with
        verifiedFlags := (refs.map fun r => ((folderRawName,r.uid),r.flags)).reverse ++
          p.verifiedFlags }
    | .error e =>
      if e.kind = .uidValidityChanged then pure (p.skipAll items "uidvalidity_mismatch")
      else if e.isTransient || e.kind == .storageDetached then throw e
      else if e.isFetchError then pure (p.skipAll items "flag_unverified")
      else throw e
  | _ => pure (p.skipAll items "uidvalidity_mismatch")

/-- What the preflight decides about one candidate: a reason to skip it and the flags to store. -/
def preflightVerdict (p : Preflight) (candidate : DeleteCandidate) :
    Option String × Option String :=
  match p.skips.lookup candidate.messageId with
  | some reason => (some reason,none)
  | none =>
    match p.verifiedFlags.lookup (candidate.folderRawName,candidate.uid) with
    | none => (some "flag_unverified",none)
    | some flags =>
      let text := " ".intercalate flags
      (if hasImapFlag text "\\Flagged" then some "flagged_on_server" else none,some text)

def storePreflightFlags (p : Preflight) (items : List DeleteCandidate) : App Unit := do
  let updates := items.filterMap fun c => (preflightVerdict p c).2.map fun text => (c,text)
  if updates.isEmpty then pure ()
  else
    let seenAt ← timestamp env
    beginBatch env
    updates.forM fun u =>
      match u.1.folderId with
      | some folderId =>
        writeRepo env (.updateFlags u.1.accountId folderId u.1.uidvalidity u.1.uid (some u.2) seenAt)
      | none => pure ()
    commitBatch env

/-- The candidates that survive the preflight, and the result so far. -/
def preflight (items : List DeleteCandidate) : App (List DeleteCandidate × DeleteResult) := do
  let folders := Relational.distinct (items.map fun c => c.folderRawName)
  let p ← folders.foldlM (fun p folder =>
    preflightFolder env folder (items.filter fun c => c.folderRawName == folder) p) {}
  let result := items.foldl (fun r c =>
    match (preflightVerdict p c).1 with
    | some reason => r.skip c.messageId reason
    | none => r) {}
  storePreflightFlags env p items
  pure (items.filter fun c => (preflightVerdict p c).1.isNone,result)

/-- The server command for one candidate. -/
def issueDelete (options : DeleteOptions) (candidate : DeleteCandidate) :
    App (Option RemoteMoveResult) := do
  let expected := if options.excludeFlagged then some candidate.uidvalidity else none
  match options.mode with
  | .trash => moveRemoteMessageToTrash env candidate.folderRawName candidate.uid expected
  | .expunge => do
    expungeRemoteMessage env candidate.folderRawName candidate.uid expected
    pure none
  | .removeMembership => do
    removeRemoteMembership env candidate.folderRawName candidate.uid expected
    pure none

/-- The plan still describes the message as it is stored now. -/
def matchesPlan (verified planned : DeleteCandidate) : Bool :=
  verified.fileHash == planned.fileHash && verified.relativePath == planned.relativePath &&
    verified.uid == planned.uid && verified.uidvalidity == planned.uidvalidity &&
    verified.folderRawName == planned.folderRawName

def completeDelete (options : DeleteOptions) (googleAccountIds : List String)
    (trashFolder : Option String) (candidate : DeleteCandidate) (message : Message)
    (moveResult : Option RemoteMoveResult) : App Unit := do
  let mergePlan ←
    (match options.mode,moveResult,trashFolder with
    | .trash,some moved,some trash =>
      if googleAccountIds.contains candidate.accountId then pure none
      else buildTrashMergePlan env candidate message trash moved
    | _,_,_ => pure none : App (Option TrashMergePlan))
  let completedAt ← timestamp env
  appendManifest env (remoteDeleteEvent .completed candidate options.mode completedAt)
  (match options.mode,mergePlan with
    | .removeMembership,_ => do
      let snapshot ← removalSnapshotEvent env candidate message
      appendManifest env snapshot
    | _,some plan => do
      appendManifest env plan.identityEvent
      appendManifest env plan.snapshotEvent
    | _,none => pure () : App Unit)
  flushAndSync env
  commitCompletedState env candidate options.mode completedAt message mergePlan

/-- From the intent of a verified candidate to its outcome. -/
def deleteVerified (options : DeleteOptions) (googleAccountIds : List String)
    (trashFolder : Option String) (candidate : DeleteCandidate) (message : Message)
    (r : DeleteResult) : App DeleteResult := do
  let now ← timestamp env
  appendManifest env (remoteDeleteEvent .intent candidate options.mode now)
  flushAndSync env
  let result ← outcome (issueDelete env options candidate)
  match result with
  | .ok moveResult =>
    completeDelete env options googleAccountIds trashFolder candidate message moveResult
    pure { r with
      completedIds := r.completedIds ++ [candidate.messageId]
      totalSizeBytes := r.totalSizeBytes + candidate.sizeBytes }
  | .error e =>
    if e.kind = .uidValidityChanged then
      pure { r.skip candidate.messageId "uidvalidity_mismatch" with
        invalidatedFolders := candidate.folderRawName :: r.invalidatedFolders }
    else if e.isTransient || e.kind == .storageDetached then
      let uncertainAt ← timestamp env
      appendManifest env (remoteDeleteEvent .uncertain candidate options.mode uncertainAt)
      flushAndSync env
      pure { r with
        uncertainIds := r.uncertainIds ++ [candidate.messageId]
        errors := r.errors ++ [(candidate.messageId,e.message)] }
    else if e.isFetchError then pure (r.skip candidate.messageId e.message)
    else throw e

def deletePlanned (options : DeleteOptions) (googleAccountIds : List String)
    (trashFolder : Option String) (r : DeleteResult) (planned : DeleteCandidate) :
    App DeleteResult := do
  if r.invalidatedFolders.contains planned.folderRawName then
    pure (r.skip planned.messageId "uidvalidity_mismatch")
  else
    let row ← queryRepo env fun t => t.getMessage planned.messageId
    match row with
    | none => pure (r.skip planned.messageId "message_not_found")
    | some (message,first) =>
      let verified ← candidateFromRecord env message first planned.folderId false false
      match verified with
      | .error reason => pure (r.skip planned.messageId reason)
      | .ok candidate =>
        if matchesPlan candidate planned then
          deleteVerified env options googleAccountIds trashFolder candidate message r
        else pure (r.skip planned.messageId "plan_stale")

/-- The checks `execute` makes before it touches anything; the trash folder it will use. -/
def checkPlan (options : DeleteOptions) (items : List DeleteCandidate) :
    App (List String × Option String) := do
  items.forM fun c => ensureImapAccount env c.accountId
  let t ← nextTick
  if env.remoteDeleteAllowed t = false then
    throw ⟨.storageDetached,"Remote deletion requires attached storage"⟩
  else if options.deleteBatchLimit = 0 then
    throw ⟨.value,"delete_batch_limit must be positive"⟩
  else if options.deleteBatchLimit < items.length then
    throw ⟨.value,"delete plan exceeds the batch limit (" ++
      toString options.deleteBatchLimit ++ ")"⟩
  else
    let accounts ← queryRepo env Tables.listAccounts
    let google := (accounts.filter fun a => a.oauthProvider == some "google").map fun a => a.id
    match options.mode with
    | .expunge =>
      if items.any fun c => google.contains c.accountId then
        throw ⟨.permanent,"Gmail accounts do not support remote expunge"⟩
      else if env.supportsUidExpunge then pure (google,none)
      else throw ⟨.permanent,"UID EXPUNGE is not supported by this IMAP server"⟩
    | .removeMembership =>
      if items.all fun c => google.contains c.accountId then pure (google,none)
      else throw ⟨.permanent,
        "remote membership removal is only supported for Gmail labels"⟩
    | .trash =>
      if items.isEmpty then pure (google,none)
      else
        let trash ← findTrashFolder env
        match trash with
        | none => throw ⟨.permanent,"could not identify the remote trash folder"⟩
        | some name => pure (google,some name)

def execute (options : DeleteOptions) (items : List DeleteCandidate) : App DeleteResult := do
  let (google,trash) ← checkPlan env options items
  let (remaining,r) ←
    (if options.excludeFlagged && !items.isEmpty then preflight env items
    else pure (items,{}) : App (List DeleteCandidate × DeleteResult))
  remaining.foldlM (deletePlanned env options google trash) r

end

end MailDock
