import MailDock.Lib.Program
import MailDock.Lib.Trace
import MailDock.Domain.Time
import MailDock.Manifest.Events
import MailDock.Repository.Queries

/-!
# The world of the use cases

A use case is a program over a `World`: the database as the open connection sees
it and as it was last committed, the manifest, the EML files, and a log of every
effect.  What lies outside the program is an `Env`: the server, the clock, the
cancel token, hashing and parsing, and the faults of disk and network.  Each call
to the outside takes the next tick and the environment answers by tick, so that
any interleaving of answers, faults and cancellations is some environment.

## Main definitions

- `Env`, `World`, `Effect` — environment, state and log entries
- `App` — programs of the use cases
- `queryRepo`, `writeRepo`, `appendManifest`, … — one call each
-/

namespace MailDock

open Hoare

/-- Faults of local disk and database; none of them is a `FetchError`, an
authentication failure or a cancellation. -/
inductive LocalFault
  | database (message : String) | storage (message : String) | storageDetached (message : String)
deriving DecidableEq, Repr

def LocalFault.toError : LocalFault → Error
  | .database message => ⟨.database,message⟩
  | .storage message => ⟨.storage,message⟩
  | .storageDetached message => ⟨.storageDetached,message⟩

structure Env where
  /-- `hashlib.sha256(raw).hexdigest()`. -/
  sha256 : Bytes → String
  parse : Bytes → Option DateTime → ParsedMessage
  clock : Nat → DateTime
  microsecond : Nat → Nat := fun _ => 0
  uuid : Nat → String := fun n => "batch" ++ toString n
  cancelled : Nat → Bool := fun _ => false
  repoFault : Nat → Option LocalFault := fun _ => none
  manifestFault : Nat → Option LocalFault := fun _ => none
  storageFault : Nat → Option LocalFault := fun _ => none
  /-- A fetcher call may fail in any way. -/
  fetchFault : Nat → Option Error := fun _ => none
  /-- The UIDVALIDITY of a folder at a tick. -/
  uidvalidity : Nat → String → Nat
  /-- The UIDs a folder holds at a tick. -/
  mailbox : Nat → String → List Nat
  /-- The next item of an `iter_message_refs` iterator, with the part of the
  requested range that is still to come. -/
  nextRef : Nat → String → Nat → Nat → Option RemoteMessageRef
  /-- How many items an iterator may yield beyond the size of its range. -/
  extraRefs : Nat → Nat := fun _ => 0
  body : Nat → String → Nat → Bytes
  headers : Nat → String → Nat → Bytes
  /-- The items a flags iterator yields and the error it then raises, if any. -/
  flagRefs : Nat → String → List RemoteMessageRef × Option Error := fun _ _ => ([],none)
  /-- The same for the messages that changed after a MODSEQ. -/
  flagRefsSince : Nat → String → Nat → List RemoteMessageRef × Option Error :=
    fun _ _ _ => ([],none)
  /-- What the last SELECT of a folder recorded, when it is asked for at a tick. -/
  highestModseq : Nat → String → Option Nat := fun _ _ => none
  condstore : Bool := false
  remoteDeleteAllowed : Nat → Bool := fun _ => true
  /-- What `find_trash_folder` makes of a LIST response. -/
  trashFolder : Nat → Option String := fun _ => none
  supportsMove : Bool := false
  supportsUidExpunge : Bool := false
  googleFetcher : Bool := false
  /-- The COPYUID code left by the last MOVE or COPY. -/
  copyuid : Nat → Option RemoteMoveResult := fun _ => none

/-- Commands of the delete operations of the fetcher. -/
inductive ImapCommand
  | select (folderRawName : String)
  | list
  | move (folderRawName : String) (uid : Nat)
  | copy (folderRawName : String) (uid : Nat)
  | storeDeleted (folderRawName : String) (uid : Nat)
  | expunge (folderRawName : String) (uid : Nat)
  | removeLabel (folderRawName : String) (uid : Nat)
deriving DecidableEq, Repr

/-- Answers of the server that a sync run rests on. -/
inductive ServerAnswer
  | body (folderRawName : String) (uid : Nat)
  | uids (folderRawName : String) (uids : List Nat)
  | flags (folderRawName : String) (uid : Nat) (flags : List String)
deriving DecidableEq, Repr

inductive Effect
  | save (relativePath : String) (raw : Bytes)
  | unlink (relativePath : String)
  | verified (relativePath fileHash : String)
  | append (event : ManifestEvent)
  | flush
  | write (op : WriteOp)
  | commit (db : Repository)
  | command (c : ImapCommand)
  /-- The UIDVALIDITY of the selected folder was compared and found equal. -/
  | uidvalidityMatched (folderRawName : String) (uidvalidity : Nat)
  | answer (tick : Nat) (a : ServerAnswer)
deriving DecidableEq

/-- The events the manifest holds at a point of the log. -/
def appendedEvents : List Effect → List ManifestEvent
  | [] => []
  | .append e :: before => e :: appendedEvents before
  | _ :: before => appendedEvents before

/-- The events that survive a crash for certain: those appended before the last flush. -/
def flushedEvents : List Effect → List ManifestEvent
  | [] => []
  | .flush :: before => appendedEvents before
  | _ :: before => flushedEvents before

/-- The database a crash leaves behind, for a run that started on `start`. -/
def committedDb (start : Repository) : List Effect → Repository
  | [] => start
  | .commit db :: _ => db
  | _ :: before => committedDb start before

/-- `_PendingItem`. -/
structure PendingItem where
  uid : Nat
  event : Option ManifestEvent := none
  record : Option MessageRecord := none
  failureFolderId : Option Nat := none
  contents : Option MessageContents := none
  failure : Option (Nat × ErrorClass × String) := none
  clearFailure : Bool := false
  transferredBytes : Nat := 0
deriving DecidableEq, Repr

/-- `_LocalMessage`. -/
structure LocalMessage where
  messageId : Nat
  record : MessageRecord
deriving DecidableEq, Repr

/-- The variables the closures of `sync_account` share; a raised exception leaves
them as they are. -/
structure SyncSession where
  /-- `folder["uidvalidity"]` of the folders selected in this run, newest first. -/
  selected : List (Nat × Nat) := []
  pending : List PendingItem := []
  attempted : List Nat := []
  knownMessages : List ((Nat × Nat × Nat) × LocalMessage) := []
  checkpointSequence : Nat := 0
  fetchedCount : Nat := 0
  transferredBytes : Nat := 0
  skippedCount : Nat := 0
  failedCount : Nat := 0
  estimatedBytes : Nat := 0
deriving DecidableEq, Repr

structure World where
  tick : Nat := 0
  db : Repository
  committed : Repository
  inBatch : Bool := false
  manifest : List ManifestEvent := []
  lastCheckpointSequence : Option Nat := none
  files : List (String × Bytes) := []
  log : List Effect := []
  session : SyncSession := {}
deriving DecidableEq

abbrev App := Prog Error World

/-- The world a use case starts in: the connection is open and no effect is logged yet. -/
def World.opened (db : Repository) (manifest : List ManifestEvent)
    (lastCheckpointSequence : Option Nat) (files : List (String × Bytes)) (tick : Nat) : World :=
  { tick := tick, db := db, committed := db, manifest := manifest,
    lastCheckpointSequence := lastCheckpointSequence, files := files }

def World.ticked (w : World) : World := { w with tick := w.tick + 1 }
def World.logged (w : World) (e : Effect) : World := { w with log := e :: w.log }

def nextTick : App Nat := modifyGet fun w => (w.tick,w.ticked)

def emit (e : Effect) : App Unit := modify fun w => w.logged e

def raiseFault (fault : Option Error) : App Unit :=
  match fault with
  | some e => throw e
  | none => pure ()

/-- The outcome of a fetcher call whose errors are handled by kind. -/
def outcome {α : Type} (call : App α) : App (Except Error α) :=
  tryCatch (do
    let a ← call
    pure (.ok a)) fun e => pure (.error e)

section
variable (env : Env)

def nowIso : App String := do
  let t ← nextTick
  pure (toUtcIso8601 (env.clock t))

def timestamp : App String := do
  let t ← nextTick
  pure ((env.clock t).isoformat (env.microsecond t))

def raiseIfCancelled : App Unit := do
  let t ← nextTick
  if env.cancelled t then throw ⟨.cancelled,"operation cancelled"⟩ else pure ()

/-! Database calls. -/

def repoCall : App Unit := do
  let t ← nextTick
  raiseFault ((env.repoFault t).map LocalFault.toError)

def queryRepo {α : Type} (query : Tables → α) : App α := do
  repoCall env
  let w ← get
  pure (query w.db.tables)

/-- The database after a write; outside a batch the write is committed at once. -/
def World.written (w : World) (op : WriteOp) (db : Repository) : World :=
  if w.inBatch then { w with db := db, log := .write op :: w.log }
  else { w with db := db, committed := db, log := .commit db :: .write op :: w.log }

def writeRepo (op : WriteOp) : App Unit := do
  repoCall env
  let w ← get
  let db ← Prog.ofExcept (op.apply w.db)
  set (w.written op db)

def addMessage (record : MessageRecord) (contents : Option MessageContents) : App Nat := do
  repoCall env
  let w ← get
  let (messageId,db) ← Prog.ofExcept (w.db.addMessage record contents)
  set (w.written (.addMessage record contents) db)
  pure messageId

def beginBatch : App Unit := do
  repoCall env
  let w ← get
  if w.inBatch then throw ⟨.database,"A database batch is already open"⟩
  else set { w with inBatch := true }

def World.batchCommitted (w : World) : World :=
  { w with committed := w.db, inBatch := false, log := .commit w.db :: w.log }

def commitBatch : App Unit := do
  repoCall env
  modify fun w => w.batchCommitted

/-- `ensure_imap_account`. -/
def ensureImapAccount (accountId : String) : App Unit := do
  let accounts ← queryRepo env Tables.listAccounts
  match accounts.find? fun a => a.id == accountId with
  | some a =>
    if a.providerType = "pst_import" then
      throw ⟨.permanent,"PST archive account cannot be used for an IMAP operation: " ++ accountId⟩
    else pure ()
  | none => pure ()

/-! Manifest calls. -/

def World.appended (w : World) (e : ManifestEvent) (last : Option Nat) : World :=
  { w with
    manifest := w.manifest ++ [e], lastCheckpointSequence := last, log := .append e :: w.log }

def appendManifest (e : ManifestEvent) : App Unit := do
  let t ← nextTick
  let w ← get
  let last ← Prog.ofExcept (appendEvent w.lastCheckpointSequence e)
  raiseFault ((env.manifestFault t).map LocalFault.toError)
  modify fun w => w.appended e last

def flushAndSync : App Unit := do
  let t ← nextTick
  raiseFault ((env.manifestFault t).map LocalFault.toError)
  emit .flush

def checkpointManifest (accountId : String) (sequence : Nat) (batchId : String) : App Unit := do
  let now ← timestamp env
  appendManifest env (.checkpoint ⟨accountId,sequence,batchId,now⟩)
  flushAndSync env

/-! EML files. -/

def isHexDigest (hash : String) : Bool :=
  hash.toList.length == 64 && hash.toList.all fun c =>
    c.isDigit || ('a' ≤ c && c ≤ 'f') || ('A' ≤ c && c ≤ 'F')

def casefoldHex (hash : String) : String := String.ofList (hash.toList.map Char.toLower)

/-- `reuse`: the file is there and has the expected hash. -/
def reuseEml (relativePath expectedHash : String) : App (Option StoredEml) := do
  let t ← nextTick
  if isHexDigest expectedHash then
    raiseFault ((env.storageFault t).map LocalFault.toError)
    let w ← get
    match w.files.lookup relativePath with
    | none => pure none
    | some raw =>
      if env.sha256 raw = casefoldHex expectedHash then
        emit (.verified relativePath expectedHash)
        pure (some ⟨relativePath,env.sha256 raw,raw.length,true⟩)
      else pure none
  else pure none

def readVerified (relativePath expectedHash : String) : App Bytes := do
  let t ← nextTick
  if isHexDigest expectedHash then
    raiseFault ((env.storageFault t).map LocalFault.toError)
    let w ← get
    match w.files.lookup relativePath with
    | none => throw ⟨.fileNotFound,relativePath⟩
    | some raw =>
      if env.sha256 raw = casefoldHex expectedHash then
        emit (.verified relativePath expectedHash)
        pure raw
      else throw ⟨.storage,"EML file hash does not match expected hash"⟩
  else throw ⟨.storage,"Invalid expected EML hash"⟩

def dateDirectory (internalDate : Option DateTime) : String :=
  match internalDate with
  | none => "unknown"
  | some d => padded 4 d.year ++ "/" ++ padded 2 d.month

def emlStem (fileHash : String) : String := String.ofList (fileHash.toList.take 32)

/-- `_find_existing_eml`: a file of the account with the same name and hash. -/
def findExistingEml (files : List (String × Bytes)) (accountId fileHash : String) :
    Option (String × Bytes) :=
  files.find? fun f =>
    ("eml/" ++ accountId ++ "/").toList.isPrefixOf f.1.toList &&
      ("/" ++ emlStem fileHash ++ ".eml").toList.isSuffixOf f.1.toList &&
      env.sha256 f.2 == fileHash && files.lookup f.1 == some f.2

def World.saved (w : World) (relativePath : String) (raw : Bytes) : World :=
  { w with files := (relativePath,raw) :: w.files, log := .save relativePath raw :: w.log }

def saveEml (accountId : String) (internalDate : Option DateTime) (raw : Bytes) :
    App StoredEml := do
  let t ← nextTick
  raiseFault ((env.storageFault t).map LocalFault.toError)
  let fileHash := env.sha256 raw
  let destination := "eml/" ++ accountId ++ "/" ++ dateDirectory internalDate ++ "/" ++
    emlStem fileHash ++ ".eml"
  let w ← get
  match findExistingEml env w.files accountId fileHash with
  | some (path,existing) =>
    emit (.verified path fileHash)
    pure ⟨path,fileHash,existing.length,true⟩
  | none => do
    modify fun w => w.saved destination raw
    pure ⟨destination,fileHash,raw.length,false⟩

/-! Fetcher calls. -/

/-- A command to the server; it counts as issued even when its answer is a failure. -/
def imapCommand (c : ImapCommand) : App Nat := do
  let t ← nextTick
  emit (.command c)
  raiseFault (env.fetchFault t)
  pure t

def selectFolder (folderRawName : String) : App Nat := do
  let t ← imapCommand env (.select folderRawName)
  pure (env.uidvalidity t folderRawName)

/-! Every other call of the fetcher selects the folder again before it asks. -/

def getMaxUid (folderRawName : String) : App Nat := do
  let t ← imapCommand env (.select folderRawName)
  pure ((env.mailbox t folderRawName).foldl max 0)

def listExistingUids (folderRawName : String) : App (List Nat) := do
  let t ← imapCommand env (.select folderRawName)
  emit (.answer t (.uids folderRawName (env.mailbox t folderRawName)))
  pure (env.mailbox t folderRawName)

def downloadEmlBytes (folderRawName : String) (uid : Nat) : App Bytes := do
  let t ← imapCommand env (.select folderRawName)
  emit (.answer t (.body folderRawName uid))
  pure (env.body t folderRawName uid)

def downloadEmlHeaders (folderRawName : String) (uid : Nat) : App Bytes := do
  let t ← imapCommand env (.select folderRawName)
  emit (.answer t (.body folderRawName uid))
  pure (env.headers t folderRawName uid)

/-- `iter_flags`: the reports for the requested UIDs, and the error that ends them early. -/
def iterFlags (folderRawName : String) (uids : List Nat) (expectedUidvalidity : Option Nat) :
    App (List RemoteMessageRef × Option Error) := do
  if uids.any (· < 1) then throw ⟨.value,"uids must contain only positive integers"⟩
  else
    let t ← imapCommand env (.select folderRawName)
    if expectedUidvalidity.any (· ≠ env.uidvalidity t folderRawName) then
      throw ⟨.uidValidityChanged,"UIDVALIDITY changed for folder " ++ folderRawName⟩
    else
      let refs := (env.flagRefs t folderRawName).1.filter fun r => uids.contains r.uid
      refs.forM fun r => emit (.answer t (.flags folderRawName r.uid r.flags))
      pure (refs,(env.flagRefs t folderRawName).2)

/-- `iter_flags_since`: reports for any UID of the folder. -/
def iterFlagsSince (folderRawName : String) (modseq : Nat) :
    App (List RemoteMessageRef × Option Error) := do
  if modseq = 0 then throw ⟨.value,"modseq must be positive"⟩
  else
    let t ← imapCommand env (.select folderRawName)
    let reports := env.flagRefsSince t folderRawName modseq
    reports.1.forM fun r => emit (.answer t (.flags folderRawName r.uid r.flags))
    pure reports

/-- `with_retry`: only transient failures are tried again, at most `attempts` times. -/
def withRetry {α : Type} (call : App α) : (attempts : Nat) → App α
  | 0 => do
    raiseIfCancelled env
    call
  | attempts + 1 => do
    raiseIfCancelled env
    tryCatch call fun e =>
      if e.isTransient then do
        raiseIfCancelled env
        withRetry call attempts
      else throw e

end

end MailDock
