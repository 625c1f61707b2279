import MailDock.Trash.Program

/-!
# Integrity checks and quarantine

The parts of `eml_storage.py` that move files out of the way, and the repairing checks of
`usecases/verify.py`: `range_verify`, which looks at the files fetched since the last checkpoint,
and `orphan_scan`, which looks for files the database does not know.

## Main definitions

- `quarantineEml`, `cleanupTmp` — moving a suspect file away; clearing `tmp` at session start
- `rangeVerify`, `orphanScan` — the checks
- `combinedManifest` — what the application hands to `orphan_scan`
-/

namespace MailDock

open Hoare

/-! Paths. -/

/-- The last component of a path. -/
def fileName (relativePath : String) : List Char :=
  (relativePath.toList.reverse.takeWhile (· != '/')).reverse

def quarantinePath (relativePath uuid : String) : String :=
  String.ofList ("tmp/quarantine/".toList ++ fileName relativePath ++ '.' :: uuid.toList ++
    ".eml".toList)

/-- A file that `rglob("*.eml")` finds below `eml`. -/
def isEmlPath (relativePath : String) : Bool :=
  "eml/".toList.isPrefixOf relativePath.toList && ".eml".toList.isSuffixOf relativePath.toList

/-- Paths are compared component by component. -/
def pathKey (relativePath : String) : List Nat :=
  relativePath.toList.map fun c => if c = '/' then 0 else c.toNat + 1

def inQuarantine (relativePath : String) : Bool :=
  "tmp/quarantine/".toList.isPrefixOf relativePath.toList

/-- What `cleanup_tmp` removes: everything below `tmp` but `tmp/pstimp`. -/
def isAbandoned (relativePath : String) : Bool :=
  "tmp/".toList.isPrefixOf relativePath.toList && relativePath != "tmp/pstimp" &&
    !"tmp/pstimp/".toList.isPrefixOf relativePath.toList

/-! Files. -/

/-- `os.replace`. -/
def World.movedFile (w : World) (source destination : String) (raw : Bytes) : World :=
  { w with
    files := (destination,raw) :: w.files.filter fun f => f.1 != source && f.1 != destination }

def World.removedFile (w : World) (relativePath : String) : World :=
  { w with files := w.files.filter fun f => f.1 != relativePath }

/-- The outcome of `_hash_chunks`. -/
inductive HashOutcome
  | cancelled
  | missing
  | hash (fileHash : String)
deriving DecidableEq, Repr

section
variable (env : Env)

def storageCall : App Nat := do
  let t ← nextTick
  raiseFault ((env.storageFault t).map LocalFault.toError)
  pure t

def quarantineEml (relativePath : String) : App Unit := do
  let t ← storageCall env
  let w ← get
  match w.files.lookup relativePath with
  | none => pure ()
  | some raw => set (w.movedFile relativePath (quarantinePath relativePath (env.uuid t)) raw)

def removeAbandoned (relativePath : String) : App Unit := do
  let _ ← storageCall env
  modify fun w => w.removedFile relativePath

def cleanupTmp : App Nat := do
  let _ ← storageCall env
  let w ← get
  let abandoned := ((w.files.map Prod.fst).filter isAbandoned).dedup
  abandoned.forM (removeAbandoned env)
  pure abandoned.length

/-- An empty file has no chunk before which the token is looked at. -/
def hashChunks (relativePath : String) : App HashOutcome := do
  let t ← storageCall env
  let w ← get
  match w.files.lookup relativePath with
  | none => pure .missing
  | some raw =>
    if !raw.isEmpty && env.cancelled t then pure .cancelled else pure (.hash (env.sha256 raw))

def isCancelled : App Bool := do
  let t ← nextTick
  pure (env.cancelled t)

def iterEmlPaths : App (List String) := do
  let _ ← storageCall env
  let w ← get
  pure (((w.files.map Prod.fst).filter isEmlPath).dedup.insertionSort
    fun a b => pathKey a ≤ pathKey b)

/-! `range_verify`. -/

inductive IssueReason
  | missing | hashMismatch
deriving DecidableEq, Repr

def IssueReason.text : IssueReason → String
  | .missing => "missing"
  | .hashMismatch => "hash_mismatch"

structure VerificationIssue where
  relativePath : String
  reason : IssueReason
  messageId : Option Nat
  expectedHash : String
  actualHash : Option String := none
deriving DecidableEq, Repr

structure RangeVerifyResult where
  checkedCount : Nat := 0
  issues : List VerificationIssue := []
  repairedCount : Nat := 0
  quarantinedCount : Nat := 0
  cancelled : Bool := false
deriving DecidableEq, Repr

end

/-- The events after the last checkpoint. -/
def readEventsSinceCheckpoint (events : List ManifestEvent) : List ManifestEvent :=
  (events.reverse.takeWhile fun
    | .checkpoint _ => false
    | _ => true).reverse

abbrev StoredRecord := Message × Option Membership

/-- `records_by_key.get`, where a later record replaces an earlier one. -/
def storedRecordOf (records : List StoredRecord) (e : FetchEvent) : Option StoredRecord :=
  records.reverse.find? fun r => r.1.accountId == e.accountId && r.1.sourceItemKey == e.sourceItemKey

section
variable (env : Env)

/-- `_record_failure`. -/
def recordIntegrityFailure (record : StoredRecord) (reason : IssueReason) : App Unit :=
  match record.2 with
  | some ⟨_,folderId,some uid,some uidvalidity,_,_,_,_,_⟩ =>
    writeRepo env (.recordFailure record.1.accountId folderId uidvalidity uid .integrity reason.text)
  | _ => pure ()

def repairIntegrityIssue (record : StoredRecord) (issue : VerificationIssue) : App Unit := do
  recordIntegrityFailure env record issue.reason
  (if issue.reason = .hashMismatch then quarantineEml env issue.relativePath else pure () : App Unit)
  writeRepo env (.updateMessageStorage record.1.id none none)

/-- What is done about a missing or changed file. -/
def handleIssue (record : Option StoredRecord) (issue : VerificationIssue)
    (result : RangeVerifyResult) : App RangeVerifyResult := do
  (match record with
    | none =>
      if issue.reason = .hashMismatch then quarantineEml env issue.relativePath else pure ()
    | some record => repairIntegrityIssue env record issue : App Unit)
  pure { result with
    issues := result.issues ++ [issue]
    repairedCount := result.repairedCount + record.toList.length
    quarantinedCount := result.quarantinedCount + if issue.reason = .hashMismatch then 1 else 0 }

def rangeVerifyLoop (records : List StoredRecord) :
    List ManifestEvent → RangeVerifyResult → App RangeVerifyResult
  | [],result => pure result
  | .fetch e :: rest,result => do
    let stop ← isCancelled env
    if stop then pure { result with cancelled := true }
    else do
      let record := storedRecordOf records e
      let messageId := record.map fun r => r.1.id
      let result := { result with checkedCount := result.checkedCount + 1 }
      let found ← hashChunks env e.relativePath
      match found with
      | .cancelled => pure { result with cancelled := true }
      | .missing =>
        let result ← handleIssue env record ⟨e.relativePath,.missing,messageId,e.fileHash,none⟩ result
        rangeVerifyLoop records rest result
      | .hash actual =>
        if actual = casefoldHex e.fileHash then rangeVerifyLoop records rest result
        else
          let result ← handleIssue env record
            ⟨e.relativePath,.hashMismatch,messageId,e.fileHash,some actual⟩ result
          rangeVerifyLoop records rest result
  | _ :: rest,result => rangeVerifyLoop records rest result

def rangeVerify : App RangeVerifyResult := do
  let records ← queryRepo env fun t => t.listStoredMessages none
  let w ← get
  rangeVerifyLoop env records (readEventsSinceCheckpoint w.manifest) {}

end

/-! `orphan_scan`. -/

/-- What `orphan_scan` reads of a `fetch` or an `item_saved` event. -/
structure ProvenanceEvent where
  relativePath : String
  fileHash : String
  sourceItemKey : SourceItemKey
deriving DecidableEq, Repr

def ManifestEvent.provenance : ManifestEvent → Option ProvenanceEvent
  | .fetch e => some ⟨e.relativePath,e.fileHash,e.sourceItemKey⟩
  | _ => none

structure OrphanCandidate where
  relativePath : String
  fileHash : String
  sourceItemKey : SourceItemKey
deriving DecidableEq, Repr

structure OrphanScanResult where
  checkedCount : Nat := 0
  registerable : List OrphanCandidate := []
  quarantinedPaths : List String := []
  cancelled : Bool := false
deriving DecidableEq, Repr

def Tables.knownPaths (t : Tables) : List String :=
  (t.listStoredMessages none).filterMap fun r => r.1.relativePath.filter (· != "")

def Tables.knownHashes (t : Tables) : List String :=
  (t.listStoredMessages none).filterMap fun r => r.1.fileHash.filter (· != "")

/-- `fetch_events.get`: the last event of a path. -/
def provenanceOf (events : List ProvenanceEvent) (relativePath : String) : Option ProvenanceEvent :=
  events.reverse.find? fun e => e.relativePath == relativePath

section
variable (env : Env)

def orphanAudit (relativePath now : String) : AuditEntry :=
  { occurredAt := now, operation := "orphan_quarantine", accountId := none, messageId := none,
    subject := none, sizeBytes := none, detail := relativePath }

/-- Whether a file the database has no path of may be registered again. -/
def registerable (events : List ProvenanceEvent) (knownHashes : List String)
    (relativePath fileHash : String) : Option OrphanCandidate :=
  match provenanceOf events relativePath with
  | some e =>
    if e.fileHash = fileHash ∧ fileHash ∉ knownHashes then
      some ⟨relativePath,fileHash,e.sourceItemKey⟩
    else none
  | none => none

def orphanScanLoop (events : List ProvenanceEvent) (knownPaths knownHashes : List String) :
    List String → OrphanScanResult → App OrphanScanResult
  | [],result => pure result
  | relativePath :: rest,result => do
    let stop ← isCancelled env
    if stop then pure { result with cancelled := true }
    else do
      let result := { result with checkedCount := result.checkedCount + 1 }
      if relativePath ∈ knownPaths then orphanScanLoop events knownPaths knownHashes rest result
      else do
        let found ← hashChunks env relativePath
        match found with
        | .cancelled => pure { result with cancelled := true }
        | .missing => throw ⟨.fileNotFound,relativePath⟩
        | .hash actual =>
          match registerable events knownHashes relativePath actual with
          | some candidate =>
            orphanScanLoop events knownPaths knownHashes rest
              { result with registerable := result.registerable ++ [candidate] }
          | none => do
            quarantineEml env relativePath
            let now ← timestamp env
            writeRepo env (.recordAudit (orphanAudit relativePath now))
            orphanScanLoop events knownPaths knownHashes rest
              { result with quarantinedPaths := result.quarantinedPaths ++ [relativePath] }

def orphanScan (events : List ProvenanceEvent) : App OrphanScanResult := do
  let paths ← iterEmlPaths env
  let knownPaths ← queryRepo env Tables.knownPaths
  let knownHashes ← queryRepo env Tables.knownHashes
  orphanScanLoop env events knownPaths knownHashes paths {}

end

/-- `_CombinedManifestReader`: the manifests of the accounts that have a directory below
`manifests/imap` or a row in the database, in the order of their ids.  The generations of the
PST imports have manifests of their own, which are not among them. -/
def combinedManifest (manifests : String → List ManifestEvent) (directories : List String)
    (t : Tables) : List ManifestEvent :=
  ((directories ++ (t.accounts.map fun a => a.id).filter (· != "")).dedup.insertionSort
    (· ≤ ·)).flatMap manifests

end MailDock
