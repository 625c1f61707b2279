import MailDock.App.World
import MailDock.Pst.Events
import MailDock.Pst.Generations

/-!
# The world of the PST use cases

A use case is a program over a `PstWorld`: the database as the open connection sees it and as it
was last committed, the manifests of the generations, the staging trees and the EML files.  Every
call to the outside takes the next tick, and the environment may let it fail there, with an
exception or with the end of the process.  No handler of the program catches the latter, so what a
crash leaves is read off the world in which the program stopped.

## Main definitions

- `PstEnv`, `PstWorld`, `Pst` — environment, state and programs
- `PstDisk`, `PstWorld.Survives` — what is on disk, and what a crash may leave of a world
-/

namespace MailDock

open Hoare

/-- What ends a program before it returns. -/
inductive Failure
  | raised (e : Error)
  | crash
deriving DecidableEq, Repr

/-- The result of `read_staged_message`. -/
structure StagedMessage where
  parsed : ParsedMessage := {}
  dateSentIso8601 : Option String := none
deriving DecidableEq, Repr

structure SourceFileSnapshot where
  sourceSha256 : String
  sizeBytes : Nat
  mtimeNs : Nat
  fileIdentity : Option (Nat × Nat) := none
deriving DecidableEq, Repr

/-- The name of a directory entry. -/
structure EntryName where
  text : String
  nonempty : text ≠ ""
  noSlash : '/' ∉ text.toList
  notDot : text ≠ "."
  notDotDot : text ≠ ".."
deriving DecidableEq, Repr

/-- A file by the directories on the way to it and its own name. -/
structure StagedPath where
  dirs : List EntryName
  name : EntryName
deriving DecidableEq, Repr

theorem noFiles_nodup : (([] : List (StagedPath × Bytes)).map Prod.fst).Nodup := List.nodup_nil

/-- The regular files of a staging tree.  Links, other special files and empty directories are
passed over by a scan. -/
structure StagingTree where
  files : List (StagedPath × Bytes) := []
  nodup : (files.map Prod.fst).Nodup := by exact noFiles_nodup
deriving DecidableEq, Repr

/-- `stageA_done.json`. -/
structure StageMarker where
  importUuid : String
  stagingRelativePath : String
  totalFiles : Nat
  inventorySha256 : String
  staticManifestSha256 : String
  createdAt : String
deriving DecidableEq, Repr

structure Staging where
  tree : StagingTree := {}
  marker : Option StageMarker := none
deriving DecidableEq, Repr

/-- The files of `manifests/pst/{import_uuid}`: the two snapshots, as JSON, and the events. -/
structure PstManifest where
  importJson : Option Wire.Dict := none
  folders : Option (List Wire.Dict) := none
  events : List PstEvent := []

structure PstEnv where
  /-- `hashlib.sha256(raw).hexdigest()`. -/
  sha256 : Bytes → String
  /-- `read_staged_message(…, parse=True)`, for the contents of the file. -/
  stagedMessage : Bytes → StagedMessage
  clock : Nat → String
  uuid : Nat → String
  cancelled : Nat → Bool := fun _ => false
  /-- `storage_state.is_write_allowed()`. -/
  writeAllowed : Nat → Bool := fun _ => true
  fault : Nat → Option Failure := fun _ => none
  /-- What `readpst` makes of the source. -/
  extract : Nat → Except Error StagingTree := fun _ => .ok {}
  sourceFile : Nat → Except Error SourceFileSnapshot :=
    fun _ => .error ⟨.unreadableArchive,"Could not read PST source"⟩
  /-- The version `readpst` gives of itself. -/
  readpstVersion : Nat → Except Error String := fun _ => .ok "readpst"

/-- The effects of a program that a crash can fall between. -/
inductive PstEffect
  | append (importUuid : String) (event : PstEvent)
  | flush (importUuid : String)
  /-- A write takes the open database to another, that a rollback may throw away. -/
  | write (before after : PstRepository)
  | commit (db : PstRepository)
  | save (relativePath : String)
  | delete (relativePath : String)
deriving DecidableEq

structure PstWorld where
  tick : Nat := 0
  db : PstRepository
  committed : PstRepository
  inBatch : Bool := false
  manifests : String → PstManifest := fun _ => {}
  /-- How many events of a manifest a crash cannot take away. -/
  flushed : String → Nat := fun _ => 0
  /-- The staging trees, by the name of their directory. -/
  staging : String → Option Staging := fun _ => none
  files : List (String × Bytes) := []
  /-- The effects so far, newest first. -/
  log : List PstEffect := []

abbrev Pst := Prog Failure PstWorld

/-! ## What is on disk -/

structure PstDisk where
  db : PstRepository
  manifests : String → PstManifest := fun _ => {}
  staging : String → Option Staging := fun _ => none
  files : List (String × Bytes) := []

/-- The world a use case starts in. -/
def PstDisk.opened (d : PstDisk) (tick : Nat) : PstWorld where
  tick := tick
  db := d.db
  committed := d.db
  manifests := d.manifests
  flushed := fun importUuid => (d.manifests importUuid).events.length
  staging := d.staging
  files := d.files

/-- Of the events of a manifest a crash keeps those that were flushed and any beginning of the
others. -/
structure PstWorld.Survives (w : PstWorld) (d : PstDisk) : Prop where
  db : d.db = w.committed
  staging : d.staging = w.staging
  files : d.files = w.files
  manifests : ∀ importUuid, ∃ kept, kept <+: (w.manifests importUuid).events ∧
    w.flushed importUuid ≤ kept.length ∧
    d.manifests importUuid = { w.manifests importUuid with events := kept }

/-! ## Calls -/

namespace PstWorld

def ticked (w : PstWorld) : PstWorld := { w with tick := w.tick + 1 }

def setManifest (w : PstWorld) (importUuid : String) (m : PstManifest) : PstWorld :=
  { w with manifests := Function.update w.manifests importUuid m }

/-- The database after a write; outside a batch the write is committed at once. -/
def written (w : PstWorld) (db : PstRepository) : PstWorld :=
  if w.inBatch then { w with db := db, log := .write w.db db :: w.log }
  else { w with db := db, committed := db, log := .commit db :: .write w.db db :: w.log }

def appended (w : PstWorld) (importUuid : String) (e : PstEvent) (events : List PstEvent) :
    PstWorld :=
  { w.setManifest importUuid { w.manifests importUuid with events := events } with
    log := if events = (w.manifests importUuid).events then w.log
      else .append importUuid e :: w.log }

def flushedAll (w : PstWorld) (importUuid : String) : PstWorld :=
  { w with
    flushed := Function.update w.flushed importUuid (w.manifests importUuid).events.length
    log := .flush importUuid :: w.log }

end PstWorld

def raisePst {α : Type} (kind : ErrorKind) (message : String) : Pst α :=
  throw (.raised ⟨kind,message⟩)

def liftPst {α : Type} (x : Except Error α) : Pst α :=
  Prog.ofExcept (match x with
    | .ok a => .ok a
    | .error e => .error (.raised e))

/-- `except Exception`: a crash is not caught. -/
def catching {α : Type} (p : Pst α) (handler : Error → Pst α) : Pst α :=
  tryCatch p fun
    | .raised e => handler e
    | .crash => throw .crash

def pstTick : Pst Nat := modifyGet fun w => (w.tick,w.ticked)

section
variable (env : PstEnv)

/-- A call to the outside, and the tick at which it was made. -/
def pstCall : Pst Nat := do
  let t ← pstTick
  match env.fault t with
  | some failure => throw failure
  | none => pure t

/-- `_timestamp()`. -/
def pstTimestamp : Pst String := do
  let t ← pstTick
  pure (env.clock t)

/-- `token.raise_if_cancelled()`. -/
def pstRaiseIfCancelled : Pst Unit := do
  let t ← pstTick
  if env.cancelled t then raisePst .cancelled "operation cancelled" else pure ()

/-- `_ensure_write_allowed`; without a storage state nothing is checked. -/
def ensureWriteAllowed (gated : Bool) : Pst Unit := do
  let t ← pstTick
  if gated && !env.writeAllowed t then
    raisePst .storageDetached "PST import requires attached storage"
  else pure ()

/-! The database. -/

def queryPst {α : Type} (query : PstTables → α) : Pst α := do
  let _ ← pstCall env
  let w ← get
  pure (query w.db.tables)

def writePst (statement : PstRepository → Except Error PstRepository) : Pst Unit := do
  let _ ← pstCall env
  let w ← get
  let db ← liftPst (statement w.db)
  set (w.written db)

/-- A write that returns a value. -/
def insertPst {α : Type} (statement : PstRepository → Except Error (α × PstRepository)) :
    Pst α := do
  let _ ← pstCall env
  let w ← get
  let (a,db) ← liftPst (statement w.db)
  set (w.written db)
  pure a

def beginPstBatch : Pst Unit := do
  let _ ← pstCall env
  let w ← get
  if w.inBatch then raisePst .database "A database batch is already open"
  else set { w with inBatch := true }

def commitPstBatch : Pst Unit := do
  let _ ← pstCall env
  modify fun w => { w with committed := w.db, inBatch := false, log := .commit w.db :: w.log }

def rollbackPstBatch : Pst Unit := do
  let _ ← pstCall env
  modify fun w => { w with db := w.committed, inBatch := false }

/-- `record_audit`. -/
def recordPstAudit (operation accountId detail : String) : Pst Unit := do
  let occurredAt ← pstTimestamp env
  writePst env fun repo => PstRepository.exec "record audit log"
    { repo.tables with
      mail := repo.tables.mail.recordAudit
        ⟨occurredAt,operation,some accountId,none,none,none,detail⟩ }

/-! The manifest of one generation. -/

def appendPst (importUuid : String) (body : PstEventBody) : Pst Unit := do
  let now ← pstTimestamp env
  let _ ← pstCall env
  let w ← get
  let e : PstEvent := ⟨importUuid,now,body⟩
  let events ← liftPst (appendPstEvent importUuid (w.manifests importUuid).events e)
  set (w.appended importUuid e events)

/-- `append` of an event that has its timestamp. -/
def appendPstAt (importUuid : String) (e : PstEvent) : Pst Unit := do
  let _ ← pstCall env
  let w ← get
  let events ← liftPst (appendPstEvent importUuid (w.manifests importUuid).events e)
  set (w.appended importUuid e events)

def flushPst (importUuid : String) : Pst Unit := do
  let _ ← pstCall env
  modify fun w => w.flushedAll importUuid

def readPstEvents (importUuid : String) : Pst (List PstEvent) := do
  let _ ← pstCall env
  let w ← get
  pure (w.manifests importUuid).events

end

end MailDock
