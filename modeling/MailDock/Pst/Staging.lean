import MailDock.Pst.World

/-!
# Staging trees

`scan_staging` of `infrastructure/storage/pst_import_storage.py` lists the files a PST was extracted
to and the directories they are in.

## Main definitions

- `posixPath`, `StagedPath.relativePath`, `StagedPath.folderPath` — paths as texts
- `StagingTree.scan` — the items and folders of a tree
-/

namespace MailDock

open Relational

/-! ## Paths -/

/-- `as_posix` of a relative path. -/
def posixPath (names : List EntryName) : String :=
  String.ofList (['/'].intercalate (names.map fun n => n.text.toList))

def StagedPath.relativePath (p : StagedPath) : String := posixPath (p.dirs ++ [p.name])

/-- `candidate.parent.relative_to(root).as_posix()`. -/
def StagedPath.folderPath (p : StagedPath) : String :=
  if p.dirs = [] then "." else posixPath p.dirs

/-- `path.rsplit("/", 1)[-1]`. -/
def lastSegment (path : String) : String :=
  String.ofList (path.toList.reverse.takeWhile fun c => c != '/').reverse

/-- `_STAGE_MARKER_NAME`. -/
def stageMarkerName : String := "stageA_done.json"

/-- The path goes through `stageA_done.json` in the root, which a scan leaves out. -/
def StagedPath.underMarker (p : StagedPath) : Bool :=
  ((p.dirs ++ [p.name]).head?.map EntryName.text) == some stageMarkerName

/-- `import_uuid.replace("-", "")[:8]`. -/
def stagingName (importUuid : String) : String :=
  String.ofList ((importUuid.toList.filter fun c => c != '-').take 8)

/-- The staging directory, below the root of the storage. -/
def stagingRoot (importUuid : String) : String := "tmp/pstimp/" ++ stagingName importUuid

/-! ## The scan -/

/-- An entry of the folder manifest. -/
structure StagedFolder where
  rawName : String
  displayName : String
deriving DecidableEq, Repr

namespace StagingTree

/-- The files that a scan sees. -/
def scanned (tree : StagingTree) : List (StagedPath × Bytes) :=
  tree.files.filter fun f => !f.1.underMarker

def item (sha256 : Bytes → String) (f : StagedPath × Bytes) : StagedItem where
  sourceItemKey := f.1.relativePath
  sourceRelativePath := f.1.relativePath
  folderRelativePath := f.1.folderPath
  sourceSizeBytes := f.2.length
  sourceSha256 := sha256 f.2

def items (sha256 : Bytes → String) (tree : StagingTree) : List StagedItem :=
  (tree.scanned.map (item sha256)).mergeSort
    fun a b => decide (a.sourceItemKey ≤ b.sourceItemKey)

/-- The paths of the directories above a file, without the root. -/
def parents (p : StagedPath) : List String :=
  (p.dirs.inits.filter fun names => !names.isEmpty).map posixPath

def folderNames (tree : StagingTree) : List String :=
  (distinct (tree.scanned.flatMap fun f => parents f.1)).mergeSort fun a b => decide (a ≤ b)

/-- `scan_staging`. -/
def scan (sha256 : Bytes → String) (tree : StagingTree) : List StagedItem × List StagedFolder :=
  (tree.items sha256,tree.folderNames.map fun name => ⟨name,lastSegment name⟩)

/-- `resolve_staging_item`, and the contents of the file. -/
def read (tree : StagingTree) (relativePath : String) : Option Bytes :=
  (tree.files.find? fun f => f.1.relativePath == relativePath).map Prod.snd

end StagingTree

end MailDock
