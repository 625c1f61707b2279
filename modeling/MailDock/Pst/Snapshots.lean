import MailDock.Pst.Staging

/-!
# The static manifests of an import

`import.json` and `folders.json` say what a PST import was made of.  Each carries the hash of its
own contents, and the marker of Stage A the hash of both (`infrastructure/storage/pst_manifest.py`
and `usecases/import_pst.py`).

## Main definitions

- `withContentHash`, `staticManifestHash`, `inventoryHash`
- `validateImportSnapshot`, `validateFoldersSnapshot`
- `PstManifest.readImport`, `PstManifest.readFolders`
-/

namespace MailDock

open Json (Value)

/-- `_canonical_json`. -/
def canonicalJson (v : Value) : Except Error Bytes :=
  match Json.dumpError v with
  | some e => .error ⟨.value,(Wire.dumpRaised e).message⟩
  | none => .ok (Json.utf8Encode (Json.dump v))

/-- A `TypeError` or a `ValueError` of the schema. -/
def ofRaised {α : Type} (x : Except Wire.Raised α) : Except Error α :=
  match x with
  | .ok a => .ok a
  | .error r => .error ⟨.value,r.message⟩

/-! ## What is recorded -/

def StagedFolder.payload (f : StagedFolder) : Wire.Dict :=
  [("display_name",.str f.displayName),("raw_name",.str f.rawName)]

def StagedItem.payload (i : StagedItem) : Wire.Dict :=
  [("folder_relative_path",.str i.folderRelativePath),("source_item_key",.str i.sourceItemKey),
    ("source_relative_path",.str i.sourceRelativePath),("source_sha256",.str i.sourceSha256),
    ("source_size_bytes",.int i.sourceSizeBytes)]

structure ImportOptions where
  displayName : String
  charset : String
  includeDeleted : Bool := false
deriving DecidableEq, Repr

/-- The import a job works on. -/
structure ImportJob where
  importId : Nat
  importUuid : String
  accountId : String
deriving DecidableEq, Repr

/-- What Stage A is given beside the import. -/
structure PstSource where
  filename : String
  snapshot : SourceFileSnapshot
  readpstVersion : String
  options : ImportOptions
deriving DecidableEq, Repr

def importSnapshot (job : ImportJob) (source : PstSource) (createdAt : String) : Wire.Dict :=
  [("account_id",.str job.accountId),("created_at",.str createdAt),
    ("display_name",.str source.options.displayName),("import_uuid",.str job.importUuid),
    ("options",.obj [("charset",.str source.options.charset),
      ("include_deleted",.bool source.options.includeDeleted)]),
    ("readpst_version",.str source.readpstVersion),
    ("source_file_identity",.obj (match source.snapshot.fileIdentity with
      | none => []
      | some (device,inode) => [("st_dev",.int device),("st_ino",.int inode)])),
    ("source_filename",.str source.filename),("source_mtime",.int source.snapshot.mtimeNs),
    ("source_sha256",.str source.snapshot.sourceSha256),
    ("source_size_bytes",.int source.snapshot.sizeBytes)]

/-- The payload of `folders.json`, before it is hashed. -/
def foldersPayload (folders : List Wire.Dict) : Wire.Dict :=
  [("folders",.arr (folders.map Value.obj)),("schema_version",.int 1)]

/-! ## Hashes -/

section
variable (sha256 : Bytes → String)

/-- `_content_hashed_snapshot`, and `_with_content_hash`. -/
def withContentHash (payload : Wire.Dict) : Except Error Wire.Dict := do
  let content := payload.filter fun field => field.1 != "content_sha256"
  let content :=
    if Wire.Dict.has content "schema_version" then content
    else Json.insertField "schema_version" (.int 1) content
  let encoded ← canonicalJson (.obj content)
  pure (Json.insertField "content_sha256" (.str (sha256 encoded)) content)

/-- `_inventory_hash`. -/
def inventoryHash (items : List StagedItem) : Except Error String := do
  let encoded ← canonicalJson (.arr (items.map fun i => .obj i.payload))
  pure (sha256 encoded)

/-- `_static_manifest_hash`. -/
def staticManifestHash (snapshot : Wire.Dict) (folders : List Wire.Dict) :
    Except Error String := do
  let importPayload ← withContentHash sha256 snapshot
  let foldersPayload ← withContentHash sha256 (foldersPayload folders)
  let importJson ← canonicalJson (.obj importPayload)
  let foldersJson ← canonicalJson (.obj foldersPayload)
  pure (sha256 (importJson ++ [Wire.newline] ++ foldersJson ++ [Wire.newline]))

/-! ## The schema -/

def isDict : Option Value → Bool
  | some (.obj _) => true
  | _ => false

/-- The fields `_IMPORT_REQUIRED`, in the order `sorted` gives. -/
def importRequired : List String :=
  ["account_id","created_at","display_name","import_uuid","options","readpst_version",
    "source_file_identity","source_filename","source_mtime","source_sha256","source_size_bytes"]

def requireSchemaVersion (payload : Wire.Dict) (message : String) : Except Wire.Raised Unit :=
  match payload.get "schema_version" with
  | some (.int 1) => .ok ()
  | _ => .error ⟨.valueError,message⟩

/-- The field `content_sha256` is the hash of the others. -/
def requireContentHash (payload : Wire.Dict) (message : String) : Except Error Unit := do
  ofRaised (Wire.Pst.validateSha256 (payload.get "content_sha256") "content_sha256")
  let expected ← withContentHash sha256 payload
  match payload.get "content_sha256",expected.get "content_sha256" with
  | some (.str actual),some (.str expected) =>
    if actual = expected then .ok () else .error ⟨.value,message⟩
  | _,_ => .error ⟨.value,message⟩

/-- `_validate_import_snapshot`.  The UUID and `created_at` are not checked for their shape: they are
the program's own. -/
def validateImportSnapshot (payload : Wire.Dict) : Except Error Unit := do
  ofRaised (requireSchemaVersion payload "unsupported PST import manifest schema version")
  let missing := importRequired.filter fun field => !payload.has field
  ofRaised (Wire.require (missing = []) .valueError
    ("import manifest is missing required fields: " ++ Wire.listRepr missing))
  let _ ← ofRaised (Wire.Pst.requireText payload "import manifest" "import_uuid")
  let _ ← ofRaised (Wire.Pst.requireText payload "import manifest" "account_id")
  let _ ← ofRaised (Wire.Pst.requireText payload "import manifest" "display_name")
  let _ ← ofRaised (Wire.Pst.requireText payload "import manifest" "source_filename")
  let _ ← ofRaised (Wire.Pst.requireText payload "import manifest" "readpst_version")
  ofRaised (Wire.Pst.validateSha256 (payload.get "source_sha256") "source_sha256")
  ofRaised (Wire.require (Wire.isNonNegative (payload.get "source_size_bytes")) .valueError
    "import manifest source_size_bytes must be a non-negative integer")
  ofRaised (Wire.require (isDict (payload.get "source_file_identity")) .valueError
    "import manifest source_file_identity must be an object")
  ofRaised (Wire.require (isDict (payload.get "options")) .valueError
    "import manifest options must be an object")
  requireContentHash sha256 payload "import manifest content_sha256 does not match its contents"

/-- The loop over the entries of `folders.json`. -/
def validateFolders (seen : List String) : List Wire.Dict → Except Error Unit
  | [] => .ok ()
  | folder :: rest => do
    let missing := ["display_name","raw_name"].filter fun field => !folder.has field
    ofRaised (Wire.require (missing = []) .valueError
      ("folder manifest entry is missing required fields: " ++ Wire.listRepr missing))
    let rawName ← ofRaised (Wire.Pst.requireText folder "folder manifest" "raw_name")
    let _ ← ofRaised (Wire.Pst.requireText folder "folder manifest" "display_name")
    if seen.contains rawName then
      .error ⟨.value,"folder manifest raw_name is duplicated: " ++ rawName⟩
    else do
      ofRaised (Wire.require (!folder.has "original_name_unresolved" ||
        Wire.isBool (folder.get "original_name_unresolved")) .typeError
        "folder manifest original_name_unresolved must be a boolean")
      validateFolders (rawName :: seen) rest

/-- `_validate_folders_snapshot`; `folders.json` has no other fields than the program writes. -/
def validateFoldersSnapshot (folders : List Wire.Dict) : Except Error Unit :=
  validateFolders [] folders

/-! ## The files -/

/-- The two dictionaries are equal, which their texts tell. -/
def sameJson (a b : Wire.Dict) : Bool := Json.dump (.obj a) == Json.dump (.obj b)

namespace PstManifest

/-- `read_import_manifest`. -/
def readImport (m : PstManifest) : Except Error Wire.Dict :=
  match m.importJson with
  | none => .error ⟨.manifestCorrupt,"PST manifest snapshot cannot be read"⟩
  | some snapshot =>
    match validateImportSnapshot sha256 snapshot with
    | .ok () => .ok snapshot
    | .error _ => .error ⟨.manifestCorrupt,"PST manifest snapshot does not satisfy its schema"⟩

/-- `read_folders_manifest`. -/
def readFolders (m : PstManifest) : Except Error (List Wire.Dict) :=
  match m.folders with
  | none => .error ⟨.manifestCorrupt,"PST manifest snapshot cannot be read"⟩
  | some folders =>
    match validateFoldersSnapshot folders with
    | .ok () => .ok folders
    | .error _ => .error ⟨.manifestCorrupt,"PST manifest snapshot does not satisfy its schema"⟩

/-- `write_import_manifest`: a snapshot that is there can only be written again. -/
def writeImport (m : PstManifest) (snapshot : Wire.Dict) : Except Error PstManifest := do
  let payload ← withContentHash sha256 snapshot
  validateImportSnapshot sha256 payload
  match m.importJson with
  | none => .ok { m with importJson := some payload }
  | some _ => do
    let existing ← m.readImport sha256
    if sameJson existing payload then .ok m
    else .error ⟨.value,"PST manifest snapshot is immutable: import.json"⟩

/-- `write_folders_manifest`. -/
def writeFolders (m : PstManifest) (folders : List Wire.Dict) : Except Error PstManifest := do
  validateFoldersSnapshot folders
  match m.folders with
  | none => .ok { m with folders := some folders }
  | some _ => do
    let existing ← m.readFolders
    if sameJson (foldersPayload existing) (foldersPayload folders) then .ok m
    else .error ⟨.value,"PST manifest snapshot is immutable: folders.json"⟩

end PstManifest

end

end MailDock
