import Odooctl.BackupManifests
import Odooctl.BackupSelection
import Odooctl.EffectPrograms

/-!
# The object store of portable backups

`adapters/s3.py`, over the requests it makes and the local files it reads. A key is the list
of its parts after the configured prefix. Every request may take effect and still fail.
-/
namespace RemoteStore

open EffectPrograms BackupManifests PythonJson PythonText
open BackupSelection (differs truthy)
open PitrRestoreRecord (Timestamp isSpace)
open PitrRetention (sortedIds)
open ProjectConfiguration (PosixPath)
open S3Objects (is_digest)

abbrev Key := List String

instance : LawfulBEq Key := inferInstance

def COMPLETION_MARKER : String := "manifest.json"

def ABANDONMENT_MARKER : String := "abandoned.json"

def MAX_MANIFEST_BYTES : ℕ := 8 * 1024 * 1024

def REQUIRED_ARTIFACT_CHECKSUMS : List (String × String) :=
  [("db.dump", "db_dump"), ("filestore.tar", "filestore")]

def manifest_key (backup_name : String) : Key := [backup_name, COMPLETION_MARKER]

def abandonment_key (backup_name : String) : Key := [backup_name, ABANDONMENT_MARKER]

/-- `last_modified` is what `_last_modified_utc` makes of it. -/
structure S3ObjectInfo where
  key : Key
  size : ℕ
  sha256 : Option String := none
  last_modified : Option Timestamp := none
  deriving DecidableEq, Repr

/-! ## Operations -/

/-- A path in a directory of the backups root, and a file of the state directory. -/
inductive LocalPath where
  | backup (dir : String) (relative : List String)
  | state (name : String)
  deriving DecidableEq, Repr

/-- `path.with_name`. -/
def LocalPath.sibling (rename : String → String) : LocalPath → LocalPath
  | .backup dir relative => .backup dir (relative.dropLast ++ [rename (relative.getLast?.getD "")])
  | .state name => .state (rename name)

def LocalPath.parent : LocalPath → LocalPath
  | .backup dir relative => .backup dir relative.dropLast
  | .state _ => .state ""

def LocalPath.text : LocalPath → String
  | .backup dir relative => "/".intercalate (dir :: relative)
  | .state name => name

inductive PathKind where
  | absent
  | file
  | directory
  | symlink
  | other
  deriving DecidableEq, Repr

inductive MetadataChange where
  | save_backup_manifest (backup_id : String) (manifest : BackupManifest)
  | update_backup_manifest (manifest : BackupManifest)
  | synchronize_backup_manifests (environment : String) (manifests : List BackupManifest)
      (latest_backup_id : Option String)
  deriving DecidableEq, Repr

inductive BackupCall where
  | head_object (key : Key)
  | list_objects (backup_name : Option String)
  | upload_file (source : LocalPath) (key : Key) (sha256 : String)
  | get_object (key : Key)
  | download_file (key : Key)
  | delete_object (key : Key)
  | now
  | random_hex
  | kind (path : LocalPath)
  | modified (path : LocalPath)
  | iterdir
  | rglob (dir : String)
  | read_file (path : LocalPath)
  | write_file (path : LocalPath) (body : Body)
  | create_file (path : LocalPath) (body : Body)
  | replace (source target : LocalPath)
  | unlink (path : LocalPath)
  | mkdir (dir : String)
  | rmdir (path : LocalPath)
  | rename (source target : String)
  | fsync (path : LocalPath)
  | produce (path : LocalPath)
  | odoo_config
  | git_commit
  | metadata (change : MetadataChange)
  deriving DecidableEq, Repr

/-- `sha256` is what `_metadata_sha256` reads. -/
inductive HeadReply where
  | found (size : ℕ) (sha256 : Option String)
  | error (not_found : Bool) (message : String)
  deriving DecidableEq, Repr

abbrev BackupCall.Answer : BackupCall → Type
  | .head_object _ => HeadReply
  | .list_objects _ => Except String (List S3ObjectInfo)
  | .get_object _ | .download_file _ | .read_file _ => Except String Body
  | .now => Timestamp
  | .random_hex => String
  | .kind _ => PathKind
  | .modified _ => Except String Timestamp
  | .iterdir => Except String (List String)
  | .rglob _ => Except String (List (List String × PathKind))
  | .odoo_config => Except String (Option String)
  | .git_commit => Except String (Option String)
  | _ => Except String Unit

abbrev Backups : Interface := ⟨BackupCall, BackupCall.Answer⟩

inductive ErrorKind where
  | provider
  | integrity
  | ownership
  | path
  | policy
  | runtime
  | value
  | os
  | key
  deriving DecidableEq, Repr

structure BackupError where
  kind : ErrorKind
  message : String
  deriving DecidableEq, Repr

abbrev BackupM := Prog Backups BackupError

def fail {α : Type} (kind : ErrorKind) (message : String) : BackupM α := .raise ⟨kind, message⟩

/-- `if c: raise`. -/
def refuse_if (c : Prop) [Decidable c] (kind : ErrorKind) (message : String) : BackupM Unit :=
  if c then fail kind message else .pure ()

def asOs {α : Type} (r : Except String α) : Except BackupError α := r.mapError (⟨.os, ·⟩)

def read_file (path : LocalPath) : BackupM Body := .perform (F := Backups) (.read_file path) asOs

def write_file (path : LocalPath) (body : Body) : BackupM Unit :=
  .perform (F := Backups) (.write_file path body) asOs

def create_file (path : LocalPath) (body : Body) : BackupM Unit :=
  .perform (F := Backups) (.create_file path body) asOs

def replace (source target : LocalPath) : BackupM Unit :=
  .perform (F := Backups) (.replace source target) asOs

/-- `path.unlink(missing_ok=True)`. -/
def unlink (path : LocalPath) : BackupM Unit := .perform (F := Backups) (.unlink path) asOs

def kind (path : LocalPath) : BackupM PathKind := .perform (F := Backups) (.kind path) .ok

def fsync (path : LocalPath) : BackupM Unit := .perform (F := Backups) (.fsync path) asOs

def clock : BackupM Timestamp := .perform (F := Backups) .now .ok

def random_hex : BackupM String := .perform (F := Backups) .random_hex .ok

def metadata (change : MetadataChange) : BackupM Unit :=
  .perform (F := Backups) (.metadata change) asOs

/-! ## Keys -/

/-- The adapter of one project. `scope` is its normalised prefix. -/
structure S3Adapter extends Formats where
  bucket : String
  scope : String

variable (a : S3Adapter)

def S3Adapter.text (key : Key) : String :=
  "/".intercalate (if a.scope = "" then key else a.scope :: key)

/-- `remote_backup_uri` of the adapter's own configuration. -/
def S3Adapter.uri (backup_id : String) : String := s!"s3://{a.bucket}/" ++ a.text [backup_id]

def isControl (c : Char) : Bool := c.toNat < 32

def unsafe_part (part : String) : Bool :=
  part = "" || part = "." || part = ".." || part.toList.any isControl

def backup_name (value : String) : BackupM String :=
  if unsafe_part value = true ∨ '/' ∈ value.toList ∨ '\\' ∈ value.toList then
    fail .path "backup name must be one safe path component"
  else .pure value

/-- `_validate_scoped_key` for a key under the prefix. -/
def scoped_key (key : Key) : Except BackupError Key :=
  if key.getLast? = some "" ∨ a.scope = "" ∧ key.head? = some "" ∨
      key.any fun part => part.toList.contains '\\' then
    .error ⟨.path, "S3 object key is outside the configured scope"⟩
  else if key.any unsafe_part then .error ⟨.path, "S3 object key contains unsafe path segments"⟩
  else if key = [] then .error ⟨.path, "S3 object key does not identify an object"⟩
  else .ok key

def relative_parts (path : PosixPath) : Except BackupError (List String) :=
  if path.absolute = false ∧ path.parts = [] then .ok []
  else if path.absolute = true ∨ path.parts.any fun part => part.toList.contains '\\' then
    .error ⟨.path, "backup-relative path is unsafe"⟩
  else if path.parts.any unsafe_part then
    .error ⟨.path, "backup-relative path contains unsafe segments"⟩
  else .ok path.parts

/-! ## Reading objects -/

def provider_error (operation message : String) : BackupError :=
  ⟨.provider, s!"S3 {operation} failed: {a.redact message}"⟩

/-- A direct HEAD of the exact key. -/
def abandonment_fence_exists (name : String) : BackupM Bool := do
  let safe_name ← backup_name name
  .perform (F := Backups) (.head_object (abandonment_key safe_name)) fun
    | .found _ _ => .ok true
    | .error true _ => .ok false
    | .error false message =>
      .error (provider_error a ("head " ++ a.text (abandonment_key safe_name)) message)

def assert_not_abandoned (name : String) : BackupM Unit := do
  let safe_name ← backup_name name
  let fenced ← abandonment_fence_exists a safe_name
  refuse_if (fenced = true) .integrity
    ("An abandoned remote backup id cannot be republished; " ++
      "create a new globally unique backup")

def head_object (key : Key) : BackupM S3ObjectInfo := do
  let key ← .ofExcept (scoped_key a key)
  .perform (F := Backups) (.head_object key) fun
    | .found size sha256 => .ok { key, size, sha256 }
    | .error _ message => .error (provider_error a ("head " ++ a.text key) message)

def verify_object (key : Key) (expected_sha256 : Option String) (expected_size : Option ℕ)
    (allow_missing_metadata : Bool) : BackupM S3ObjectInfo := do
  let info ← head_object a key
  refuse_if (info.sha256 = none ∧ allow_missing_metadata = false) .integrity
    s!"S3 object {quoted (a.text info.key)} has no valid SHA-256 metadata"
  refuse_if (∃ digest ∈ info.sha256, is_digest digest = false) .integrity
    s!"S3 object {quoted (a.text info.key)} has no valid SHA-256 metadata"
  refuse_if (∃ expected ∈ expected_sha256, ∃ digest ∈ info.sha256, digest ≠ expected.toLower)
    .integrity s!"S3 object {quoted (a.text info.key)} checksum metadata mismatch"
  refuse_if (∃ size ∈ expected_size, info.size ≠ size) .integrity
    (s!"S3 object {quoted (a.text info.key)} size mismatch: expected " ++
      s!"{expected_size.getD 0}, got {info.size}")
  .pure info

/-- What the size and the digest of a body read back must be. -/
def body_matches (info : S3ObjectInfo) (expected_sha256 : Option String) (body : Body) : Prop :=
  a.size body = info.size ∧
    ∀ digest ∈ (expected_sha256.map String.toLower).or info.sha256, a.sha256 body = digest

instance (info : S3ObjectInfo) (expected_sha256 : Option String) (body : Body) :
    Decidable (body_matches a info expected_sha256 body) :=
  inferInstanceAs (Decidable (_ ∧ _))

def read_verified_object (key : Key) (expected_sha256 : Option String) (max_bytes : Option ℕ)
    (allow_missing_metadata : Bool) : BackupM (S3ObjectInfo × Body) := do
  let info ← verify_object a key expected_sha256 none allow_missing_metadata
  refuse_if (∃ most ∈ max_bytes, most < info.size) .integrity
    s!"S3 object {quoted (a.text info.key)} exceeds the allowed size"
  let body ← .perform (F := Backups) (.get_object info.key)
    (Except.mapError (provider_error a ("read " ++ a.text info.key)))
  refuse_if (∃ most ∈ max_bytes, most < a.size body) .integrity
    s!"S3 object {quoted (a.text info.key)} exceeds the allowed size"
  refuse_if (¬ body_matches a info expected_sha256 body) .integrity
    s!"S3 object {quoted (a.text info.key)} content checksum mismatch"
  .pure ({ info with sha256 := some (a.sha256 body) }, body)

def verify_object_content (key : Key) (expected_sha256 : Option String) :
    BackupM S3ObjectInfo := do
  let read ← read_verified_object a key expected_sha256 none false
  .pure read.1

/-- The object and its bytes as they were downloaded. -/
def download_verified (key : Key) (expected_sha256 : Option String)
    (allow_missing_metadata : Bool) : BackupM (S3ObjectInfo × Body) := do
  let info ← verify_object a key expected_sha256 none allow_missing_metadata
  let body ← .perform (F := Backups) (.download_file info.key)
    (Except.mapError (provider_error a ("download " ++ a.text info.key)))
  refuse_if (¬ body_matches a info expected_sha256 body) .integrity
    s!"downloaded S3 object {quoted (a.text info.key)} failed checksum verification"
  .pure ({ info with sha256 := some (a.sha256 body) }, body)

def download_object (key : Key) : BackupM (S3ObjectInfo × Body) := do
  let key ← .ofExcept (scoped_key a key)
  download_verified a key none false

def download_manifest (name : String) : BackupM Body := do
  assert_not_abandoned a name
  let read ← download_verified a (manifest_key name) none true
  assert_not_abandoned a name
  .pure read.2

/-! ## Listings -/

def query_text (name : Option String) : String :=
  match name with
  | none => if a.scope = "" then "" else a.scope ++ "/"
  | some name => a.text [name] ++ "/"

/-- A listed key is safe and under the requested prefix. -/
def listed (name : Option String) (item : S3ObjectInfo) : Except BackupError S3ObjectInfo := do
  let key ← scoped_key a item.key
  if name.all fun name => key.head? = some name && 2 ≤ key.length then .ok item
  else .error ⟨.path, s!"S3 listed object {quoted (a.text key)} outside requested prefix"⟩

/-- The last item of each key. -/
def keyed : List S3ObjectInfo → List S3ObjectInfo
  | [] => []
  | item :: rest => if item.key ∈ rest.map S3ObjectInfo.key then keyed rest else item :: keyed rest

def sorted_objects (items : List S3ObjectInfo) : List S3ObjectInfo :=
  (keyed items).insertionSort fun x y => a.text x.key ≤ a.text y.key

def listing_name : Option String → BackupM (Option String)
  | none => .pure none
  | some name => do
    let safe_name ← backup_name name
    .pure (some safe_name)

def list_objects (name : Option String) : BackupM (List S3ObjectInfo) := do
  let name ← listing_name name
  let items ← .perform (F := Backups) (.list_objects name)
    (Except.mapError (provider_error a s!"list prefix {quoted (query_text a name)}"))
  let items ← .ofExcept (items.mapM (listed a name))
  .pure (sorted_objects a items)

def unfenced : List String → BackupM (List String)
  | [] => .pure []
  | name :: rest => do
    let fenced ← abandonment_fence_exists a name
    let names ← unfenced rest
    .pure (if fenced then names else name :: names)

/-- The name of the backup whose completion marker a key is. -/
def completed (key : Key) : Option String :=
  match key with
  | [name, marker] => if marker = COMPLETION_MARKER then some name else none
  | _ => none

def list_backups : BackupM (List String) := do
  let items ← list_objects a none
  unfenced a (sortedIds (items.filterMap fun item => completed item.key))

/-! ## Uploads -/

def upload_object (source : LocalPath) (key : Key) : BackupM S3ObjectInfo := do
  let is ← kind source
  refuse_if (is ≠ .file) .path s!"upload source is not a regular file: {source.text}"
  let key ← .ofExcept (scoped_key a key)
  let body ← read_file source
  .perform (F := Backups) (.upload_file source key (a.sha256 body))
    (Except.mapError (provider_error a ("upload " ++ a.text key)))
  verify_object a key (some (a.sha256 body)) (some (a.size body)) false

/-- `as_posix`. -/
def posix (relative : List String) : String := "/".intercalate relative

def backup_file (item : List String × PathKind) : Except BackupError (Option (List String)) :=
  match item.2 with
  | .symlink => .error ⟨.path, s!"backup tree contains a symbolic link: {posix item.1}"⟩
  | .directory => .ok none
  | .file => (relative_parts ⟨false, item.1⟩).map some
  | _ => .error ⟨.path, s!"backup tree contains a non-regular file: {posix item.1}"⟩

/-- The files of a backup directory, its own manifest last. -/
def backup_files (dir : String) : BackupM (List (List String)) := do
  let is ← kind (.backup dir [])
  refuse_if (is ≠ .directory) .path s!"backup directory is not a real directory: {dir}"
  let _ ← backup_name dir
  let children ← .perform (F := Backups) (.rglob dir) asOs
  let sorted := children.insertionSort fun x y => posix x.1 ≤ posix y.1
  let files ← .ofExcept (sorted.mapM backup_file)
  let marker ← kind (.backup dir [COMPLETION_MARKER])
  refuse_if (marker ≠ .file) .integrity s!"backup is incomplete: missing root {COMPLETION_MARKER}"
  let files := files.reduceOption
  .pure (files.filter (· ≠ [COMPLETION_MARKER]) ++ files.filter (· = [COMPLETION_MARKER]))

def delete_completion_marker (name : String) : BackupM Unit :=
  .perform (F := Backups) (.delete_object (manifest_key name))
    (Except.mapError (provider_error a ("delete " ++ a.text (manifest_key name))))

def remove_completion_marker (name : String) : BackupM Bool := do
  let safe_name ← backup_name name
  let objects ← list_objects a (some safe_name)
  delete_completion_marker a safe_name
  .pure (decide (manifest_key safe_name ∈ objects.map S3ObjectInfo.key))

def upload_files (dir : String) : List (List String) → BackupM (List S3ObjectInfo)
  | [] => .pure []
  | relative :: rest =>
    if relative = [COMPLETION_MARKER] then upload_files dir rest
    else do
      let uploaded ← upload_object a (.backup dir relative) (dir :: relative)
      let others ← upload_files dir rest
      .pure (uploaded :: others)

/-- A stale marker is removed before any payload. -/
def upload_backup_payload (dir : String) : BackupM (List S3ObjectInfo) := do
  let files ← backup_files dir
  assert_not_abandoned a dir
  let _ ← remove_completion_marker a dir
  upload_files a dir files

/-! ## The completion marker -/

def manifest_digest (value : Option Json) (artifact : String) : Except BackupError String :=
  match value with
  | some (.str s) =>
    if is_digest s.toLower then .ok s.toLower
    else .error ⟨.integrity, s!"remote manifest has an invalid SHA-256 checksum for {artifact}"⟩
  | _ => .error ⟨.integrity, s!"remote manifest has no SHA-256 checksum for {artifact}"⟩

def check (c : Prop) [Decidable c] (message : String) : Except BackupError Unit :=
  if c then .error ⟨.integrity, message⟩ else .ok ()

/-- Not a text with something in it. -/
def blank (manifest : Items) (field : String) : Bool :=
  match get manifest field with
  | some (.str s) => s.toList.all isSpace
  | _ => true

def normalized_path (path : String) : Except BackupError String :=
  (relative_parts (PosixPath.parse path)).map fun parts =>
    if parts = [] then "." else posix parts

/-- The required artifacts with the digests the manifest records for them. -/
def expected_digests (checksums : Items) : List (String × String) →
    Except BackupError (List (String × String))
  | [] => .ok []
  | (artifact, name) :: rest => do
    let digest ← manifest_digest ((get checksums name).or (get checksums artifact)) artifact
    let others ← expected_digests checksums rest
    return (artifact, digest) :: others

def artifact_texts (manifest : Items) : Except BackupError (List String) :=
  match (get manifest "artifact_paths").bind asTexts with
  | some paths => .ok paths
  | none => .error ⟨.integrity, "backup manifest has invalid artifact_paths"⟩

def artifact_expectations (manifest : Items) : Except BackupError (List (String × String)) := do
  let paths ← artifact_texts manifest
  let normalized ← paths.mapM normalized_path
  let missing := (REQUIRED_ARTIFACT_CHECKSUMS.map Prod.fst).filter fun path => path ∉ normalized
  check (missing ≠ [])
    ("backup manifest is missing required artifacts: " ++ ", ".intercalate missing)
  match get manifest "checksums" with
  | some (.dict checksums) => expected_digests checksums REQUIRED_ARTIFACT_CHECKSUMS
  | _ => .error ⟨.integrity, "backup manifest has no checksum map"⟩

def loaded_manifest : Except String Json → Except BackupError Items
  | .ok (.dict manifest) => .ok manifest
  | .ok _ => .error ⟨.integrity, "backup manifest must be a JSON object"⟩
  | .error _ => .error ⟨.integrity, "backup manifest is not valid JSON"⟩

/-- What `_upload_manifest_expectations` asks of the manifest's text. -/
def manifest_expectations (name : String) (loaded : Except String Json) :
    Except BackupError (List (String × String)) := do
  let manifest ← loaded_manifest loaded
  check (holds manifest "backup_id" name = false) "backup manifest identity does not match"
  check (blank manifest "project" = true) "backup manifest has no project"
  check (blank manifest "environment" = true) "backup manifest has no environment"
  check (differs manifest "status" "complete" = true) "backup manifest status is not complete"
  check (differs manifest "remote_status" "complete" = true)
    "backup manifest remote status is not complete"
  check (holds manifest "remote_status" "complete" = true ∧
      ((get manifest "remote_error").any truthy) = true)
    "complete backup manifest must not contain a remote error"
  artifact_expectations manifest

def upload_manifest_expectations (source : LocalPath) (name : String) :
    BackupM (List (String × String)) := do
  let stat ← read_file source
  refuse_if (MAX_MANIFEST_BYTES < a.size stat) .integrity "backup manifest exceeds the allowed size"
  let read ← (read_file source).attempt
  .ofExcept (manifest_expectations name (read.mapError BackupError.message >>= a.loads))

/-- Every artifact is there, by its metadata or, where it has none, by its bytes. -/
def verify_manifest_payloads (name : String) : List (String × String) → BackupM Unit
  | [] => .pure ()
  | (artifact, digest) :: rest => do
    let info ← head_object a [name, artifact]
    match info.sha256 with
    | none => do
      let _ ← read_verified_object a [name, artifact] (some digest) none true
      verify_manifest_payloads name rest
    | some _ => do
      let _ ← verify_object a [name, artifact] (some digest) none false
      verify_manifest_payloads name rest

/-- The checks made before a staged manifest is published. -/
def check_manifest_upload (source : LocalPath) (name : String) : BackupM Unit := do
  let expected ← upload_manifest_expectations a source name
  verify_manifest_payloads a name expected
  assert_not_abandoned a name

/-- `upload_manifest` of a manifest file. -/
def upload_manifest (source : LocalPath) (name : String) : BackupM S3ObjectInfo := do
  let safe_name ← backup_name name
  let is ← kind source
  refuse_if (is ≠ .file) .path s!"manifest source is not a regular file: {source.text}"
  assert_not_abandoned a safe_name
  let checked ← (check_manifest_upload a source safe_name).attempt
  match checked with
  | .error e => do
    delete_completion_marker a safe_name
    .raise e
  | .ok () => upload_object a source (manifest_key safe_name)

/-! ## Deletion -/

def delete_keys : List Key → BackupM Unit
  | [] => .pure ()
  | key :: rest => do
    .perform (F := Backups) (.delete_object key)
      (Except.mapError (provider_error a ("delete " ++ a.text key)))
    delete_keys rest

/-- The completion marker goes first and the abandonment fence stays. -/
def delete_backup (name : String) : BackupM Unit := do
  let safe_name ← backup_name name
  let objects ← list_objects a (some safe_name)
  delete_keys a (manifest_key safe_name :: (objects.map S3ObjectInfo.key).filter fun key =>
    key ≠ manifest_key safe_name ∧ key ≠ abandonment_key safe_name)

end RemoteStore
