import Odooctl.FilestoreAdapters
import Odooctl.ObjectFilestore

/-!
# Filestore migrations

`plan_migration`, `sync_migration`, `verify_migration`, `cutover_migration` and
`delete_source_after_cutover` of `services/filestore_storage.py`, as programs over the host,
the Odoo service and the object store.
-/
namespace FilestoreMigration

open EffectPrograms ProjectConfiguration FilestoreAdapters FilestoreManifest ObjectFilestore
open PitrRestoreRecord (Timestamp matchesComponent isComponentChar is_safe_label)
open PythonJson (Json)
open PythonText (quoted)

/-! ## Configuration -/

inductive BackendType where
  | local_
  | docker_volume
  | object_mirror
  | posix_object_mount
  | odoo_module
  deriving DecidableEq, Repr

def BackendType.text : BackendType → String
  | .local_ => "local"
  | .docker_volume => "docker_volume"
  | .object_mirror => "object_mirror"
  | .posix_object_mount => "posix_object_mount"
  | .odoo_module => "odoo_module"

/-- The target of a migration to this backend, if it is one. -/
def BackendType.target : BackendType → Option TargetBackend
  | .object_mirror => some .object_mirror
  | .posix_object_mount => some .posix_object_mount
  | .odoo_module => some .odoo_module
  | .local_ | .docker_volume => none

/-- `backend.type in {"object_mirror", "odoo_module"}`. -/
def BackendType.in_objects (type : BackendType) : Bool :=
  type = .object_mirror || type = .odoo_module

structure FilestoreObjectStoreConfig where
  bucket : String
  prefix_ : String := ""
  deriving DecidableEq, Repr

structure FilestoreBackendConfig where
  type : BackendType
  object_store : Option FilestoreObjectStoreConfig := none
  mount_path : Option String := none
  source_path : Option String := none
  module_name : Option String := none
  deriving DecidableEq, Repr

/-- An environment with the field `filestore_backend`. -/
structure BackedEnvironment extends EnvironmentConfig where
  filestore_backend : Option FilestoreBackendConfig := none

/-- The hash function, the length of a document, and `json.loads`. -/
structure Library where
  sha256 : Body → String
  document_length : Body → ℕ
  json_loads : Bytes → Option Json

structure ServiceContext where
  project : String
  host : Host
  environments : List (String × BackedEnvironment)
  /-- `redact_text` with the values of the referenced environment variables -/
  redact_text : String → String

/-- `os.path.normpath` of the components of an absolute path. -/
def normalized (parts : List String) : List String :=
  parts.foldl (fun done part => if part = ".." then done.dropLast else done ++ [part]) []

def absolute_text (parts : List String) : String := "/" ++ "/".intercalate parts

variable (lib : Library) (ctx : ServiceContext)

def resolve_host_path (value : String) : String :=
  let candidate := PosixPath.join ctx.host.project_root (.parse value)
  absolute_text (normalized (PosixPath.join ctx.host.cwd candidate).parts)

/-- `Path(text).resolve(strict=False)`. -/
def resolved (text : String) : String :=
  absolute_text (ctx.host.real (PosixPath.join ctx.host.cwd (.parse text)))

/-- `if value`: a string that is neither `None` nor empty. -/
def given (value : Option String) : Option String := value.filter (· ≠ "")

structure Volume where
  name : String
  filestore_path : String
  deriving DecidableEq, Repr

/-- What the three cases of `_source_description`, of `_materialized_source`, of
`_source_exists` and of the deletion tell apart. -/
inductive Source where
  | path (text : String)
  | volume (v : Volume)
  deriving DecidableEq, Repr

def source_of (env : BackedEnvironment) (backend : FilestoreBackendConfig) : Source :=
  match given backend.source_path with
  | some source_path => .path (resolve_host_path ctx source_path)
  | none => match given env.filestore_volume with
    | some volume => .volume ⟨volume, env.filestore_path⟩
    | none => .path (resolve_host_path ctx env.filestore_path)

def source_description : Source → SourceBackend × String
  | .path text => (.local_, text)
  | .volume v => (.docker_volume, s!"volume:{v.name}:{v.filestore_path}")

/-! ## The object adapter of an environment -/

/-- `str.lower` of one character, as far as it yields a letter from `a` to `z`. -/
def lowered (c : Char) : List Char :=
  if c = 'K' then ['k'] else if c = 'İ' then ['i', '\u0307'] else [c.toLower]

/-- `re.sub(r"[^a-z0-9-]+", "-", text)`; the flag says that the run goes on. -/
def collapse : Bool → List Char → List Char
  | _, [] => []
  | running, c :: cs =>
    if ('a' ≤ c ∧ c ≤ 'z') ∨ ('0' ≤ c ∧ c ≤ '9') ∨ c = '-' then c :: collapse false cs
    else if running then collapse true cs
    else '-' :: collapse true cs

def strip (c : Char) (text : List Char) : List Char :=
  ((text.dropWhile (· = c)).reverse.dropWhile (· = c)).reverse

def project_namespace (project : String) : String :=
  let slug := (strip '-' (collapse false (project.toList.flatMap lowered))).take 32
  let digest := (lib.sha256 (.content project.toUTF8.toList)).toList.take 16
  String.ofList ((if slug = [] then "project".toList else slug) ++ '-' :: digest)

def object_adapter (environment : String) (config : FilestoreObjectStoreConfig) :
    ObjectFilestoreAdapter where
  project := ctx.project
  environment := environment
  bucket := config.bucket
  scope := "/".intercalate ([String.ofList (strip '/' config.prefix_.toList), "projects",
    project_namespace lib ctx.project, "filestore", environment].filter (· ≠ ""))
  sha256 := lib.sha256
  document_length := lib.document_length
  json_loads := lib.json_loads

/-- What `ObjectFilestoreAdapter.__init__` raises. -/
def adapter_fault (environment : String) : Option String :=
  if ctx.project.toList.all PitrRestoreRecord.isSpace ∨
      ctx.project.toList.any isControl = true then
    some "project must be a non-empty printable string"
  else if matchesComponent environment.toList = false then
    some "environment must be one safe component"
  else none

/-! ## Operations -/

inductive Node where
  | file (content : Bytes)
  | link
  | special
  deriving DecidableEq, Repr

/-- What a directory holds, by relative path, except for the directories below it. -/
abbrev Tree := List (String × Node)

/-- A path, or the extracted copy of a volume. -/
inductive Root where
  | directory (path : String)
  | extracted (tree : Tree)
  deriving DecidableEq, Repr

inductive LocalCall where
  | read_manifest (migration_id : String)
  | existing_manifest (migration_id : String)
  | write_manifest (fields : MigrationFields)
  | token_hex
  | now_utc
  | is_real_dir (path : String)
  | lexists (path : String)
  | source_exists (source : Source)
  | materialize (v : Volume)
  | walk (root : Root)
  | read_file (root : Root) (path : String)
  | make_dir (path : String)
  | copy_file (root : Root) (path partial_path : String)
  | replace (partial_path destination : String)
  | remove_partial_copy (path : String)
  | remove_source (source : Source)
  deriving DecidableEq, Repr

abbrev LocalCall.Answer : LocalCall → Type
  | .read_manifest _ => MigrationFields
  | .existing_manifest _ => Option MigrationFields
  | .token_hex => String
  | .now_utc => Timestamp
  | .is_real_dir _ | .lexists _ | .source_exists _ => Bool
  | .materialize _ | .walk _ => Tree
  | .read_file _ _ => Option Bytes
  | .copy_file _ _ _ => Bytes
  | _ => Unit

/-- An error reply is the text of the exception. -/
def Local : Interface := ⟨LocalCall, fun c => Except String c.Answer⟩

abbrev Migration : Interface := Local.sum Store

abbrev MigrationM := Prog Migration String

def send (c : LocalCall) : MigrationM c.Answer := (Prog.perform (F := Local) c id).left

def failure_text : StoreFailure → String
  | .value message | .filestore message | .conflict message | .provider message
  | .integrity message => message

def onStore {α : Type} (p : StoreM α) : MigrationM α := (p.mapError failure_text).right

/-- `if c: raise`. -/
def reject_if (c : Prop) [Decidable c] (message : String) : MigrationM Unit :=
  if c then .raise message else .pure ()

/-! ## Manifests on disk -/

abbrev MigrationManifest := FilestoreMigrationManifest lib.sha256

variable {lib}

def safe_backup_component (value label : String) : Except String String :=
  if value ∈ ["", ".", ".."] ∨ value.toList.all isComponentChar = false then
    .error s!"{label} contains unsupported characters"
  else .ok value

variable (lib) in
/-- The validation of a loaded document. -/
def loaded (label : String) (fields : MigrationFields) : MigrationM (MigrationManifest lib) :=
  .ofExcept ((model_validate fields).mapError fun faults =>
    s!"{label} is invalid: {fields.migration_id}: " ++ "; ".intercalate faults)

/-- `_validated_update`. -/
def updated (manifest : MigrationManifest lib) (updates : MigrationFields → MigrationFields) :
    MigrationM (MigrationManifest lib) :=
  .ofExcept ((validated_update manifest updates).mapError ("; ".intercalate ·))

variable (lib) in
def get_filestore_migration (migration_id : String) : MigrationM (MigrationManifest lib) := do
  let safe_id ← .ofExcept (safe_backup_component migration_id "migration_id")
  let fields ← send (.read_manifest safe_id)
  let manifest ← loaded lib "filestore migration manifest" fields
  reject_if (manifest.migration_id ≠ migration_id)
    (s!"Filestore migration identity mismatch: requested {quoted migration_id}, " ++
      s!"payload contains {quoted manifest.migration_id}")
  .pure manifest

/-- `_guard_existing_pitr_identity`. -/
def guard_existing_identity (candidate : MigrationManifest lib) :
    Option MigrationFields → MigrationM Unit
  | none => .pure ()
  | some fields => do
    let current ← loaded lib "FilestoreMigrationManifest" fields
    reject_if (current.identity ≠ candidate.identity)
      ("FilestoreMigrationManifest identity conflict at " ++
        quoted (candidate.migration_id ++ ".json"))

def save_filestore_migration (manifest : MigrationManifest lib) : MigrationM Unit := do
  let safe_id ← .ofExcept (safe_backup_component manifest.migration_id "migration_id")
  let existing ← send (.existing_manifest safe_id)
  guard_existing_identity manifest existing
  send (.write_manifest manifest.toMigrationFields)

variable (lib)

/-! ## Inventories -/

/-- What `_safe_relative_path` refuses. -/
def unsafe_path (value : String) : Bool :=
  value = "" || value.toList.head? = some '/' || value.toList.contains '\\' ||
    ((PosixPath.parse value).parts.any fun part => part = ".." || part.toList.any isControl)

/-- What `scan_filestore` makes of one directory entry. -/
def entry_of : String × Node → Except String FilestoreObjectEntry
  | (path, .link) => .error s!"filestore contains a symbolic-link file: {path}"
  | (path, node) =>
    if unsafe_path path = true then
      .error s!"filestore contains an unsafe relative path: {quoted path}"
    else match node with
    | .file content =>
      let entry : FilestoreObjectEntry := ⟨path, lib.sha256 (.content content), content.length⟩
      match entry.faults with
      | [] => .ok entry
      | fault :: _ => .error fault
    | _ => .error s!"filestore entry is not a regular file: {path}"

structure Inventory where
  entries : List FilestoreObjectEntry
  inventory_sha256 : String
  total_size : ℕ
  deriving DecidableEq, Repr

def Inventory.of_manifest (m : MigrationFields) : Inventory :=
  ⟨m.entries, m.inventory_sha256, m.total_size⟩

def inventory_of (tree : Tree) : Except String Inventory := do
  let found ← tree.mapM (entry_of lib)
  let entries := found.mergeSort fun e f => decide (¬ f.path < e.path)
  return ⟨entries, filestore_inventory_sha256 lib.sha256 entries, total_of entries⟩

/-- `source.is_dir() and not source.is_symlink()`. -/
def require_real_dir (path label : String) : MigrationM Unit := do
  let real ← send (.is_real_dir path)
  reject_if (real = false) s!"filestore {label} is not a real directory: {path}"

def materialized_source : Source → MigrationM Root
  | .path text => do
    require_real_dir text "source"
    .pure (.directory text)
  | .volume v => do
    let tree ← send (.materialize v)
    .pure (.extracted tree)

def require_root : Root → MigrationM Unit
  | .directory path => require_real_dir path "root"
  | .extracted _ => .pure ()

def scan_filestore (root : Root) : MigrationM Inventory := do
  require_root root
  let tree ← send (.walk root)
  .ofExcept (inventory_of lib tree)

variable {lib} in
/-- Scan, and compare with the manifest. -/
def require_inventory (root : Root) (manifest : MigrationManifest lib) (message : String) :
    MigrationM Unit := do
  let found ← scan_filestore lib root
  reject_if (found ≠ .of_manifest manifest.toMigrationFields) message

variable {lib} in
def assert_source_matches (root : Root) (manifest : MigrationManifest lib) : MigrationM Unit :=
  require_inventory root manifest
    "filestore source changed after migration planning; create a new plan"

/-! ## Copies -/

def partial_of (destination migration_id : String) : String :=
  let path := PosixPath.parse destination
  absolute_text (path.parts.dropLast ++ [s!".{path.name}.{migration_id}.partial"])

def copy_entries (root : Root) (partial_path : String) :
    List FilestoreObjectEntry → MigrationM Unit
  | [] => .pure ()
  | entry :: entries => do
    let copied ← send (.copy_file root entry.path partial_path)
    reject_if (lib.sha256 (.content copied) ≠ entry.sha256 ∨ copied.length ≠ entry.size)
      s!"filestore source changed during copy: {entry.path}"
    copy_entries root partial_path entries

variable {lib} in
def fill_partial (root : Root) (partial_path destination : String)
    (manifest : MigrationManifest lib) : MigrationM Unit := do
  copy_entries lib root partial_path manifest.entries
  require_inventory (.directory partial_path) manifest
    "copied filestore target failed inventory verification"
  send (.replace partial_path destination)

variable {lib} in
def copy_inventory (root : Root) (destination : String) (manifest : MigrationManifest lib) :
    MigrationM Unit := do
  let exists_ ← send (.lexists destination)
  if exists_ = true then
    require_inventory (.directory destination) manifest
      s!"filestore target already exists with different content: {destination}"
  else do
    let partial_path := partial_of destination manifest.migration_id
    let left ← send (.lexists partial_path)
    reject_if (left = true) s!"filestore partial target already exists: {partial_path}"
    send (.make_dir partial_path)
    let filled ← Prog.attempt (ε := String) ( fill_partial root partial_path destination manifest)
    match filled with
    | .ok () => .pure ()
    | .error e => do
      let _ ← Prog.attempt (ε := String) (send (.remove_partial_copy partial_path))
      .raise e

/-! ## Uploads -/

section Upload

variable (a : ObjectFilestoreAdapter)

def upload_object (root : Root) (path : String) (key : Key) : MigrationM S3ObjectInfo := do
  let content ← send (.read_file root path)
  match content with
  | none => .raise s!"upload source is not a regular file: {path}"
  | some bytes => do
    let digest := a.sha256 (.content bytes)
    onStore (.perform (F := Store) (.put_object key (.content bytes) digest .always)
      (Except.mapError (provider_error ("upload " ++ a.key key))))
    let info ← onStore (verify_object a key (some digest))
    reject_if (info.size ≠ bytes.length)
      s!"S3 object {quoted (a.key key)} size mismatch: expected {bytes.length}, got {info.size}"
    .pure info

/-- Either way the object is then read back. -/
def upload_if_missing (root : Root) (entry : FilestoreObjectEntry) (key : Key) :
    Bool → MigrationM Unit
  | true => .pure ()
  | false => do
    let uploaded ← upload_object a root entry.path key
    reject_if (uploaded.size ≠ entry.size)
      s!"uploaded filestore object size changed for {entry.path}"

def upload_entries (root : Root) : List Key → List FilestoreObjectEntry → MigrationM Unit
  | _, [] => .pure ()
  | completed, entry :: entries => do
    let content ← send (.read_file root entry.path)
    match content with
    | none => .raise s!"filestore entry is not a regular file: {entry.path}"
    | some bytes => do
      reject_if (bytes.length ≠ entry.size ∨ a.sha256 (.content bytes) ≠ entry.sha256)
        s!"filestore source changed after inventory: {entry.path}"
      let key ← onStore (object_key a entry.sha256)
      if key ∈ completed then upload_entries root completed entries
      else do
        let found ← onStore (object_exists key)
        upload_if_missing a root entry key found
        let _ ← onStore (verify_object_content a key entry.sha256)
        upload_entries root (key :: completed) entries

variable {a} in
def upload_inventory (root : Root) (manifest : Manifest a) :
    MigrationM ObjectFilestoreVerification := do
  onStore (assert_manifest_scope manifest)
  require_root root
  upload_entries a root [] manifest.entries
  let key ← onStore (migration_manifest_key a manifest.migration_id)
  onStore (put_immutable_document a key (.manifest manifest.document))
  onStore (verify_inventory manifest)

end Upload

/-! ## Ownership -/

def env (environment : String) : MigrationM BackedEnvironment :=
  match ctx.environments.lookup environment with
  | some env => .pure env
  | none => .raise (s!"Unknown environment '{environment}'. Known: " ++
      ", ".intercalate ((ctx.environments.map Prod.fst).mergeSort fun x y => decide (¬ y < x)))

/-- `_backend`. -/
def backend (environment : String) : MigrationM (BackedEnvironment × FilestoreBackendConfig) := do
  let env ← env ctx environment
  match env.filestore_backend with
  | some backend => .pure (env, backend)
  | none => .raise "filestore migration requires an explicit filestore_backend configuration"

/-- The checks of `_object_adapter`. -/
def object_store_of (environment : String) (backend : FilestoreBackendConfig) :
    Except String FilestoreObjectStoreConfig :=
  match backend.object_store with
  | none => .error s!"filestore backend {backend.type.text} has no object_store"
  | some config =>
    match adapter_fault ctx environment with
    | some fault => .error fault
    | none => .ok config

def target_location (environment : String) (backend : FilestoreBackendConfig)
    (migration_id : String) : MigrationM String :=
  if backend.type.in_objects = true then do
    let config ← .ofExcept (object_store_of ctx environment backend)
    let adapter := object_adapter lib ctx environment config
    let _ ← onStore (migration_manifest_key adapter migration_id)
    .pure (uri_for_migration adapter migration_id)
  else match given backend.mount_path with
    | some mount_path =>
      if backend.type = .posix_object_mount then .pure (resolve_host_path ctx mount_path)
      else .raise s!"filestore backend {backend.type.text} is not a migration target"
    | none => .raise s!"filestore backend {backend.type.text} is not a migration target"

/-- A manifest with the configuration that it belongs to. -/
structure Owned where
  manifest : MigrationManifest lib
  env : BackedEnvironment
  backend : FilestoreBackendConfig

def owned_migration (environment migration_id : String) : MigrationM (Owned lib) := do
  let (env, backend) ← backend ctx environment
  let manifest ← get_filestore_migration lib migration_id
  reject_if (manifest.project ≠ ctx.project ∨ manifest.environment ≠ environment ∨
      some manifest.target_backend ≠ backend.type.target)
    "filestore migration does not belong to this project/environment/backend"
  let location ← target_location lib ctx environment backend migration_id
  reject_if ((manifest.source_backend, manifest.source_location) ≠
        source_description (source_of ctx env backend) ∨
      manifest.target_location ≠ location ∨ manifest.module_name ≠ backend.module_name)
    ("filestore source or target configuration changed after planning; " ++
      "create a new migration plan")
  .pure ⟨manifest, env, backend⟩

/-! ## The operations of a migration -/

/-- `previous_active`, where the target is an object store. -/
def previous_active (environment : String) (backend : FilestoreBackendConfig) :
    MigrationM (Option String) :=
  if backend.type.in_objects = true then do
    let config ← .ofExcept (object_store_of ctx environment backend)
    let active ← onStore (read_active (object_adapter lib ctx environment config))
    .pure (active.map ActiveFilestoreGeneration.migration_id)
  else .pure none

/-- The manifest of a plan, before validation. -/
def draft (environment migration_id : String) (source : Source) (target : TargetBackend)
    (backend : FilestoreBackendConfig) (location : String) (previous : Option String)
    (found : Inventory) (created_at : Timestamp) : MigrationFields where
  migration_id := migration_id
  project := ctx.project
  environment := environment
  source_backend := (source_description source).1
  target_backend := target
  source_location := (source_description source).2
  target_location := location
  module_name := backend.module_name
  previous_active_migration_id := previous
  entries := found.entries
  inventory_sha256 := found.inventory_sha256
  total_size := found.total_size
  created_at := created_at

def plan_for (environment : String) (source : Source) (target : TargetBackend)
    (backend : FilestoreBackendConfig) : MigrationM (MigrationManifest lib) := do
  let token ← send .token_hex
  let migration_id := s!"{environment}_filestore_{token}"
  let location ← target_location lib ctx environment backend migration_id
  reject_if (backend.type = .posix_object_mount ∧
      resolved ctx (source_description source).2 = resolved ctx location)
    "POSIX object-mount migration source and target must differ"
  let previous ← previous_active lib ctx environment backend
  let root ← materialized_source source
  let found ← scan_filestore lib root
  let created_at ← send .now_utc
  let manifest ← loaded lib "FilestoreMigrationManifest"
    (draft ctx environment migration_id source target backend location previous found created_at)
  save_filestore_migration manifest
  .pure manifest

def plan_migration (environment : String) : MigrationM (MigrationManifest lib) := do
  let (env, backend) ← backend ctx environment
  match backend.type.target with
  | none => .raise s!"filestore backend {backend.type.text} has no migration target"
  | some target => plan_for lib ctx environment (source_of ctx env backend) target backend

section Operations

variable {lib} (environment : String)

def fill_target (owned : Owned lib) (root : Root) : MigrationM Unit :=
  if owned.backend.type.in_objects = true then do
    let config ← .ofExcept (object_store_of ctx environment owned.backend)
    let _ ← upload_inventory (a := object_adapter lib ctx environment config) root owned.manifest
    .pure ()
  else copy_inventory root owned.manifest.target_location owned.manifest

/-- The target is filled, and the manifest says so. -/
def sync_owned (owned : Owned lib) : MigrationM (MigrationManifest lib) := do
  let root ← materialized_source (source_of ctx owned.env owned.backend)
  assert_source_matches root owned.manifest
  fill_target ctx environment owned root
  let now ← send .now_utc
  let synced ← updated owned.manifest fun m =>
    { m with status := .synced, synced_at := m.synced_at.or (some now), last_error := none }
  save_filestore_migration synced
  .pure synced

variable (lib)

def sync_migration (migration_id : String) : MigrationM (MigrationManifest lib) := do
  let owned ← owned_migration lib ctx environment migration_id
  reject_if (owned.manifest.status ∉ [.planned, .failed, .synced])
    s!"migration cannot sync from status {quoted owned.manifest.status.text}"
  let synced ← Prog.attempt (ε := String) (sync_owned ctx environment owned)
  match synced with
  | .ok manifest => .pure manifest
  | .error e => do
    let failed ← updated owned.manifest fun m =>
      { m with status := .failed, last_error := some (ctx.redact_text e) }
    save_filestore_migration failed
    .raise e

structure FilestoreVerifyResult where
  migration_id : String
  object_count : ℕ
  total_size : ℕ
  inventory_sha256 : String
  verified_at : Timestamp
  deriving DecidableEq, Repr

variable {lib} in
/-- Every entry of the manifest is read at the target. -/
def verify_target (owned : Owned lib) : MigrationM Unit :=
  if owned.backend.type.in_objects = true then do
    let config ← .ofExcept (object_store_of ctx environment owned.backend)
    let remote ← onStore
      (verify_inventory (a := object_adapter lib ctx environment config) owned.manifest)
    reject_if (remote.object_count ≠ owned.manifest.entries.length ∨
        remote.total_size ≠ owned.manifest.total_size)
      "remote filestore verification summary changed"
  else require_inventory (.directory owned.manifest.target_location) owned.manifest
    "POSIX object-mount target failed inventory verification"

variable {lib} in
/-- `if manifest.status != "cutover"`. -/
def record_verified (manifest : MigrationManifest lib) (verified_at : Timestamp) :
    MigrationM Unit :=
  if manifest.status ≠ .cutover then do
    let verified ← updated manifest fun m =>
      { m with status := .verified, synced_at := m.synced_at.or (some verified_at),
               verified_at := some verified_at, last_error := none }
    save_filestore_migration verified
  else .pure ()

def verify_migration (migration_id : String) : MigrationM FilestoreVerifyResult := do
  let owned ← owned_migration lib ctx environment migration_id
  reject_if (owned.manifest.status ∉ [.synced, .verified, .cutover])
    s!"migration cannot verify from status {quoted owned.manifest.status.text}"
  verify_target ctx environment owned
  let verified_at ← send .now_utc
  record_verified owned.manifest verified_at
  .pure { migration_id := owned.manifest.migration_id,
          object_count := owned.manifest.entries.length,
          total_size := owned.manifest.total_size,
          inventory_sha256 := owned.manifest.inventory_sha256, verified_at }

variable {lib} in
def publish_if_remote (owned : Owned lib) : MigrationM Unit :=
  if owned.backend.type.in_objects = true then do
    let config ← .ofExcept (object_store_of ctx environment owned.backend)
    let _ ← onStore (publish_active (a := object_adapter lib ctx environment config)
      owned.manifest owned.manifest.previous_active_migration_id)
    .pure ()
  else .pure ()

def cutover_migration (migration_id confirm_environment : String)
    (confirm_source_retained : Bool) : MigrationM (MigrationManifest lib) := do
  reject_if (confirm_environment ≠ environment ∨ confirm_source_retained = false)
    ("filestore cutover requires the exact environment and explicit confirmation that " ++
      "the source remains retained")
  let owned ← owned_migration lib ctx environment migration_id
  if owned.manifest.status = .cutover then .pure owned.manifest
  else do
    reject_if (owned.manifest.status ≠ .verified)
      "filestore cutover requires a verified migration"
    let _ ← verify_migration lib ctx environment migration_id
    let root ← materialized_source (source_of ctx owned.env owned.backend)
    assert_source_matches root owned.manifest
    publish_if_remote ctx environment owned
    let now ← send .now_utc
    let cutover ← updated owned.manifest fun m =>
      { m with status := .cutover, cutover_at := some now, last_error := none }
    save_filestore_migration cutover
    .pure cutover

variable {lib} in
/-- Where deletion has not started, the source is there, matches, and the start is recorded;
a retry compares what it still finds. -/
def authorize_deletion (manifest : MigrationManifest lib) (source : Source)
    (source_exists : Bool) : MigrationM (MigrationManifest lib) :=
  if manifest.source_delete_started_at = none then do
    reject_if (source_exists = false)
      "filestore source disappeared before deletion was authorized"
    let root ← materialized_source source
    assert_source_matches root manifest
    let now ← send .now_utc
    let started ← updated manifest fun m =>
      { m with source_delete_started_at := some now, last_error := none }
    save_filestore_migration started
    .pure started
  else if source_exists = true then do
    let root ← materialized_source source
    assert_source_matches root manifest
    .pure manifest
  else .pure manifest

/-- `shutil.rmtree(source_path)`, or the `delete` of the volume. -/
def delete_tree (type : BackendType) (target_location : String) : Source → MigrationM Unit
  | .path text => do
    reject_if (type = .posix_object_mount ∧ text = resolved ctx target_location)
      "refusing to delete a source that equals the active target"
    send (.remove_source (.path text))
  | .volume v => send (.remove_source (.volume v))

def delete_source_after_cutover (migration_id confirm_environment confirm_migration_id : String)
    (delete_source : Bool) : MigrationM (MigrationManifest lib) := do
  reject_if (confirm_environment ≠ environment ∨ confirm_migration_id ≠ migration_id ∨
      delete_source = false)
    "source deletion requires exact environment/migration confirmations and --delete-source"
  let owned ← owned_migration lib ctx environment migration_id
  reject_if (owned.backend.type = .object_mirror)
    ("object_mirror is a retained copy, not an Odoo serving backend; its source cannot " ++
      "be deleted")
  if owned.manifest.source_deleted = true then .pure owned.manifest
  else do
    reject_if (owned.manifest.status ≠ .cutover)
      "filestore source cannot be deleted before explicit cutover"
    let _ ← verify_migration lib ctx environment migration_id
    let source := source_of ctx owned.env owned.backend
    let source_exists ← send (.source_exists source)
    let started ← authorize_deletion owned.manifest source source_exists
    delete_tree ctx owned.backend.type started.target_location source
    let now ← send .now_utc
    let deleted ← updated started fun m =>
      { m with source_deleted := true, source_deleted_at := some now, last_error := none }
    save_filestore_migration deleted
    .pure deleted

end Operations

end FilestoreMigration
