import Odooctl.EffectPrograms
import Odooctl.FilestoreManifest
import Odooctl.PythonJson

/-!
# The object filestore

`ObjectFilestoreAdapter` of `adapters/object_filestore.py` for one project and environment,
with the verified reads of `adapters/s3.py`. The hash function, the length of a document and
`json.loads` of bytes that are no document of the adapter are parameters.
-/
namespace ObjectFilestore

open EffectPrograms PythonText PythonJson FilestoreManifest
open PitrRestoreRecord (matchesComponent)

/-- What follows the prefix of the adapter in a key. -/
inductive Key where
  | active
  | migration (migration_id : String)
  | object (digest : String)
  deriving DecidableEq, Repr

/-- What a conditional put requires. -/
inductive Condition where
  | always
  | if_none_match
  | if_match (etag : String)
  deriving DecidableEq, Repr

structure S3ObjectInfo where
  key : Key
  size : ℕ
  sha256 : Option String
  etag : Option String
  deriving DecidableEq, Repr

/-! ## Requests -/

inductive StoreCall where
  | head_object (key : Key)
  | get_object (key : Key)
  | put_object (key : Key) (body : Body) (digest : String) (condition : Condition)
  | delete_object (key : Key)
  deriving DecidableEq, Repr

/-- An exception, and whether `_is_not_found_error` holds of it. -/
structure StoreException where
  not_found : Bool
  message : String
  deriving DecidableEq, Repr

abbrev StoreCall.Answer : StoreCall → Type
  | .head_object _ => S3ObjectInfo
  | .get_object _ => Body
  | _ => Unit

def Store : Interface := ⟨StoreCall, fun c => Except StoreException c.Answer⟩

inductive StoreFailure where
  | value (message : String)
  | filestore (message : String)
  | conflict (message : String)
  | provider (message : String)
  | integrity (message : String)
  deriving DecidableEq, Repr

abbrev StoreM := Prog Store StoreFailure

/-- `if c: raise`. -/
def refuse_if (c : Prop) [Decidable c] (e : StoreFailure) : StoreM Unit :=
  if c then .raise e else .pure ()

/-! ## The adapter -/

structure ObjectFilestoreAdapter where
  project : String
  environment : String
  bucket : String
  scope : String
  sha256 : Body → String
  document_length : Body → ℕ
  json_loads : Bytes → Option Json

variable (a : ObjectFilestoreAdapter)

def Key.relative : Key → String
  | .active => "active.json"
  | .migration migration_id => "migrations/" ++ migration_id ++ "/manifest.json"
  | .object digest => "objects/" ++ digest

def ObjectFilestoreAdapter.key (k : Key) : String := a.scope ++ "/" ++ k.relative

def ObjectFilestoreAdapter.length : Body → ℕ
  | .content bytes => bytes.length
  | body => a.document_length body

/-- `_provider_call`. -/
def provider_error (operation : String) (e : StoreException) : StoreFailure :=
  .provider s!"S3 {operation} failed: {e.message}"

/-- `_scoped_key` of what is made of safe components. -/
def scoped_key (k : Key) : StoreM Key :=
  if 1024 < (a.key k).utf8ByteSize then
    .raise (.value "object-filestore key exceeds the S3 1024-byte limit")
  else .pure k

def migration_id (value : String) : Except StoreFailure String :=
  if matchesComponent value.toList then .ok value
  else .error (.value "migration_id must be one safe component")

def digest (value : String) : Except StoreFailure String :=
  if is_sha256 value.toLower then .ok value.toLower
  else .error (.value "filestore object digest must be a SHA-256")

def object_key (value : String) : StoreM Key := do
  let d ← .ofExcept (digest value)
  scoped_key a (.object d)

def migration_manifest_key (value : String) : StoreM Key := do
  let id ← .ofExcept (migration_id value)
  scoped_key a (.migration id)

def uri_for_migration (id : String) : String :=
  "s3://" ++ a.bucket ++ "/" ++ a.key (.migration id)

abbrev Manifest := FilestoreMigrationManifest a.sha256

variable {a} in
def assert_manifest_scope (manifest : Manifest a) : StoreM Unit :=
  refuse_if (manifest.project ≠ a.project ∨ manifest.environment ≠ a.environment ∨
    manifest.target_backend = .posix_object_mount ∨
    manifest.target_location ≠ uri_for_migration a manifest.migration_id)
    (.conflict "filestore manifest is outside this adapter's project/environment/target scope")

/-! ## Verified reads -/

def verify_object (k : Key) (expected_sha256 : Option String) : StoreM S3ObjectInfo := do
  let info ← .perform (F := Store) (.head_object k)
    (Except.mapError (provider_error ("head " ++ a.key k)))
  refuse_if (∀ d ∈ info.sha256, is_sha256 d = false)
    (.integrity s!"S3 object {quoted (a.key k)} has no valid SHA-256 metadata")
  refuse_if (∃ d ∈ expected_sha256, info.sha256 ≠ some d.toLower)
    (.integrity s!"S3 object {quoted (a.key k)} checksum metadata mismatch")
  .pure info

def read_verified_object (k : Key) (expected_sha256 : Option String) (max_bytes : Option ℕ) :
    StoreM (S3ObjectInfo × Body) := do
  let info ← verify_object a k expected_sha256
  refuse_if (∃ most ∈ max_bytes, most < info.size)
    (.integrity s!"S3 object {quoted (a.key k)} exceeds the allowed size")
  let body ← .perform (F := Store) (.get_object k)
    (Except.mapError (provider_error ("read " ++ a.key k)))
  refuse_if (∃ most ∈ max_bytes, most < a.length body)
    (.integrity s!"S3 object {quoted (a.key k)} exceeds the allowed size")
  refuse_if (a.length body ≠ info.size ∨
      some (a.sha256 body) ≠ (expected_sha256.map String.toLower).or info.sha256)
    (.integrity s!"S3 object {quoted (a.key k)} content checksum mismatch")
  .pure ({ info with sha256 := some (a.sha256 body) }, body)

def verify_object_content (k : Key) (expected_sha256 : String) : StoreM S3ObjectInfo := do
  let read ← read_verified_object a k (some expected_sha256) none
  .pure read.1

def object_exists (k : Key) : StoreM Bool :=
  .perform (F := Store) (.head_object k) fun r => match r with
    | .ok _ => .ok true
    | .error e =>
      if e.not_found then .ok false else .error (.provider "filestore object lookup failed")

/-! ## Inventories -/

def MAX_FILESTORE_MANIFEST_BYTES : ℕ := 32 * 1024 * 1024

structure ObjectFilestoreVerification where
  migration_id : String
  object_count : ℕ
  total_size : ℕ
  manifest : S3ObjectInfo

/-- The loop of `verify_inventory` over the entries. -/
def verify_entries : List FilestoreObjectEntry → StoreM Unit
  | [] => .pure ()
  | entry :: entries => do
    let key ← object_key a entry.sha256
    let info ← verify_object_content a key entry.sha256
    refuse_if (info.size ≠ entry.size)
      (.integrity s!"remote filestore object size mismatch for {entry.path}")
    verify_entries entries

variable {a} in
def verify_inventory (manifest : Manifest a) : StoreM ObjectFilestoreVerification := do
  assert_manifest_scope manifest
  let key ← migration_manifest_key a manifest.migration_id
  let read ← read_verified_object a key none (some MAX_FILESTORE_MANIFEST_BYTES)
  refuse_if (read.2 ≠ .manifest manifest.document)
    (.conflict "remote filestore migration manifest failed identity verification")
  verify_entries a manifest.entries
  .pure { migration_id := manifest.migration_id, object_count := manifest.entries.length,
          total_size := manifest.total_size, manifest := read.1 }

/-- Create one immutable marker or accept an identical retry. -/
def put_immutable_document (key : Key) (payload : Body) : StoreM Unit := do
  refuse_if (MAX_FILESTORE_MANIFEST_BYTES < a.length payload)
    (.filestore "filestore migration manifest exceeds the allowed size")
  let put ← .perform (F := Store)
    (.put_object key payload (a.sha256 payload) .if_none_match) .ok
  match put with
  | .ok () => do
    let _ ← verify_object_content a key (a.sha256 payload)
    .pure ()
  | .error _ => do
    let existing ← (read_verified_object a key none (some MAX_FILESTORE_MANIFEST_BYTES)).mapError
      fun _ => .provider "immutable filestore marker publication failed"
    refuse_if (existing.2 ≠ payload)
      (.conflict "remote filestore migration manifest conflicts with local inventory")

/-! ## The active pointer -/

def MAX_ACTIVE_POINTER_BYTES : ℕ := 64 * 1024

structure ActiveFilestoreGeneration where
  migration_id : String
  inventory_sha256 : String
  key : Key
  etag : String
  deriving DecidableEq, Repr

def null_or (v : Option String) : Json := (v.map Json.str).getD .null

def entry_json (e : FilestoreObjectEntry) : Json :=
  .dict [("path", .str e.path), ("sha256", .str e.sha256), ("size", .int e.size)]

def source_json : SourceBackend → Json
  | .local_ => .str "local"
  | .docker_volume => .str "docker_volume"
  | .posix_object_mount => .str "posix_object_mount"

def target_json : TargetBackend → Json
  | .object_mirror => .str "object_mirror"
  | .posix_object_mount => .str "posix_object_mount"
  | .odoo_module => .str "odoo_module"

def ObjectFilestoreAdapter.loads : Body → Option Json
  | .inventory entries => some (.list (entries.map entry_json))
  | .manifest d => some (.dict [
      ("entries", .list (d.entries.map entry_json)),
      ("environment", .str d.environment), ("inventory_sha256", .str d.inventory_sha256),
      ("migration_id", .str d.migration_id), ("module_name", null_or d.module_name),
      ("previous_active_migration_id", null_or d.previous_active_migration_id),
      ("project", .str d.project), ("schema_version", .int 1),
      ("source_backend", source_json d.source_backend),
      ("target_backend", target_json d.target_backend),
      ("total_size", .int d.total_size)])
  | .pointer d => some (.dict [
      ("environment", .str d.environment), ("inventory_sha256", .str d.inventory_sha256),
      ("migration_id", .str d.migration_id), ("project", .str d.project),
      ("schema_version", .int 1)])
  | .content bytes => a.json_loads bytes

/-- `value == 1`. -/
def isOne : Option Json → Bool
  | some (.int i) => i = 1
  | some (.bool b) => b
  | some (.float text) => text = "1.0"
  | _ => false

/-- `str(value)`; the text of a list or a mapping begins with a bracket. -/
def str_of : Json → String
  | .str s => s
  | .int i => toString i
  | .bool true => "True"
  | .bool false => "False"
  | .null => "None"
  | .float text => text
  | .list _ => "["
  | .dict _ => "\x7b"

/-- What an active pointer names: a migration and the digest of its inventory. -/
def read_pointer (body : Body) : Except StoreFailure (String × String) :=
  match a.loads body with
  | none => .error (.conflict "active filestore pointer is not valid JSON")
  | some (.dict document) =>
    if isOne (get document "schema_version") = false ∨
        holds document "project" a.project = false ∨
        holds document "environment" a.environment = false then
      .error (.conflict "active filestore pointer is outside this project/environment")
    else do
      let id ← migration_id (((get document "migration_id").map str_of).getD "")
      let inventory ← digest (((get document "inventory_sha256").map str_of).getD "")
      return (id, inventory)
  | some _ => .error (.conflict "active filestore pointer is outside this project/environment")

def read_active : StoreM (Option ActiveFilestoreGeneration) := do
  let _ ← (scoped_key a .active).mapError fun _ =>
    .provider "active filestore pointer lookup failed"
  let found ← .perform (F := Store) (.head_object .active) fun r => match r with
    | .ok _ => .ok true
    | .error e =>
      if e.not_found then .ok false else .error (.provider "active filestore pointer lookup failed")
  if found = false then .pure none
  else do
    let read ← read_verified_object a .active none (some MAX_ACTIVE_POINTER_BYTES)
    let (id, inventory) ← .ofExcept (read_pointer a read.2)
    match read.1.etag with
    | some etag =>
      refuse_if (etag = "") (.conflict "active filestore pointer has no ETag")
      .pure (some ⟨id, inventory, .active, etag⟩)
    | none => .raise (.conflict "active filestore pointer has no ETag")

section Publish

variable {a}

def names (manifest : Manifest a) (current : ActiveFilestoreGeneration) : Bool :=
  current.migration_id = manifest.migration_id ∧
    current.inventory_sha256 = manifest.inventory_sha256

def pointer_to (manifest : Manifest a) : Body :=
  .pointer ⟨a.project, a.environment, manifest.migration_id, manifest.inventory_sha256⟩

/-- What the pointer is read back as after the put. -/
def confirm_active (manifest : Manifest a) (put : Except StoreException Unit) :
    StoreM ActiveFilestoreGeneration := do
  let published ← (read_active a).mapError fun e => match put with
    | .ok () => e
    | .error _ => .provider "active filestore pointer publication failed"
  match published with
  | some generation =>
    if names manifest generation = true then .pure generation
    else match put with
      | .ok () => .raise (.provider "active filestore pointer publication returned but did not persist")
      | .error _ => .raise (.conflict "active filestore conditional publication lost a race")
  | none => match put with
      | .ok () => .raise (.provider "active filestore pointer publication returned but did not persist")
      | .error _ => .raise (.conflict "active filestore conditional publication lost a race")

def put_active (manifest : Manifest a) (current : Option ActiveFilestoreGeneration) :
    StoreM ActiveFilestoreGeneration := do
  let condition := match current with
    | none => .if_none_match
    | some generation => .if_match generation.etag
  let put ← .perform (F := Store)
    (.put_object .active (pointer_to manifest) (a.sha256 (pointer_to manifest)) condition) .ok
  confirm_active manifest put

def publish_active (manifest : Manifest a) (expected_previous_migration_id : Option String) :
    StoreM ActiveFilestoreGeneration := do
  assert_manifest_scope manifest
  let _ ← verify_inventory manifest
  let current ← read_active a
  match current.filter (names manifest) with
  | some generation => .pure generation
  | none => do
    refuse_if (current.map ActiveFilestoreGeneration.migration_id ≠ expected_previous_migration_id)
      (.conflict "active filestore generation changed after migration planning")
    put_active manifest current

end Publish

/-- Delete only an inactive migration marker. -/
def delete_migration_manifest (id : String) (confirm_not_active : Bool) : StoreM Key := do
  refuse_if (confirm_not_active = false)
    (.value "remote deletion requires confirm_not_active=True")
  let active ← read_active a
  let safe_id ← .ofExcept (migration_id id)
  refuse_if (active.map ActiveFilestoreGeneration.migration_id = some safe_id)
    (.conflict "refusing to delete the active filestore migration manifest")
  let key ← migration_manifest_key a safe_id
  .perform (F := Store) (.delete_object key)
    (Except.mapError (provider_error ("delete " ++ a.key key)))
  .pure key

end ObjectFilestore
