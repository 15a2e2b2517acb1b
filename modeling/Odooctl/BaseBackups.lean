import Odooctl.CheckedLists
import Odooctl.PitrRestoreRecord
import Odooctl.ProjectConfiguration
import Odooctl.PythonJson
import Odooctl.S3Objects

/-!
# Physical base backups in the archive

Publishing and deleting a base of `adapters/wal_s3.py`: the payload is created before the
completion marker and deleted after it. How Python reads JSON text, numbers and the
texts of other values are parameters.
-/
namespace BaseBackups

open EffectPrograms PythonText PythonJson S3Objects
open PitrRestoreRecord (isSpace)
open ProjectConfiguration (PosixPath)

/-- Python's `json.loads` on UTF-8 text, and `int`, `str` and `==` of other values than
integers and texts. -/
structure Values where
  json_loads : Bytes → Option Json
  int_of : Json → Option ℤ
  str_of : Json → String
  equal : Json → Json → Bool

def Values.int (v : Values) : Json → Option ℤ
  | .int i => some i
  | value => v.int_of value

def Values.str (v : Values) : Json → String
  | .str s => s
  | value => v.str_of value

def Values.eq (v : Values) : Json → Json → Bool
  | .str s, .str t => s = t
  | x, y => v.equal x y

def MAX_MANIFEST_BYTES : ℕ := 8 * 1024 * 1024

abbrev Checked := Except WalS3Error

def integrity {α : Type} (message : String) : Checked α := .error (.integrity message)

/-! ## The manifest -/

structure ArtifactExpectation where
  path : String
  sha256 : String
  size : Option ℕ := none
  deriving DecidableEq, Repr

structure BaseManifest where
  environment : String
  artifacts : List ArtifactExpectation
  deriving DecidableEq, Repr

def isBaseIdChar (c : Char) : Bool := c.isAlphanum || c = '.' || c = '_' || c = '-'

def base_backup_id (value : String) : Checked String :=
  match value.toList with
  | c :: cs =>
    if c.isAlphanum && cs.all isBaseIdChar && cs.length ≤ 191 then .ok value
    else .error (.path "base_backup_id must be one safe path component")
  | [] => .error (.path "base_backup_id must be one safe path component")

def isControl (c : Char) : Bool := c.toNat < 32

def as_posix (parts : List String) : String :=
  if parts = [] then "." else "/".intercalate parts

def relative_path (value : String) : Checked String :=
  let parts := (PosixPath.parse value).parts
  if value = "" ∨ value = "." ∨ value = ".." ∨ value.toList.head? = some '/' ∨
      value.toList.getLast? = some '/' ∨ '\\' ∈ value.toList ∨ '\x00' ∈ value.toList ∨
      parts.any fun part => part = ".." || part.toList.any isControl then
    .error (.path "base artifact path must be a safe relative POSIX path")
  else .ok (as_posix parts)

/-- A value that is absent or `null` is `None`. -/
def present : Option Json → Option Json
  | some .null => none
  | v => v

def digest (value : Option Json) (label : String) : Checked String :=
  match value with
  | some (.str s) =>
    if is_digest s.toLower then .ok s.toLower
    else integrity s!"base manifest has no valid SHA-256 for {label}"
  | _ => integrity s!"base manifest has no valid SHA-256 for {label}"

variable (v : Values) (a : WalS3Adapter)

def artifact_size (value : Option Json) (label : String) : Checked (Option ℕ) :=
  match present value with
  | none => .ok none
  | some (.bool _) => integrity s!"base manifest has an invalid size for {label}"
  | some value =>
    match v.int value with
    | some (.ofNat size) => .ok (some size)
    | _ => integrity s!"base manifest has an invalid size for {label}"

def asItems : Option Json → Checked Items
  | none => .ok []
  | some (.dict items) => .ok items
  | some _ => integrity "base manifest checksums and sizes must be mappings"

/-- `{"path": path, **details}` for a mapping, else `{"path": path, "sha256": details}`. -/
def declared : String × Json → Json
  | (path, .dict details) => .dict (details ++ [("path", .str path)])
  | (path, details) => .dict [("path", .str path), ("sha256", details)]

def declarations (manifest : Items) : Checked (List Json) :=
  match (present (get manifest "artifacts")).or (get manifest "artifact_paths") with
  | some (.dict items) => .ok (items.map declared)
  | some (.list items) => .ok items
  | _ => integrity "base manifest must declare a non-empty artifact collection"

/-- `mapping.get(key, mapping.get(other))`. -/
def getOr (items : Items) (key other : String) : Option Json := (get items key).or (get items other)

def expectation (path : String) (digest_value size_value : Option Json) :
    Checked ArtifactExpectation := do
  if path = BASE_COMPLETION_MARKER then
    integrity "base completion manifest cannot declare itself as payload"
  else
    let sha256 ← digest digest_value path
    let size ← artifact_size v size_value path
    return { path, sha256, size }

def artifact (checksums sizes : Items) : Json → Checked ArtifactExpectation
  | .str item => do
    let path ← relative_path item
    expectation v path (getOr checksums item path) (getOr sizes item path)
  | .dict item => do
    let path ← relative_path (((get item "path").map v.str).getD "")
    expectation v path ((get item "sha256").or (get checksums path))
      ((get item "size").or (get sizes path))
  | _ => integrity "base manifest contains an invalid artifact entry"

def manifest_artifacts (manifest : Items) : Checked (List ArtifactExpectation) := do
  let checksums ← asItems (present (get manifest "checksums"))
  let sizes ← asItems (get manifest "sizes")
  let items ← declarations manifest
  let entries ← items.mapM (artifact v checksums sizes)
  if entries = [] then integrity "base manifest must declare at least one artifact"
  else if ¬ (entries.map ArtifactExpectation.path).Nodup then
    integrity "base manifest declares duplicate artifact paths"
  else return entries.mergeSort fun x y => x.path ≤ y.path

def load_manifest (payload : Bytes) : Checked Items :=
  match v.json_loads payload with
  | none => integrity "base completion manifest is not valid JSON"
  | some (.dict manifest) => .ok manifest
  | some _ => integrity "base completion manifest must be a JSON object"

/-- `if c: raise WalS3IntegrityError(message)`. -/
def reject (c : Prop) [Decidable c] (message : String) : Checked Unit :=
  if c then integrity message else .ok ()

/-- The two names of a base identity. -/
def conflicting (canonical legacy : Option Json) : Bool :=
  match canonical, legacy with
  | some x, some y => !v.eq x y
  | _, _ => false

def manifest_environment (manifest : Items) : Checked String :=
  match get manifest "environment" with
  | some (.str environment) =>
    if environment.toList.all isSpace then
      integrity "base completion manifest has no environment"
    else .ok environment
  | _ => integrity "base completion manifest has no environment"

def parse_base_manifest (payload : Bytes) (base_backup_id : String) : Checked BaseManifest := do
  let manifest ← load_manifest v payload
  let canonical_id := present (get manifest "base_backup_id")
  let legacy_id := present (get manifest "base_id")
  reject (conflicting v canonical_id legacy_id = true)
    "base completion manifest has conflicting base identities"
  reject ((canonical_id.or legacy_id).bind Json.asStr ≠ some base_backup_id)
    "base completion manifest identity does not match its key"
  reject (holds manifest "project" a.project = false)
    "base completion manifest project does not match archive scope"
  reject (holds manifest "cluster_id" a.cluster_id = false)
    "base completion manifest cluster does not match archive scope"
  reject (((get manifest "system_identifier").map v.str).getD "" ≠ a.system_identifier)
    "base completion manifest system identifier does not match archive scope"
  let environment ← manifest_environment manifest
  reject (holds manifest "status" "complete" = false)
    "base completion manifest status must be 'complete'"
  let artifacts ← manifest_artifacts v manifest
  return { environment, artifacts }

section Parsed

variable {v a}

theorem is_digest_of_digest {value : Option Json} {label d : String}
    (h : digest value label = .ok d) : is_digest d = true := by
  unfold digest at h
  split at h
  · split at h
    · cases h
      assumption
    · cases h
  · cases h

theorem expectation_digest {path : String} {d n : Option Json} {e : ArtifactExpectation}
    (h : expectation v path d n = .ok e) : is_digest e.sha256 = true := by
  unfold expectation at h
  split at h
  · cases h
  · obtain ⟨sha256, hsha, h⟩ := CheckedLists.bind_eq_ok.mp h
    obtain ⟨size, _, h⟩ := CheckedLists.bind_eq_ok.mp h
    cases h
    exact is_digest_of_digest hsha

theorem artifact_digest {checksums sizes : Items} {item : Json} {e : ArtifactExpectation}
    (h : artifact v checksums sizes item = .ok e) : is_digest e.sha256 = true := by
  cases item with
  | str s =>
    obtain ⟨path, _, h⟩ := CheckedLists.bind_eq_ok.mp h
    exact expectation_digest h
  | dict d =>
    obtain ⟨path, _, h⟩ := CheckedLists.bind_eq_ok.mp h
    exact expectation_digest h
  | null | bool | int | float | list => cases h

/-- The digests of a manifest that was accepted are digests. -/
theorem manifest_digests {payload : Bytes} {id : String} {m : BaseManifest}
    (h : parse_base_manifest v a payload id = .ok m) :
    ∀ e ∈ m.artifacts, is_digest e.sha256 = true := by
  obtain ⟨manifest, _, h⟩ := CheckedLists.bind_eq_ok.mp h
  obtain ⟨_, _, h⟩ := CheckedLists.bind_eq_ok.mp h
  obtain ⟨_, _, h⟩ := CheckedLists.bind_eq_ok.mp h
  obtain ⟨_, _, h⟩ := CheckedLists.bind_eq_ok.mp h
  obtain ⟨_, _, h⟩ := CheckedLists.bind_eq_ok.mp h
  obtain ⟨_, _, h⟩ := CheckedLists.bind_eq_ok.mp h
  obtain ⟨environment, _, h⟩ := CheckedLists.bind_eq_ok.mp h
  obtain ⟨_, _, h⟩ := CheckedLists.bind_eq_ok.mp h
  obtain ⟨artifacts, hartifacts, h⟩ := CheckedLists.bind_eq_ok.mp h
  cases h
  obtain ⟨checksums, _, hartifacts⟩ := CheckedLists.bind_eq_ok.mp hartifacts
  obtain ⟨sizes, _, hartifacts⟩ := CheckedLists.bind_eq_ok.mp hartifacts
  obtain ⟨items, _, hartifacts⟩ := CheckedLists.bind_eq_ok.mp hartifacts
  obtain ⟨entries, hentries, hartifacts⟩ := CheckedLists.bind_eq_ok.mp hartifacts
  split at hartifacts
  · cases hartifacts
  · split at hartifacts
    · cases hartifacts
    · cases hartifacts
      intro e he
      have he : e ∈ entries := List.mem_mergeSort.mp he
      obtain ⟨item, _, hitem⟩ :=
        CheckedLists.exists_of_mem_right (CheckedLists.mapM_eq_ok.mp hentries) he
      exact artifact_digest hitem

end Parsed

/-! ## The local base -/

/-- The regular files of a base directory by normalised relative path, in order; its
manifest is read by name first. -/
structure LocalBase where
  manifest : Option Bytes
  files : Checked (List (String × Bytes))
  normalised : ∀ fs, files = .ok fs → ∀ f ∈ fs, relative_path f.1 = .ok f.1

def payload_files (files : List (String × Bytes)) : List (String × Bytes) :=
  files.filter fun f => f.1 ≠ BASE_COMPLETION_MARKER

def sortedNames (names : List String) : List String := names.mergeSort (· ≤ ·)

/-- `sorted(expected - found)` and `sorted(found - expected)`. -/
def differences (expected found : List String) : List String × List String :=
  (sortedNames (expected.filter (· ∉ found)), sortedNames (found.filter (· ∉ expected)))

def differenceText (d : List String × List String) : String :=
  "; ".intercalate
    ((if d.1 = [] then [] else ["missing: " ++ ", ".intercalate d.1]) ++
      (if d.2 = [] then [] else ["unexpected: " ++ ", ".intercalate d.2]))

def check_local_artifact (files : List (String × Bytes)) (artifact : ArtifactExpectation) :
    Checked Unit := do
  let body := (files.lookup artifact.path).getD []
  reject (∃ size ∈ artifact.size, body.length ≠ size)
    s!"local base artifact {quoted artifact.path} size does not match"
  reject (a.sha256 body ≠ artifact.sha256)
    s!"local base artifact {quoted artifact.path} checksum does not match"

def check_local_artifacts (files : List (String × Bytes)) : List ArtifactExpectation → Checked Unit
  | [] => .ok ()
  | artifact :: artifacts => do
    check_local_artifact a files artifact
    check_local_artifacts files artifacts

def validate_local_base (dir : LocalBase) (manifest : BaseManifest) : Checked Unit := do
  let files ← dir.files.map payload_files
  let d := differences (manifest.artifacts.map ArtifactExpectation.path) (files.map Prod.fst)
  reject (d ≠ ([], []))
    s!"local base payload does not match its manifest ({differenceText d})"
  check_local_artifacts a files manifest.artifacts

/-! ## Publishing -/

def checked {α : Type} (r : Checked α) : S3M α := .ofExcept r

def put_payload (id : String) : List (String × Bytes) → S3M (List ImmutableObjectReceipt)
  | [] => .pure []
  | (relative, body) :: rest => do
    let path ← checked (relative_path relative)
    let receipt ← put_bytes_immutable a body (.base id path)
    let receipts ← put_payload id rest
    .pure (receipt :: receipts)

def upload_base_payload (id : String) (dir : LocalBase) : S3M (List ImmutableObjectReceipt) := do
  let safe_id ← checked (base_backup_id id)
  let files ← checked dir.files
  put_payload a safe_id (payload_files files)

def list_base (id : String) : S3M (List String) :=
  .perform (F := S3) (.list_base id)
    (Except.mapError (provider_error ("list " ++ a.scope_prefix ++ "/bases/" ++ id ++ "/")))

def verify_artifacts (id : String) : List ArtifactExpectation → S3M (List WalObjectInfo)
  | [] => .pure []
  | artifact :: artifacts => do
    let read ← read_verified a (.base id artifact.path) (some artifact.sha256) artifact.size none
    let infos ← verify_artifacts id artifacts
    .pure (read.1 :: infos)

structure BaseBackupReceipt where
  base_backup_id : String
  uri : String
  manifest : WalObjectInfo
  objects : List WalObjectInfo
  idempotent : Bool := false

def inventoryText (id : String) (d : List String × List String) : String :=
  let text := fun path => a.key (.base id path)
  differenceText (d.1.map text, d.2.map text)

def inspect_base (id : String) : S3M (WalObjectInfo × BaseManifest × List WalObjectInfo) := do
  let safe_id ← checked (base_backup_id id)
  let read ← read_verified a (marker safe_id) none none (some MAX_MANIFEST_BYTES)
  let manifest ← checked (parse_base_manifest v a read.2 safe_id)
  let listed ← list_base a safe_id
  let d := differences (BASE_COMPLETION_MARKER :: manifest.artifacts.map ArtifactExpectation.path)
    listed
  refuse_if (d ≠ ([], [])) (.integrity ("base backup object inventory does not match its " ++
    s!"manifest ({inventoryText a safe_id d})"))
  let infos ← verify_artifacts a safe_id manifest.artifacts
  .pure (read.1, manifest, infos)

def verify_base_backup (id : String) : S3M BaseBackupReceipt := do
  let inspected ← inspect_base v a id
  .pure
    { base_backup_id := id
      uri := s!"s3://{a.bucket_name}/{a.scope_prefix}/bases/{id}"
      manifest := inspected.1
      objects := inspected.2.2 }

/-- A marker that this call created does not advertise a base that fails its verification. -/
def verified (id : String) (receipt : ImmutableObjectReceipt) :
    Except WalS3Error BaseBackupReceipt → S3M BaseBackupReceipt
  | .ok base => .pure { base with idempotent := receipt.idempotent }
  | .error e =>
    if receipt.idempotent then .raise e
    else do
      delete_owned_key a (marker id)
      .raise e

def publish_base_manifest (id : String) (source : Bytes) : S3M BaseBackupReceipt := do
  let safe_id ← checked (base_backup_id id)
  refuse_if (MAX_MANIFEST_BYTES < source.length)
    (.integrity "base completion manifest exceeds the size limit")
  let manifest ← checked (parse_base_manifest v a source safe_id)
  let _ ← verify_artifacts a safe_id manifest.artifacts
  let listed ← list_base a safe_id
  let expected := manifest.artifacts.map ArtifactExpectation.path
  refuse_if (differences expected listed ≠ ([], []) ∧
      differences (BASE_COMPLETION_MARKER :: expected) listed ≠ ([], []))
    (.integrity ("refusing to publish a base manifest over an unexpected or incomplete " ++
      "object inventory"))
  let receipt ← put_bytes_immutable a source (marker safe_id)
  let outcome ← (verify_base_backup v a safe_id).attempt
  verified a safe_id receipt outcome

def upload_base_backup (id : String) (dir : LocalBase) : S3M BaseBackupReceipt := do
  let safe_id ← checked (base_backup_id id)
  let source ← checked (dir.manifest.elim
    (integrity s!"base backup is missing root {BASE_COMPLETION_MARKER}") .ok)
  -- an invalid manifest is rejected before there is orphan payload
  let manifest ← checked (parse_base_manifest v a source safe_id)
  checked (validate_local_base a dir manifest)
  let _ ← upload_base_payload a safe_id dir
  publish_base_manifest v a safe_id source

/-! ## Deleting -/

/-- `_assert_owned_key` and `_relative_path` on a listed key. -/
def listed_path (relative : String) : Checked String :=
  let segments := (relative.toList.splitOn '/').map String.ofList
  if '\\' ∈ relative.toList ∨ '\x00' ∈ relative.toList ∨ segments.any fun part =>
      part = "" || part = "." || part = ".." || part.toList.any isControl then
    .error (.path "S3 object key has unsafe path segments")
  else do
    let _ ← relative_path relative
    return relative

/-- `if before_delete is not None: before_delete(key)`. -/
def before_delete (renewing : Bool) (key : Key) : S3M Unit :=
  if renewing then .perform (F := S3) (.before_delete key) (Except.mapError .provider)
  else .pure ()

def delete_keys (renewing : Bool) : List Key → S3M Unit
  | [] => .pure ()
  | key :: keys => do
    before_delete renewing key
    delete_owned_key a key
    delete_keys renewing keys

/-- Unpublish, then delete one validated base backup. `renewing` says whether the caller
renews its lease before every delete. -/
def delete_base_backup (id : String) (renewing : Bool) : S3M (List Key) := do
  let safe_id ← checked (base_backup_id id)
  let listed ← list_base a safe_id
  let paths ← checked (listed.mapM listed_path)
  let payload := (sortedNames (paths.filter (· ≠ BASE_COMPLETION_MARKER))).dedup
  let ordered := marker safe_id :: payload.map (Key.base safe_id)
  delete_keys a renewing ordered
  .pure ordered

def list_base_backups : S3M (List String) :=
  .perform (F := S3) .list_markers
    (Except.mapError (provider_error ("list " ++ a.scope_prefix ++ "/bases/")))

/-- Retention deletes a base whose marker it has listed. -/
def retire (id : String) (renewing : Bool) : S3M (List Key) := do
  let completed ← list_base_backups a
  if id ∈ completed then delete_base_backup a id renewing
  else .pure []

end BaseBackups
