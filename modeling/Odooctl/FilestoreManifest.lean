import Odooctl.PitrRestoreRecord
import Odooctl.ProjectConfiguration

/-!
# The durable manifest of a filestore migration

`FilestoreMigrationManifest` of `metadata/models.py` with its validators, and what
`MetadataStore` requires of a save. SHA-256 is a parameter; timestamps are instants.
-/
namespace FilestoreManifest

open PitrRestoreRecord

abbrev Bytes := List UInt8

/-- One canonical regular file of an inventory. -/
structure FilestoreObjectEntry where
  path : String
  sha256 : String
  size : ℕ
  deriving DecidableEq, Repr

inductive SourceBackend where
  | local_
  | docker_volume
  | posix_object_mount
  deriving DecidableEq, Repr

inductive TargetBackend where
  | object_mirror
  | posix_object_mount
  | odoo_module
  deriving DecidableEq, Repr

/-- `_manifest_document`. -/
structure ManifestDocument where
  migration_id : String
  project : String
  environment : String
  source_backend : SourceBackend
  target_backend : TargetBackend
  module_name : Option String
  previous_active_migration_id : Option String
  inventory_sha256 : String
  total_size : ℕ
  entries : List FilestoreObjectEntry
  deriving DecidableEq, Repr

/-- The document of `active.json`. -/
structure PointerDocument where
  project : String
  environment : String
  migration_id : String
  inventory_sha256 : String
  deriving DecidableEq, Repr

/-- Bytes: canonical JSON is kept as the document that it is the text of. -/
inductive Body where
  | inventory (entries : List FilestoreObjectEntry)
  | manifest (document : ManifestDocument)
  | pointer (document : PointerDocument)
  | content (bytes : Bytes)
  deriving DecidableEq, Repr

/-! ## Validators -/

def isControl (c : Char) : Bool := c.toNat < 32

/-- `_SHA256_RE.fullmatch`. -/
def is_sha256 (value : String) : Bool :=
  value.toList.length = 64 &&
    value.toList.all fun c => ('0' ≤ c && c ≤ '9') || ('a' ≤ c && c ≤ 'f')

def sha256Fault (label value : String) : Option String :=
  if is_sha256 value then none else some s!"{label} must be a lowercase SHA-256 digest"

def artifactPathFault (value : String) : Option String :=
  let parts := (ProjectConfiguration.PosixPath.parse value).parts
  if value = "" ∨ value.toList.head? = some '/' ∨ '\\' ∈ value.toList ∨
      value.toList.any isControl = true then
    some "artifact path must be a safe relative POSIX path"
  else if ".." ∈ parts ∨ (if parts = [] then "." else "/".intercalate parts) ≠ value then
    some "artifact path must be a canonical relative POSIX path"
  else none

def FilestoreObjectEntry.faults (e : FilestoreObjectEntry) : List String :=
  [artifactPathFault e.path, sha256Fault "sha256" e.sha256].reduceOption

def locationFault (label value : String) : Option String :=
  if value.toList.all isSpace ∨ 4096 < value.toList.length ∨ value.toList.any isControl = true then
    some s!"{label} must be a non-empty location of at most 4096 characters without control characters"
  else none

inductive MigrationStatus where
  | planned
  | synced
  | verified
  | cutover
  | failed
  deriving DecidableEq, Repr

def MigrationStatus.text : MigrationStatus → String
  | .planned => "planned"
  | .synced => "synced"
  | .verified => "verified"
  | .cutover => "cutover"
  | .failed => "failed"

/-- The payload of a manifest, before validation. -/
structure MigrationFields where
  migration_id : String
  project : String
  environment : String
  source_backend : SourceBackend
  target_backend : TargetBackend
  source_location : String
  target_location : String
  module_name : Option String := none
  previous_active_migration_id : Option String := none
  entries : List FilestoreObjectEntry
  inventory_sha256 : String
  total_size : ℕ
  created_at : Timestamp
  synced_at : Option Timestamp := none
  verified_at : Option Timestamp := none
  cutover_at : Option Timestamp := none
  source_delete_started_at : Option Timestamp := none
  source_deleted_at : Option Timestamp := none
  status : MigrationStatus := .planned
  source_deleted : Bool := false
  last_error : Option String := none
  deriving DecidableEq, Repr

def total_of (entries : List FilestoreObjectEntry) : ℕ :=
  (entries.map FilestoreObjectEntry.size).sum

section Hash

variable (sha256 : Body → String)

def filestore_inventory_sha256 (entries : List FilestoreObjectEntry) : String :=
  sha256 (.inventory entries)

namespace MigrationFields

/-- The field validators, in the order of the fields. -/
def fieldFaults (m : MigrationFields) : List String :=
  [componentFault "migration_id" m.migration_id,
   labelFault "project" m.project,
   componentFault "environment" m.environment,
   locationFault "source_location" m.source_location,
   locationFault "target_location" m.target_location,
   m.module_name.bind (componentFault "module_name"),
   m.previous_active_migration_id.bind
    (componentFault "previous_active_migration_id")].reduceOption ++
  m.entries.flatMap FilestoreObjectEntry.faults ++
  (sha256Fault "inventory_sha256" m.inventory_sha256).toList

def inventory_and_lifecycle_must_be_consistent (m : MigrationFields) : Option String :=
  if ¬ (m.entries.map FilestoreObjectEntry.path).Pairwise (· < ·) then
    some "filestore entries must be unique and strictly sorted"
  else if total_of m.entries ≠ m.total_size then
    some "filestore total_size does not match entry sizes"
  else if filestore_inventory_sha256 sha256 m.entries ≠ m.inventory_sha256 then
    some "filestore inventory_sha256 does not match its entries"
  else if ¬ (m.target_backend = .odoo_module ↔ m.module_name.isSome = true) then
    some "odoo_module target and module_name must be recorded together"
  else if (m.status = .synced ∨ m.status = .verified ∨ m.status = .cutover) ∧
      m.synced_at = none then
    some s!"{m.status.text} migration requires synced_at"
  else if (m.status = .verified ∨ m.status = .cutover) ∧ m.verified_at = none then
    some s!"{m.status.text} migration requires verified_at"
  else if ¬ (m.status = .cutover ↔ m.cutover_at.isSome = true) then
    some "cutover status and cutover_at must be recorded together"
  else if m.source_deleted ≠ m.source_deleted_at.isSome then
    some "source_deleted and source_deleted_at must be recorded together"
  else if m.source_delete_started_at.isSome = true ∧ m.status ≠ .cutover then
    some "source deletion can start only after completed cutover"
  else if m.source_deleted = true ∧ m.source_delete_started_at = none then
    some "source deletion completion requires its durable start marker"
  else if m.source_deleted = true ∧ m.status ≠ .cutover then
    some "source deletion requires a completed explicit cutover"
  else none

/-- What `model_validate` reports: the model validator runs once the fields are sound. -/
def faults (m : MigrationFields) : List String :=
  match m.fieldFaults with
  | [] => (m.inventory_and_lifecycle_must_be_consistent sha256).toList
  | fs => fs

end MigrationFields

/-- A manifest that its validators accept. -/
structure FilestoreMigrationManifest extends MigrationFields where
  valid : toMigrationFields.faults sha256 = []

variable {sha256}

def model_validate (m : MigrationFields) :
    Except (List String) (FilestoreMigrationManifest sha256) :=
  if h : m.faults sha256 = [] then .ok ⟨m, h⟩ else .error (m.faults sha256)

/-- `_validated_update`: apply the updates to the payload and validate it again. -/
def validated_update (m : FilestoreMigrationManifest sha256)
    (updates : MigrationFields → MigrationFields) :
    Except (List String) (FilestoreMigrationManifest sha256) :=
  model_validate (updates m.toMigrationFields)

theorem model_validate_ok {m : MigrationFields} {m' : FilestoreMigrationManifest sha256}
    (h : model_validate m = .ok m') : m'.toMigrationFields = m := by
  unfold model_validate at h
  split at h
  · rw [← Except.ok.inj h]
  · cases h

theorem faults_eq_nil {m : MigrationFields} : m.faults sha256 = [] ↔
    m.fieldFaults = [] ∧ m.inventory_and_lifecycle_must_be_consistent sha256 = none := by
  unfold MigrationFields.faults
  cases hf : m.fieldFaults with
  | nil => simp
  | cons f fs => simp

/-- What the model validator guarantees of an accepted manifest. -/
structure Consistent (sha256 : Body → String) (m : MigrationFields) : Prop where
  sorted : (m.entries.map FilestoreObjectEntry.path).Pairwise (· < ·)
  total : total_of m.entries = m.total_size
  inventory : filestore_inventory_sha256 sha256 m.entries = m.inventory_sha256
  module : m.target_backend = .odoo_module ↔ m.module_name.isSome = true
  synced : m.status = .synced ∨ m.status = .verified ∨ m.status = .cutover → m.synced_at ≠ none
  verified : m.status = .verified ∨ m.status = .cutover → m.verified_at ≠ none
  cutover : m.status = .cutover ↔ m.cutover_at.isSome = true
  deleted : m.source_deleted = m.source_deleted_at.isSome
  started : m.source_delete_started_at.isSome = true → m.status = .cutover
  completed : m.source_deleted = true → m.source_delete_started_at ≠ none

theorem consistent_iff {m : MigrationFields} :
    m.inventory_and_lifecycle_must_be_consistent sha256 = none ↔ Consistent sha256 m := by
  unfold MigrationFields.inventory_and_lifecycle_must_be_consistent
  constructor
  · intro h
    constructor <;> grind
  · intro h
    rw [if_neg (not_not.mpr h.sorted), if_neg (not_not.mpr h.total),
      if_neg (not_not.mpr h.inventory), if_neg (not_not.mpr h.module),
      if_neg fun k => h.synced k.1 k.2, if_neg fun k => h.verified k.1 k.2,
      if_neg (not_not.mpr h.cutover), if_neg (not_not.mpr h.deleted),
      if_neg fun k => k.2 (h.started k.1), if_neg fun k => h.completed k.1 k.2]
    apply if_neg
    intro ⟨hdeleted, hstatus⟩
    exact hstatus (h.started (Option.isSome_iff_ne_none.mpr (h.completed hdeleted)))

theorem FilestoreMigrationManifest.consistent (m : FilestoreMigrationManifest sha256) :
    Consistent sha256 m.toMigrationFields :=
  consistent_iff.mp (faults_eq_nil.mp m.valid).2

theorem FilestoreMigrationManifest.fields_sound (m : FilestoreMigrationManifest sha256) :
    m.fieldFaults = [] :=
  (faults_eq_nil.mp m.valid).1

/-- An update is accepted if its fields are sound and its lifecycle is consistent. -/
theorem validated_update_ok {m : FilestoreMigrationManifest sha256}
    {updates : MigrationFields → MigrationFields}
    (hf : (updates m.toMigrationFields).fieldFaults = [])
    (hl : Consistent sha256 (updates m.toMigrationFields)) :
    ∃ m', validated_update m updates = .ok m' ∧
      m'.toMigrationFields = updates m.toMigrationFields := by
  have hv : (updates m.toMigrationFields).faults sha256 = [] :=
    faults_eq_nil.mpr ⟨hf, consistent_iff.mpr hl⟩
  exact ⟨⟨_, hv⟩, by simp [validated_update, model_validate, hv], rfl⟩

end Hash

/-- The fields that no later save may change. -/
def MigrationFields.identity (m : MigrationFields) :
    List String × SourceBackend × TargetBackend × List (Option String) :=
  ([m.migration_id, m.project, m.environment, m.source_location, m.target_location,
    m.inventory_sha256], m.source_backend, m.target_backend,
    [m.module_name, m.previous_active_migration_id])

def MigrationFields.document (m : MigrationFields) : ManifestDocument where
  migration_id := m.migration_id
  project := m.project
  environment := m.environment
  source_backend := m.source_backend
  target_backend := m.target_backend
  module_name := m.module_name
  previous_active_migration_id := m.previous_active_migration_id
  inventory_sha256 := m.inventory_sha256
  total_size := m.total_size
  entries := m.entries

end FilestoreManifest
