import Odooctl.FilestoreMigration
import Odooctl.PitrArchive

/-!
# Recovery records and their identity

The saves of `metadata/store.py` that `_guard_existing_pitr_identity` guards. A path holds a
record that was written, any other text, or something that is no regular file; what a call meets
on the way comes with the call.
-/
namespace RecoveryRecords

open CheckedLists (bind_eq_ok)
open FilestoreManifest (FilestoreMigrationManifest SourceBackend TargetBackend)
open FilestoreMigration (safe_backup_component)
open PitrArchive (PitrBaseBackupManifest PitrRecoveryPlan)
open PitrRestoreRecord (PitrRestoreMetadata is_safe_pitr_component)
open PythonText (quoted)

/-! ## The records -/

inductive Kind where
  | filestore_migration
  | pitr_base
  | pitr_plan
  | pitr_restore
  deriving DecidableEq, Repr

variable {sha256 : FilestoreManifest.Body → String}

abbrev Record (sha256 : FilestoreManifest.Body → String) : Kind → Type
  | .filestore_migration => FilestoreMigrationManifest sha256
  | .pitr_base => PitrBaseBackupManifest
  | .pitr_plan => PitrRecoveryPlan
  | .pitr_restore => PitrRestoreMetadata

def Kind.class_name : Kind → String
  | .filestore_migration => "FilestoreMigrationManifest"
  | .pitr_base => "PitrBaseBackupManifest"
  | .pitr_plan => "PitrRecoveryPlan"
  | .pitr_restore => "PitrRestoreMetadata"

def Kind.directory : Kind → String
  | .filestore_migration => "filestore/migrations"
  | .pitr_base => "pitr/base"
  | .pitr_plan => "pitr/plans"
  | .pitr_restore => "pitr/restores"

/-- The field that names the file. -/
def recordId : (k : Kind) → Record sha256 k → String
  | .filestore_migration, m => m.migration_id
  | .pitr_base, m => m.base_backup_id
  | .pitr_plan, m => m.plan_id
  | .pitr_restore, m => m.restore_id

abbrev Identity : Kind → Type
  | .filestore_migration =>
    List String × SourceBackend × TargetBackend × List (Option String)
  | .pitr_base | .pitr_plan | .pitr_restore => List String

instance : (k : Kind) → DecidableEq (Identity k)
  | .filestore_migration =>
    inferInstanceAs (DecidableEq (List String × SourceBackend × TargetBackend ×
      List (Option String)))
  | .pitr_base | .pitr_plan | .pitr_restore => inferInstanceAs (DecidableEq (List String))

/-- The values of the `identity_fields`. -/
def identity : (k : Kind) → Record sha256 k → Identity k
  | .filestore_migration, m => m.identity
  | .pitr_base, m => [m.base_backup_id, m.project, m.environment, m.cluster_id, m.system_identifier]
  | .pitr_plan, m =>
    [m.plan_id, m.project, m.environment, m.cluster_id, m.system_identifier, m.base_backup_id]
  | .pitr_restore, m => m.identity

def safe_pitr_component (value label : String) : Except String String :=
  if is_safe_pitr_component value = false then .error s!"{label} contains unsupported characters"
  else .ok value

def safeId : Kind → String → Except String String
  | .filestore_migration, value => safe_backup_component value "migration_id"
  | .pitr_base, value => safe_pitr_component value "base_backup_id"
  | .pitr_plan, value => safe_pitr_component value "plan_id"
  | .pitr_restore, value => safe_pitr_component value "restore_id"

/-! ## The store -/

inductive Body (sha256 : FilestoreManifest.Body → String) (k : Kind) where
  | written (record : Record sha256 k)
  | text (t : String)

inductive Node (sha256 : FilestoreManifest.Body → String) (k : Kind) where
  | file (body : Body sha256 k)
  | link (resolves : Bool)
  | other

/-- What stands in the directory of each kind, by the stem of its name. -/
abbrev Store (sha256 : FilestoreManifest.Body → String) :=
  (k : Kind) → String → Option (Node sha256 k)

inductive StoreFailure where
  | value (message : String)
  | runtime (message : String)
  | os (message : String)
  deriving DecidableEq, Repr

/-- How `_write_atomic` ends: a fault comes before the file is replaced, or after. -/
inductive Writing where
  | done
  | failed (message : String)
  | failed_after (message : String)
  deriving DecidableEq, Repr

/-- What a call meets: a fault of its read, and the end of its write. -/
structure Circumstances where
  read_fault : Option String
  writing : Writing

/-- The root of the store, and `model_validate_json` on a text that was not written here. -/
structure Setting (sha256 : FilestoreManifest.Body → String) where
  root : String
  model_validate_json : (k : Kind) → String → Except String (Record sha256 k)

variable (w : Setting sha256)

def pathText (k : Kind) (id : String) : String := s!"{w.root}/{k.directory}/{id}.json"

def validate (k : Kind) : Body sha256 k → Except String (Record sha256 k)
  | .written record => .ok record
  | .text t => w.model_validate_json k t

def load_pitr_model (c : Circumstances) (k : Kind) (id : String) :
    Option (Node sha256 k) → Except StoreFailure (Record sha256 k)
  | none | some (.link false) => .error (.runtime s!"{k.class_name} not found: {id}")
  | some (.link true) | some .other =>
    .error (.runtime s!"{k.class_name} is not a regular file: {pathText w k id}")
  | some (.file body) =>
    let read : Except String (Record sha256 k) := match c.read_fault with
      | some exc => .error exc
      | none => validate w k body
    read.mapError fun exc => .runtime s!"{k.class_name} is invalid: {pathText w k id}: {exc}"

def guard_existing_pitr_identity (c : Circumstances) (k : Kind) (candidate : Record sha256 k)
    (node : Option (Node sha256 k)) : Except StoreFailure Unit :=
  match node with
  | none => .ok ()
  | some node => do
    let current ← load_pitr_model w c k (recordId k candidate) (some node)
    if identity k current ≠ identity k candidate then
      .error (.runtime (k.class_name ++ " identity conflict at " ++
        quoted (recordId k candidate ++ ".json")))
    else .ok ()

def Store.put (s : Store sha256) (k : Kind) (record : Record sha256 k) : Store sha256 :=
  Function.update s k
    (Function.update (s k) (recordId k record) (some (.file (.written record))))

/-- Whether the guard lets the record be written. -/
def admitted (c : Circumstances) (k : Kind) (record : Record sha256 k) (s : Store sha256) :
    Except StoreFailure Unit := do
  let safe_id ← (safeId k (recordId k record)).mapError .value
  guard_existing_pitr_identity w c k record (s k safe_id)

/-- The body that the four saves share: what is returned or raised, and the files after it. -/
def save (c : Circumstances) (k : Kind) (record : Record sha256 k) (s : Store sha256) :
    Except StoreFailure String × Store sha256 :=
  match admitted w c k record s, c.writing with
  | .error e, _ => (.error e, s)
  | .ok _, .done => (.ok (pathText w k (recordId k record)), s.put k record)
  | .ok _, .failed message => (.error (.os message), s)
  | .ok _, .failed_after message => (.error (.os message), s.put k record)

def save_filestore_migration (c : Circumstances) (manifest : FilestoreMigrationManifest sha256) :=
  save w c .filestore_migration manifest

def save_pitr_base_manifest (c : Circumstances) (manifest : PitrBaseBackupManifest) :=
  save w c .pitr_base manifest

def save_pitr_recovery_plan (c : Circumstances) (plan : PitrRecoveryPlan) :=
  save w c .pitr_plan plan

def save_pitr_restore (c : Circumstances) (metadata : PitrRestoreMetadata) :=
  save w c .pitr_restore metadata

inductive SaveCall (sha256 : FilestoreManifest.Body → String) where
  | filestore_migration (manifest : FilestoreMigrationManifest sha256)
  | pitr_base (manifest : PitrBaseBackupManifest)
  | pitr_plan (plan : PitrRecoveryPlan)
  | pitr_restore (metadata : PitrRestoreMetadata)

def perform (c : Circumstances) (s : Store sha256) :
    SaveCall sha256 → Except StoreFailure String × Store sha256
  | .filestore_migration manifest => save_filestore_migration w c manifest s
  | .pitr_base manifest => save_pitr_base_manifest w c manifest s
  | .pitr_plan plan => save_pitr_recovery_plan w c plan s
  | .pitr_restore metadata => save_pitr_restore w c metadata s

/-- The files after a sequence of calls. -/
def run (calls : List (Circumstances × SaveCall sha256)) (s : Store sha256) : Store sha256 :=
  calls.foldl (fun s call => (perform w call.1 s call.2).2) s

def SaveCall.kind : SaveCall sha256 → Kind
  | .filestore_migration _ => .filestore_migration
  | .pitr_base _ => .pitr_base
  | .pitr_plan _ => .pitr_plan
  | .pitr_restore _ => .pitr_restore

def SaveCall.record : (call : SaveCall sha256) → Record sha256 call.kind
  | .filestore_migration manifest => manifest
  | .pitr_base manifest => manifest
  | .pitr_plan plan => plan
  | .pitr_restore metadata => metadata

/-- What the file of that name says, where it can be read at all. -/
def Stored (s : Store sha256) (k : Kind) (id : String) (record : Record sha256 k) : Prop :=
  ∃ body, s k id = some (.file body) ∧ validate w k body = .ok record

/-! ## One save -/

section Save

variable {w} {c : Circumstances} {k j : Kind} {s t : Store sha256} {id : String}
  {record current : Record sha256 k} {r : Record sha256 j}

theorem perform_eq (c : Circumstances) (s : Store sha256) (call : SaveCall sha256) :
    perform w c s call = save w c call.kind call.record s := by
  cases call <;> rfl

theorem put_self (s : Store sha256) (k : Kind) (record : Record sha256 k) :
    s.put k record k (recordId k record) = some (.file (.written record)) := by
  rw [Store.put, Function.update_self, Function.update_self]

theorem put_of_ne (h : j = k → id ≠ recordId k record) : s.put k record j id = s j id := by
  rw [Store.put]
  by_cases hj : j = k
  · subst hj
    rw [Function.update_self, Function.update_of_ne (h rfl)]
  · rw [Function.update_of_ne hj]

theorem safeId_ok {value safe : String}
    (h : (safeId k value).mapError StoreFailure.value = .ok safe) : safe = value := by
  have hsafe : safeId k value = .ok safe := by
    cases hid : safeId k value with
    | error e =>
      rw [hid] at h
      cases h
    | ok v =>
      rw [hid] at h
      cases h
      rfl
  cases k with
  | filestore_migration =>
    rw [safeId, safe_backup_component] at hsafe
    split at hsafe
    · cases hsafe
    · exact (Except.ok.inj hsafe).symm
  | pitr_base | pitr_plan | pitr_restore =>
    rw [safeId, safe_pitr_component] at hsafe
    split at hsafe
    · cases hsafe
    · exact (Except.ok.inj hsafe).symm

/-- The guard lets a record pass where nothing stands, or a record of the same identity. -/
theorem admitted_ok (h : admitted w c k record s = .ok ())
    (hstored : Stored w s k (recordId k record) current) :
    identity k current = identity k record := by
  obtain ⟨safe, hsafe, h⟩ := bind_eq_ok.mp h
  rw [safeId_ok hsafe] at h
  obtain ⟨body, hnode, hvalid⟩ := hstored
  rw [hnode, guard_existing_pitr_identity] at h
  obtain ⟨found, hfound, h⟩ := bind_eq_ok.mp h
  rw [load_pitr_model] at hfound
  cases hfault : c.read_fault with
  | some exc =>
    simp only [hfault] at hfound
    cases hfound
  | none =>
    simp only [hfault, hvalid] at hfound
    cases hfound
    split at h
    · cases h
    · next heq => exact not_not.mp heq

/-- What one save does: nothing, or it writes its own record where the guard lets it. -/
theorem save_cases (w : Setting sha256) (c : Circumstances) (k : Kind) (record : Record sha256 k)
    (s : Store sha256) :
    (save w c k record s).2 = s ∧ (∃ e, (save w c k record s).1 = .error e) ∨
      (save w c k record s).2 = s.put k record ∧ admitted w c k record s = .ok () := by
  rw [save]
  cases hadmitted : admitted w c k record s with
  | error e => exact .inl ⟨rfl, e, rfl⟩
  | ok u =>
    cases c.writing with
    | done => exact .inr ⟨rfl, rfl⟩
    | failed message => exact .inl ⟨rfl, _, rfl⟩
    | failed_after message => exact .inr ⟨rfl, rfl⟩

theorem stored_unique {record' : Record sha256 k} (h : Stored w s k id record)
    (h' : Stored w s k id record') : record' = record := by
  obtain ⟨body, hnode, hvalid⟩ := h
  obtain ⟨body', hnode', hvalid'⟩ := h'
  rw [hnode] at hnode'
  cases hnode'
  rw [hvalid] at hvalid'
  exact (Except.ok.inj hvalid').symm

theorem put_stored (s : Store sha256) (k : Kind) (record : Record sha256 k) :
    Stored w (s.put k record) k (recordId k record) record :=
  ⟨.written record, put_self s k record, rfl⟩

/-- A save keeps the identity of every stored record. -/
theorem save_keeps (h : Stored w s j id r) :
    ∃ r', Stored w (save w c k record s).2 j id r' ∧ identity j r' = identity j r := by
  rcases save_cases w c k record s with ⟨heq, -⟩ | ⟨heq, hadmitted⟩
  · rw [heq]
    exact ⟨r, h, rfl⟩
  · rw [heq]
    by_cases hj : j = k
    · subst hj
      by_cases hid : id = recordId j record
      · subst hid
        exact ⟨record, put_stored s j record, (admitted_ok hadmitted h).symm⟩
      · obtain ⟨body, hnode, hvalid⟩ := h
        exact ⟨r, ⟨body, by rw [put_of_ne fun _ => hid, hnode], hvalid⟩, rfl⟩
    · obtain ⟨body, hnode, hvalid⟩ := h
      exact ⟨r, ⟨body, by rw [put_of_ne fun heq => absurd heq hj, hnode], hvalid⟩, rfl⟩

/-- A save whose record would change the identity of the stored one raises and writes nothing. -/
theorem save_conflict (h : Stored w s k (recordId k record) current)
    (hne : identity k current ≠ identity k record) :
    (∃ e, (save w c k record s).1 = .error e) ∧ (save w c k record s).2 = s := by
  rcases save_cases w c k record s with ⟨heq, herror⟩ | ⟨-, hadmitted⟩
  · exact ⟨herror, heq⟩
  · exact absurd (admitted_ok hadmitted h) hne

/-- A save leaves every file alone but the one that the record's own id names. -/
theorem save_others (h : j = k → id ≠ recordId k record) :
    (save w c k record s).2 j id = s j id := by
  rcases save_cases w c k record s with ⟨heq, -⟩ | ⟨heq, -⟩
  · rw [heq]
  · rw [heq, put_of_ne h]

theorem save_own {path : String} (h : (save w c k record s).1 = .ok path) :
    Stored w (save w c k record s).2 k (recordId k record) record := by
  rcases save_cases w c k record s with ⟨-, e, herror⟩ | ⟨heq, -⟩
  · rw [herror] at h
    cases h
  · rw [heq]
    exact put_stored s k record

end Save

/-! ## Sequences of saves -/

section Runs

variable {w : Setting sha256} {s : Store sha256} {k : Kind} {id : String} {record : Record sha256 k}

theorem run_keeps (calls : List (Circumstances × SaveCall sha256)) (h : Stored w s k id record) :
    ∃ record', Stored w (run w calls s) k id record' ∧ identity k record' = identity k record := by
  induction calls generalizing s record with
  | nil => exact ⟨record, h, rfl⟩
  | cons call calls ih =>
    rw [run, List.foldl_cons, ← run]
    obtain ⟨next, hnext, hfirst⟩ : ∃ next, Stored w (perform w call.1 s call.2).2 k id next ∧
        identity k next = identity k record := by
      rw [perform_eq]
      exact save_keeps h
    obtain ⟨last, hlast, hrest⟩ := ih hnext
    exact ⟨last, hlast, hrest.trans hfirst⟩

/-- Through every sequence of saves a stored record keeps its identity; and after every sequence
a save that would change it raises and leaves all files as they are, one that succeeds has stored
its record under the id in it, and none touches a file that another id names. -/
theorem recovery_identity_immutable (w : Setting sha256) (s : Store sha256)
    (calls : List (Circumstances × SaveCall sha256)) :
    (∀ k id record, Stored w s k id record →
      ∃ record', Stored w (run w calls s) k id record' ∧
        identity k record' = identity k record) ∧
    ∀ c call, let t := run w calls s
      (∀ current, Stored w t call.kind (recordId call.kind call.record) current →
        identity call.kind current ≠ identity call.kind call.record →
        (∃ e, (perform w c t call).1 = .error e) ∧ (perform w c t call).2 = t) ∧
      (∀ path, (perform w c t call).1 = .ok path →
        Stored w (perform w c t call).2 call.kind (recordId call.kind call.record) call.record) ∧
      ∀ k id, (k = call.kind → id ≠ recordId call.kind call.record) →
        (perform w c t call).2 k id = t k id := by
  refine ⟨fun k id record h => run_keeps calls h, fun c call => ?_⟩
  simp only [perform_eq]
  exact ⟨fun current h hne => save_conflict h hne, fun path h => save_own h,
    fun k id h => save_others h⟩

end Runs

end RecoveryRecords
