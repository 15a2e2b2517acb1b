import Odooctl.BackupRetention
import Odooctl.FilestoreMigration
import Odooctl.ProgramRules

/-!
# Pruning local backups

`prune_backups_gfs` of `services/backup.py` with `synchronize_backup_manifests` of
`metadata/store.py`, over the backup directory and the metadata's index of it.
-/
namespace BackupPruning

open BackupManifests BackupRetention EffectPrograms PeriodSelection ProgramRules
open FilestoreMigration (safe_backup_component)
open PitrRestoreRecord (Timestamp)
open PitrRetention (compareKey perm_newestFirst sorted_newestFirst eq_of_compareKey)
open PythonText

/-- What the pass asks of its environment; a directory or an index file is known by its
name. -/
inductive PruneCall where
  | iterdir
  | utc_now
  | index_files
  | unlink (name : String)
  | write_atomic (name : String) (manifest : BackupManifest)
  | fsync_directory
  | remove_tree (path : String)
  deriving DecidableEq, Repr

def PruneCall.Answer : PruneCall → Type
  | .iterdir => List BackupDirectory
  | .utc_now => Timestamp
  | .index_files => List (String × Body)
  | _ => Unit

abbrev PruneCalls : Interface := ⟨PruneCall, fun o => Except String o.Answer⟩

abbrev PruneM := Prog PruneCalls String

def ask (o : PruneCall) : PruneM o.Answer := .perform o id

def unlink (name : String) : PruneM Unit := ask (.unlink name)

def write_atomic (name : String) (manifest : BackupManifest) : PruneM Unit :=
  ask (.write_atomic name manifest)

def fsync_directory : PruneM Unit := ask .fsync_directory

/-! ## The metadata index -/

/-- `glob("*.json")` without the latest pointers. -/
def isIndexFile (name : String) : Bool :=
  ".json".toList.isSuffixOf name.toList && !"-latest.json".toList.isSuffixOf name.toList

def latestName (environment : String) : String := environment ++ "-latest.json"

variable (f : Formats) (now : Timestamp)

/-- `desired`, in the order of insertion. -/
def desired_manifests (environment : String) :
    List (String × BackupManifest) → List BackupManifest →
      Except String (List (String × BackupManifest))
  | desired, [] => .ok desired
  | desired, manifest :: rest => do
    if manifest.environment ≠ environment then
      .error s!"Backup {quoted manifest.backup_id} belongs to environment {quoted manifest.environment}, not {quoted environment}"
    else
      let safe_id ← safe_backup_component manifest.backup_id "backup_id"
      if (desired.lookup safe_id).isSome then .error s!"Duplicate backup manifest id: {safe_id}"
      else desired_manifests environment (desired ++ [(safe_id, manifest)]) rest

/-- Whether an index file is of the environment and of a backup that is no longer there. -/
def isStale (environment : String) (desired : List (String × BackupManifest)) (text : Body) :
    Bool :=
  match f.model_validate_json now text with
  | .ok existing => existing.environment = environment && (desired.lookup existing.backup_id).isNone
  | .error _ => false

def unlink_if_stale (environment : String) (desired : List (String × BackupManifest))
    (name : String) (text : Body) : PruneM Unit :=
  if isIndexFile name ∧ isStale f now environment desired text then unlink name
  else .pure ()

def unlink_stale (environment : String) (desired : List (String × BackupManifest)) :
    List (String × Body) → PruneM Unit
  | [] => .pure ()
  | (name, text) :: rest => do
    unlink_if_stale f now environment desired name text
    unlink_stale environment desired rest

def write_desired : List (String × BackupManifest) → PruneM Unit
  | [] => .pure ()
  | (backup_id, manifest) :: rest => do
    write_atomic (backup_id ++ ".json") manifest
    write_desired rest

/-- `max(desired, key=...)`. -/
def newest_desired : List (String × BackupManifest) → Option String
  | [] => none
  | (backup_id, manifest) :: rest =>
    match newest_desired rest with
    | none => some backup_id
    | some other =>
      if ((rest.lookup other).map BackupManifest.timestamp).any fun time =>
          manifest.timestamp < time ∨ manifest.timestamp = time ∧ backup_id < other then
        some other
      else some backup_id

def write_latest (environment : String) (desired : List (String × BackupManifest))
    (latest_backup_id : Option String) : PruneM Unit := do
  let latest := latest_backup_id.getD ((newest_desired desired).getD "")
  let safe_latest_id ← .ofExcept (safe_backup_component latest "latest_backup_id")
  match desired.lookup safe_latest_id with
  | none => .raise s!"Latest backup {quoted safe_latest_id} is not retained"
  | some manifest => write_atomic (latestName environment) manifest

/-- The latest pointer goes with the last manifest. -/
def settle_latest (environment : String) (desired : List (String × BackupManifest))
    (latest_backup_id : Option String) : PruneM Unit :=
  if desired = [] then do
    unlink (latestName environment)
    fsync_directory
  else write_latest environment desired latest_backup_id

def synchronize_backup_manifests (environment : String) (manifests : List BackupManifest)
    (latest_backup_id : Option String) : PruneM Unit := do
  let safe_environment ← .ofExcept (safe_backup_component environment "environment")
  let desired ← .ofExcept (desired_manifests safe_environment [] manifests)
  let files ← ask .index_files
  unlink_stale f now safe_environment desired files
  write_desired desired
  settle_latest safe_environment desired latest_backup_id

/-! ## The pass -/

structure PruneRequest where
  environment : String
  daily : ℤ
  weekly : ℤ
  monthly : ℤ
  project : String
  metadata_store : Bool := false
  keep_latest : Bool := true
  protected_backup_ids : List String := []
  latest_backup_id : Option String := none
  grace_hours : ℤ := 0
  now : Option Timestamp := none

variable (request : PruneRequest)

def current_time : PruneM Timestamp :=
  match request.now with
  | some t => .pure t
  | none => ask .utc_now

/-- `fresh_cutoff`, where there is a grace period. -/
def fresh_cutoff : PruneM (Option Timestamp) :=
  if request.grace_hours > 0 then do
    let current ← current_time request
    let cutoff ← .ofExcept (hours_before current request.grace_hours.toNat)
    .pure (some cutoff)
  else .pure none

/-- `retained_ids`. -/
def retained_ids (cutoff : Option Timestamp) (candidates : List BackupCandidate) : List String :=
  (select_gfs_candidates request.daily request.weekly request.monthly request.keep_latest
      candidates).map BackupCandidate.id ++
    request.protected_backup_ids ++
    (candidates.filter fun c => cutoff.any (· ≤ c.published_at)).map BackupCandidate.id

/-- `sorted(candidates, key=...)`. -/
def oldest_first (candidates : List BackupCandidate) : List BackupCandidate :=
  candidates.insertionSort fun x y => (compareKey x.key y.key).isLE

/-- The paths of the removed directories. -/
def remove_all (kept : List String) : List BackupCandidate → PruneM (List String)
  | [] => .pure []
  | c :: rest =>
    if c.id ∈ kept then remove_all kept rest
    else do
      ask (.remove_tree c.path)
      let removed ← remove_all kept rest
      .pure (c.path :: removed)

/-- The metadata follows the retained candidates before any directory goes. -/
def synchronize (retained : List BackupCandidate) : PruneM Unit :=
  if request.metadata_store then
    synchronize_backup_manifests f now request.environment
      (retained.map BackupCandidate.manifest)
      (request.latest_backup_id.orElse fun _ => retained.head?.map BackupCandidate.id)
  else .pure ()

/-- `now` is what a manifest without a timestamp is given. -/
def prune_backups_gfs : PruneM (List String) := do
  let directories ← ask .iterdir
  let candidates := backup_candidates f now request.environment (some request.project) directories
  let cutoff ← fresh_cutoff request
  let kept := retained_ids request cutoff candidates
  synchronize f now request (candidates.filter fun c => c.id ∈ kept)
  remove_all kept (oldest_first candidates)

/-! ## The disk -/

/-- The backup directory, the metadata's index, and the time that the pass reads. -/
structure Disk where
  directories : List BackupDirectory
  index : String → Option Body
  clock : Timestamp

def Disk.put (s : Disk) (name : String) (body : Option Body) : Disk :=
  { s with index := Function.update s.index name body }

/-- What is left after a removal of `path` that may have stopped anywhere. -/
def Removal (path : String) (s t : Disk) : Prop :=
  t.index = s.index ∧ t.clock = s.clock ∧
    ∀ d, d.name ≠ path → (d ∈ t.directories ↔ d ∈ s.directories)

/-- Any operation may fail, with or without its effect; nobody else writes. -/
def diskWorld : World PruneCalls Disk
  | .iterdir, s, r, t => t = s ∧ ∀ l : List BackupDirectory, r = .ok l → l.Perm s.directories
  | .utc_now, s, r, t => t = s ∧ ∀ time, r = .ok time → time = s.clock
  | .index_files, s, r, t => t = s ∧ ∀ l : List (String × Body), r = .ok l → ∀ name body,
      (name, body) ∈ l ↔ s.index name = some body ∧ ".json".toList.isSuffixOf name.toList = true
  | .unlink name, s, r, t => t = s.put name none ∨ (∃ e, r = .error e) ∧ t = s
  | .write_atomic name manifest, s, r, t =>
      t = s.put name (some (.manifest manifest)) ∨ (∃ e, r = .error e) ∧ t = s
  | .fsync_directory, s, _, t => t = s
  | .remove_tree path, s, r, t => Removal path s t ∧
      (r = .ok () → ∀ d ∈ t.directories, d.name ≠ path)

end BackupPruning
