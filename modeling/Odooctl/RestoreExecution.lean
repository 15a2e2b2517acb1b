import Odooctl.RecoveryPlanning

/-!
# Executing a recovery plan

`execute_restore` of `services/pitr.py` as a whole: the plan is checked and staged, recovered in
isolation, restored into a new database, and handed off under the coordination lease. Its one
handler undoes what had happened so far. An exception that is no `Exception` is not modelled.
-/
namespace RestoreExecution

open EffectPrograms CheckedLists PostgresCatalog PitrRestoreRecord WalSegments PitrArchive
  PitrRetention RecoveryPlanning

/-! ## Operations -/

structure PitrRecoverySpec where
  base_backup : PitrBaseBackupManifest
  wal_archive : List (String × WalObject)
  postgres_image : String
  target_time : Timestamp
  target_timeline : ℕ
  database : DbName

structure PitrRecoveryStatus where
  in_recovery : Bool
  replay_paused : Bool
  timeline : ℕ
  replay_lsn : Option Lsn
  last_replay_timestamp : Option Timestamp
  deriving DecidableEq

/-- What the runtime says of a recovery; its timeline is a text. -/
structure PitrRecoveryResult where
  dump_path : String
  database : DbName
  target_time : Timestamp
  target_timeline : String
  status : PitrRecoveryStatus
  postgres_image : String
  deriving DecidableEq

inductive ExecCall where
  | make_staging_root
  | staging_exists (restore_id : String)
  | make_staging (restore_id : String)
  | make_db_adapter
  | save_pitr_restore (metadata : PitrRestoreMetadata)
  | download_base_backup (base_backup_id : String)
  | make_wal_root
  | has_identity (base : PitrBaseBackupManifest)
  | recover_and_dump (spec : PitrRecoverySpec) (output : String)
  | database_exists (name : DbName)
  | create (name : DbName)
  | restore_into (name : DbName) (dump_path : String)
  | ping (name : DbName)
  | psql (name : DbName)
  | drop (name : DbName)
  | release_pitr_pin (kind : PinKind) (pin_id : String)
  | remove_staging (restore_id : String)

abbrev ExecCall.Value : ExecCall → Type
  | .staging_exists _ | .has_identity _ | .database_exists _ => Bool
  | .recover_and_dump _ _ => PitrRecoveryResult
  | _ => Unit

abbrev ExecCall.Answer (o : ExecCall) : Type := Except String o.Value

abbrev Exec : Interface := ⟨ExecCall, ExecCall.Answer⟩

abbrev ExecM := Prog (Pitr.sum Exec) PitrFailure

def ask (o : ExecCall) : ExecM o.Value := (.perform (F := Exec) o reply : Prog Exec _ _).right

def onArchive {α : Type} (p : PitrM α) : ExecM α := p.left

/-! ## Records -/

def validated {α : Type} : Except (List String) α → Result α :=
  Except.mapError fun _ => .valueError "validation error for PitrRestoreMetadata"

def pending_restore (plan : PitrRecoveryPlan) (base : PitrBaseBackupManifest)
    (restore_id environment : String) (now : Timestamp) : Result PitrRestoreMetadata :=
  validated (model_validate {
    restore_id, plan_id := plan.plan_id, base_backup_id := base.base_backup_id,
    project := plan.project, environment, cluster_id := plan.cluster_id,
    system_identifier := plan.system_identifier, database := plan.database,
    new_database := plan.new_database, target_time := plan.target_time,
    target_timeline := plan.target_timeline, timestamp := now, status := .pending })

def updated (m : PitrRestoreMetadata) (updates : PitrRestoreFields → PitrRestoreFields) :
    Result PitrRestoreMetadata := validated (validated_update m updates)

/-- The runtime has paused a recovery of this plan at its target. -/
def is_trusted (plan : PitrRecoveryPlan) (dump_path : String) (recovery : PitrRecoveryResult) :
    Bool :=
  recovery.database = plan.database && recovery.target_time = plan.target_time &&
    recovery.target_timeline = toString plan.target_timeline &&
    recovery.postgres_image = plan.recovery_image && recovery.dump_path = dump_path &&
    recovery.status.in_recovery && recovery.status.replay_paused &&
    recovery.status.timeline = plan.target_timeline && recovery.status.replay_lsn.isSome &&
    recovery.status.last_replay_timestamp.all (· ≤ plan.target_time)

/-! ## The protected block -/

/-- What the handler knows of what has happened. -/
structure Progress where
  metadata : PitrRestoreMetadata
  created_database : Bool := false
  durable_state_started : Bool := false

/-- Inside the block an exception is handled with the progress at that time. -/
abbrev BlockM := Prog (Pitr.sum Exec) (PitrFailure × Progress)

def during {α : Type} (progress : Progress) (p : ExecM α) : BlockM α :=
  p.mapError fun e => (e, progress)

/-- The plan under its new status. -/
def with_status (plan : PitrRecoveryPlan) (status : PlanStatus) : PitrRecoveryPlan :=
  { plan with status }

section Execute

variable (redact : String → String) (ctx : PitrContext) (checked : CheckedPlan)
  (restore_id dump_path : String)

def receipts : List WalReceipt := checked.wal.map Prod.snd

/-- The base and the WAL in the staging directory. -/
def stage : ExecM (List (String × WalObject)) := do
  ask (.download_base_backup checked.base.base_backup_id)
  ask .make_wal_root
  let staged ← onArchive (stage_wal checked.wal)
  if (staged.map (·.2.size)).sum ≠ checked.plan.wal_bytes then
    onArchive (refuse "Downloaded WAL byte total does not match the recovery plan")
  else if ← ask (.has_identity checked.base) then .pure staged
  else onArchive (refuse "Downloaded physical base backup failed local identity checks")

def recover (staged : List (String × WalObject)) : ExecM PitrRecoveryResult := do
  let recovery ← ask (.recover_and_dump {
    base_backup := checked.base, wal_archive := staged,
    postgres_image := checked.plan.recovery_image, target_time := checked.plan.target_time,
    target_timeline := checked.plan.target_timeline, database := checked.plan.database } dump_path)
  if is_trusted checked.plan dump_path recovery then .pure recovery
  else onArchive (refuse "Isolated PITR runtime returned an untrusted recovery result")

def create_new (name : DbName) : ExecM Unit := do
  if ← ask (.database_exists name) then
    onArchive (refuse s!"PITR target database already exists: {name}")
  else ask (.create name)

def fill (name : DbName) (recovery : PitrRecoveryResult) : ExecM Unit := do
  ask (.restore_into name recovery.dump_path)
  ask (.ping name)
  ask (.psql name)

/-- The pins and the two records, in the order in which they are written; a warning is what
kept the plan's own pin. -/
def publish (metadata : PitrRestoreMetadata) (verified_plan : PitrRecoveryPlan) :
    ExecM (Option String) := do
  let plan_pin ← onArchive (request (.get_pitr_pin .plan checked.plan.plan_id))
  .ofExcept (assert_remote_pin plan_pin .plan checked.plan.plan_id ctx.environment
    checked.base.base_backup_id (receipts checked))
  let restore_pin ← onArchive (create_pitr_pin .restore restore_id ctx.environment
    checked.base.base_backup_id (pin_segments (receipts checked)))
  .ofExcept (assert_remote_pin restore_pin .restore restore_id ctx.environment
    checked.base.base_backup_id (receipts checked))
  ask (.save_pitr_restore metadata)
  onArchive (request (.save_pitr_recovery_plan verified_plan))
  let released ← Prog.attempt (ε := PitrFailure) (do
    onArchive renew
    ask (.release_pitr_pin .plan checked.plan.plan_id) : ExecM Unit)
  match released with
  | .ok () => .pure none
  | .error e => .pure (some ("Verified restore retained an extra plan pin: " ++ redact e.str))

def joined (warning : Option String) (more : String) : String :=
  match warning with
  | none => more
  | some warning => warning ++ "; " ++ more

def hand_off (metadata : PitrRestoreMetadata) (verified_plan : PitrRecoveryPlan) :
    ExecM (Option String) := do
  onArchive (request (.acquire_coordination_lease "pitr-restore-pin" restore_id))
  let published ← Prog.attempt (ε := PitrFailure)
    (publish redact ctx checked restore_id metadata verified_plan)
  let released ← Prog.attempt (ε := PitrFailure) (onArchive (request .release_coordination_lease))
  match published, released with
  | .ok warning, .ok () => .pure warning
  | .ok warning, .error e =>
    .pure (some (joined warning
      ("Verified restore could not release its coordination lease: " ++ redact e.str)))
  | .error e, .ok () => .raise e
  | .error _, .error e => .raise e

/-- The warning is kept where it can be. -/
def note_warning (metadata : PitrRestoreMetadata) : Option String → ExecM PitrRestoreMetadata
  | none => .pure metadata
  | some warning => do
    let warned ← .ofExcept (updated metadata fun m => { m with last_error := some warning })
    let _ ← Prog.attempt (ε := PitrFailure) (ask (.save_pitr_restore warned))
    .pure warned

def verified_restore (metadata : PitrRestoreMetadata) (recovery : PitrRecoveryResult) :
    Result PitrRestoreMetadata :=
  updated metadata fun m => { m with
    recovered_at := some (recovery.status.last_replay_timestamp.getD checked.plan.target_time)
    recovered_lsn := recovery.status.replay_lsn
    verified := true
    status := .verified
    last_error := none }

def block (metadata : PitrRestoreMetadata) : BlockM PitrRestoreMetadata := do
  let plan := checked.plan
  let started : Progress := { metadata }
  during started (ask (.save_pitr_restore metadata))
  during started (onArchive (request (.save_pitr_recovery_plan (with_status plan .executing))))
  let durable := { started with durable_state_started := true }
  let staged ← during durable (stage checked)
  let recovering ← during durable
    (.ofExcept (updated metadata fun m => { m with status := .recovering }))
  let durable := { durable with metadata := recovering }
  during durable (ask (.save_pitr_restore recovering))
  let recovery ← during durable (recover checked dump_path staged)
  during durable (create_new plan.new_database)
  let created := { durable with created_database := true }
  during created (fill plan.new_database recovery)
  let verified ← during created (.ofExcept (verified_restore checked recovering recovery))
  let created := { created with metadata := verified }
  let warning ← during created
    (hand_off redact ctx checked restore_id verified (with_status plan .verified))
  during created (note_warning verified warning)

/-! ## The handler -/

def drop_created (progress : Progress) : ExecM Unit :=
  if progress.created_database then do
    let _ ← Prog.attempt (ε := PitrFailure) (ask (.drop checked.plan.new_database))
    .pure ()
  else .pure ()

def record_failure (progress : Progress) (e : PitrFailure) : ExecM Unit :=
  if progress.durable_state_started then do
    let failed ← .ofExcept (updated progress.metadata fun m =>
      { m with status := .failed, verified := false, last_error := some (redact e.str) })
    ask (.save_pitr_restore failed)
    onArchive (request (.save_pitr_recovery_plan (with_status checked.plan .failed)))
  else .pure ()

def handled (outcome : Except (PitrFailure × Progress) PitrRestoreMetadata) :
    ExecM PitrRestoreMetadata :=
  match outcome with
  | .ok metadata => .pure metadata
  | .error (e, progress) => do
    drop_created checked progress
    record_failure redact checked progress e
    .raise e

/-- From the staging directory on. -/
def run_restore (metadata : PitrRestoreMetadata) : ExecM PitrRestoreMetadata := do
  let outcome ← Prog.attempt (block redact ctx checked restore_id dump_path metadata)
  let result ← Prog.attempt (ε := PitrFailure) (handled redact checked outcome)
  ask (.remove_staging restore_id)
  .ofExcept result

end Execute

def execute_restore (redact : String → String) (ctx : PitrContext) (database plan_id : String)
    (now : Timestamp) : ExecM PitrRestoreMetadata := do
  let checked ← onArchive (check_plan ctx database plan_id)
  let token ← onArchive (request (.token_hex 12))
  let restore_id := ctx.environment ++ "_pitr_restore_" ++ token
  let metadata ← .ofExcept
    (pending_restore checked.plan checked.base restore_id ctx.environment now)
  ask .make_staging_root
  if ← ask (.staging_exists restore_id) then
    onArchive (refuse ("PITR restore staging path exists: .partial-" ++ restore_id))
  else
    ask (.make_staging restore_id)
    ask .make_db_adapter
    run_restore redact ctx checked restore_id
      (".partial-" ++ restore_id ++ "/recovered.dump") metadata

/-! ## The server and the archive -/

/-- What a database holds. -/
inductive Contents where
  | other (text : String)
  | empty
  | partly
  | recovered (spec : PitrRecoverySpec)

structure Restoring where
  archive : Archive
  databases : Map Contents
  dump : Option PitrRecoverySpec := none

namespace ExecCall

def Reads (s : Restoring) : (o : ExecCall) → o.Value → Prop
  | .database_exists name, found => found = true ↔ name ∈ s.databases
  | _, _ => True

/-- What the server refuses has no effect. -/
def Possible (s : Restoring) : ExecCall → Prop
  | .create name => name ∉ s.databases
  | .restore_into name _ => name ∈ s.databases
  | _ => True

def effect (s : Restoring) : ExecCall → Restoring
  | .save_pitr_restore m =>
    { s with archive := { s.archive with restores := s.archive.restores.insert m.restore_id m } }
  | .release_pitr_pin kind id =>
    { s with archive := { s.archive with pins := s.archive.pins.erase (pin_key kind id) } }
  | .recover_and_dump spec _ => { s with dump := some spec }
  | .create name => { s with databases := s.databases.insert name .empty }
  | .restore_into name _ =>
    { s with databases := s.databases.insert name (s.dump.elim .partly .recovered) }
  | .drop name => { s with databases := s.databases.erase name }
  | _ => s

/-- What a call that raises may leave. -/
def Leaves (s t : Restoring) : ExecCall → Prop
  | .restore_into name _ =>
    ∃ contents, t = { s with databases := s.databases.insert name contents }
  | o => t = effect s o

end ExecCall

def exec : World Exec Restoring := fun o s r t =>
  match r with
  | .ok value => ExecCall.Reads s o value ∧ ExecCall.Possible s o ∧ t = ExecCall.effect s o
  | .error _ => t = s ∨ ExecCall.Possible s o ∧ ExecCall.Leaves s t o

def restoring : World (Pitr.sum Exec) Restoring
  | .inl o, s, r, t => ∃ archive, pitr o s.archive r archive ∧ t = { s with archive }
  | .inr o, s, r, t => exec o s r t

end RestoreExecution
