import Odooctl.DatabaseCutover
import Odooctl.PitrRestoreRecord

/-!
# Promoting a verified restore

`cutover_restore` of `services/pitr.py`: the durable record and the cluster advance in
turn. The two halves of its interface are the database adapter and the host that keeps
the records.
-/
namespace CutoverRestore

open EffectPrograms PostgresCatalog DatabaseCutover PitrRestoreRecord PythonText

structure PitrConfig where
  enabled : Bool
  environment : String
  destination_is_set : Bool
  cluster_id : String
  filestore_policy : String
  deriving DecidableEq, Repr

/-- The configuration; `env` gives the database name of a known environment. -/
structure ServiceContext where
  project_name : String
  pitr : PitrConfig
  env : String → Except String DbName

/-- The exceptions of `cutover_restore`. -/
inductive CutoverError where
  | pitrError (message : String)
  | config (message : String)
  | swap (e : SwapError)
  | validation (faults : List String)
  | store (message : String)
  deriving DecidableEq, Repr

inductive HostCall where
  | timestamp
  | get_pitr_restore (restore_id : String)
  | save_pitr_restore (metadata : PitrRestoreMetadata)
  | release_restore_pin (environment : String) (metadata : PitrRestoreMetadata)

/-- `_release_restore_pin` catches every exception and returns a warning instead. -/
abbrev HostCall.Answer : HostCall → Type
  | .timestamp => Timestamp
  | .get_pitr_restore _ => Except String PitrRestoreMetadata
  | .save_pitr_restore _ => Except String Unit
  | .release_restore_pin _ _ => Option String

abbrev Host : Interface where
  Op := HostCall
  Reply := HostCall.Answer

abbrev CutoverM := Prog (Adapter.sum Host) CutoverError

variable {α : Type}

def onDatabase (p : SwapM α) : CutoverM α := (p.mapError .swap).left

def timestamp : CutoverM Timestamp :=
  (Prog.perform (F := Host) .timestamp .ok).right

def get_pitr_restore (restore_id : String) : CutoverM PitrRestoreMetadata :=
  (Prog.perform (F := Host) (.get_pitr_restore restore_id) (·.mapError .store)).right

def save_pitr_restore (metadata : PitrRestoreMetadata) : CutoverM Unit :=
  (Prog.perform (F := Host) (.save_pitr_restore metadata) (·.mapError .store)).right

def release_restore_pin (environment : String) (metadata : PitrRestoreMetadata) :
    CutoverM (Option String) :=
  (Prog.perform (F := Host) (.release_restore_pin environment metadata) .ok).right

def update (metadata : PitrRestoreMetadata) (updates : PitrRestoreFields → PitrRestoreFields) :
    CutoverM PitrRestoreMetadata :=
  .ofExcept ((validated_update metadata updates).mapError .validation)

def pitr_config (ctx : ServiceContext) (environment : String) : Except CutoverError Unit :=
  if ctx.pitr.enabled = false then
    .error (.pitrError "PITR is disabled; set pitr.enabled: true")
  else match ctx.env environment with
  | .error message => .error (.config message)
  | .ok _ =>
  if environment ≠ ctx.pitr.environment then
    .error (.pitrError (s!"PITR is bound to environment {quoted ctx.pitr.environment}, " ++
      s!"not {quoted environment}"))
  else if ctx.pitr.destination_is_set = false ∨ ctx.pitr.cluster_id = "" then
    .error (.pitrError "PITR destination and cluster identity are incomplete")
  else if ctx.pitr.filestore_policy ≠ "database_only" then
    .error (.pitrError "PITR requires the explicit database_only filestore policy")
  else .ok ()

def ping (db_name : DbName) : SwapM Unit :=
  .perform (F := Adapter) (.ping db_name) fun
    | .ok () => .ok ()
    | .error e => .error (.adapter e)

def verify_recovered_database (database : DbName) : SwapM Unit := do
  ping database
  psql database .assertOdooSchema

/-- Rebuild the exact database identity fence saved before any rename. -/
def cutover_plan_from_metadata (sha256 : Sha256) (metadata : PitrRestoreMetadata) :
    Except CutoverError (Option (DatabaseCutoverPlan sha256)) :=
  match metadata.cutover_aside_database with
  | none => .ok none
  | some aside_db =>
  match metadata.cutover_incoming_oid with
  | none => .error (.pitrError "Durable PITR cutover intent is incomplete")
  | some incoming_oid =>
    ((DatabaseCutoverPlan.init sha256 metadata.restore_id metadata.new_database
      metadata.database aside_db incoming_oid metadata.cutover_target_oid).mapError
      .swap).map some

variable {sha256 : Sha256}

/-- `str(exc)` where `exc` is a `DatabaseCutoverError`. -/
def cutoverErrorText : CutoverError → Option String
  | .swap (.cutover _ message _) => some message
  | _ => none

/-- `try: p except DatabaseCutoverError`: note the error on the record and raise it. -/
def recordingError (redact : String → String) (metadata : PitrRestoreMetadata)
    (p : CutoverM α) : CutoverM α := do
  match ← p.attempt with
  | .ok a => return a
  | .error e =>
  match cutoverErrorText e with
  | none => .raise e
  | some text =>
    let metadata ← update metadata fun m => { m with last_error := some (redact text) }
    save_pitr_restore metadata
    .raise e

/-- No rename may occur until this exact identity fence is durable. -/
def record_cutover_plan (sha256 : Sha256) (pg : Hooks) (metadata : PitrRestoreMetadata) :
    CutoverM (PitrRestoreMetadata × DatabaseCutoverPlan sha256) := do
  onDatabase (verify_recovered_database metadata.new_database)
  let cutover_plan ← onDatabase (plan_database_cutover sha256 pg metadata.new_database
    metadata.database metadata.restore_id)
  let started_at ← timestamp
  let metadata ← update metadata fun m => { m with
    cutover_aside_database := some cutover_plan.aside_db
    cutover_incoming_oid := some cutover_plan.incoming_oid
    cutover_target_oid := cutover_plan.target_oid
    cutover_started_at := some started_at
    last_error := none }
  save_pitr_restore metadata
  return (metadata, cutover_plan)

/-- Promote, then record that the live name refers to the recovered database. -/
def record_promotion (redact : String → String) (pg : Hooks) (metadata : PitrRestoreMetadata)
    (cutover_plan : DatabaseCutoverPlan sha256) : CutoverM PitrRestoreMetadata := do
  let promoted ← recordingError redact metadata
    (onDatabase (promote_database_cutover pg cutover_plan))
  if promoted.isPromoted = false then
    .raise (.pitrError "PITR database cutover did not reach promoted state")
  else
  let completed_at ← timestamp
  let metadata ← update metadata fun m => { m with
    cutover := true
    status := .cutover
    cutover_completed_at := some completed_at
    last_error := none }
  save_pitr_restore metadata
  return metadata

def record_finalization (redact : String → String) (pg : Hooks) (environment : String)
    (metadata : PitrRestoreMetadata) (cutover_plan : DatabaseCutoverPlan sha256) :
    CutoverM PitrRestoreMetadata := do
  let finalized ← recordingError redact metadata
    (onDatabase (finalize_database_cutover pg cutover_plan true))
  if finalized.isPromoted = false then
    .raise (.pitrError "PITR database cutover finalization lost promotion")
  else
  let metadata ← update metadata fun m => { m with cutover_finalized := true, last_error := none }
  save_pitr_restore metadata
  match ← release_restore_pin environment metadata with
  | none => return metadata
  | some pin_warning =>
  if pin_warning = "" then return metadata
  else
  let metadata ← update metadata fun m => { m with last_error := some pin_warning }
  save_pitr_restore metadata
  return metadata

/-- `cutover_restore` from the durable plan on. -/
def promote_and_finalize (redact : String → String) (pg : Hooks) (environment : String)
    (metadata : PitrRestoreMetadata) (cutover_plan : DatabaseCutoverPlan sha256) :
    CutoverM PitrRestoreMetadata := do
  if metadata.cutover then record_finalization redact pg environment metadata cutover_plan
  else
  let metadata ← record_promotion redact pg metadata cutover_plan
  record_finalization redact pg environment metadata cutover_plan

/-- What the operator passes to one attempt. -/
structure Confirmation where
  environment : String
  confirm_environment : String
  confirm_database : DbName
  accept_database_only : Bool
  deriving DecidableEq, Repr

def ownership_invalid (ctx : ServiceContext) (environment : String) (expected_database : DbName)
    (metadata : PitrRestoreMetadata) : Bool :=
  metadata.project != ctx.project_name || metadata.environment != environment ||
  metadata.database != expected_database || !metadata.verified

def actionable (metadata : PitrRestoreMetadata) : Bool :=
  (metadata.status == .verified && !metadata.cutover) ||
  (metadata.status == .cutover && metadata.cutover && !metadata.cutover_finalized)

def cutover_restore (sha256 : Sha256) (redact : String → String) (pg : Hooks)
    (ctx : ServiceContext) (restore_id : String) (call : Confirmation) :
    CutoverM PitrRestoreMetadata := do
  .ofExcept (pitr_config ctx call.environment)
  let metadata ← get_pitr_restore restore_id
  let expected_database ← .ofExcept ((ctx.env call.environment).mapError .config)
  if call.confirm_environment ≠ call.environment ∨ call.confirm_database ≠ expected_database ∨
      call.accept_database_only = false then
    .raise (.pitrError ("PITR cutover requires exact environment/database " ++
      "confirmations and explicit database-only acceptance"))
  else if ownership_invalid ctx call.environment expected_database metadata ∨
      actionable metadata = false then
    if ownership_invalid ctx call.environment expected_database metadata = false ∧
        metadata.status = .cutover ∧ metadata.cutover ∧ metadata.cutover_finalized then
      return metadata
    else
      .raise (.pitrError ("Only a verified PITR restore owned by this target can be " ++
        "promoted or have its durable cutover finalized"))
  else
  match ← .ofExcept (cutover_plan_from_metadata sha256 metadata) with
  | some cutover_plan => promote_and_finalize redact pg call.environment metadata cutover_plan
  | none =>
    let (metadata, cutover_plan) ← record_cutover_plan sha256 pg metadata
    promote_and_finalize redact pg call.environment metadata cutover_plan

end CutoverRestore
