import Odooctl.EnvironmentServices

/-!
# Promoting an environment

`run_promote` of `services/promote.py`: a preflight that ends with a backup of the target,
an attempt to roll the merged code out, and the handler of everything that the attempt raises.
-/
namespace Promotion

open EffectPrograms ProjectConfiguration FilestoreAdapters EnvironmentServices
open KubernetesRollout (RolloutStrategy RolloutState)

structure DeploymentMetadata where
  project : String
  environment : String
  branch : String
  commit : Option String
  backup : String
  modules_updated : List String
  status : String
  message : Option String
  rollout_strategy : RolloutStrategy
  rollout_rollback : Option String

/-- The calls of a promotion that are not those of a restore. -/
inductive PromoteStep where
  | validate_runtime_definition
  | missing_env_vars
  | check_url (environment : String)
  | git_status
  | run_backup (environment : String)
  | git_fetch
  | git_checkout (branch : String)
  | git_commit
  | git_merge (branch : String)
  | begin_rollout (workload : String) (strategy : RolloutStrategy) (revision : String)
      (canary_percent : ℕ)
  | pull (workload : String)
  | up (workload : String)
  | update_modules (workload db_name : String) (modules : List String)
  | promote_rollout (state : RolloutState)
  | finalize_rollout (state : RolloutState)
  | rollback_rollout (state : RolloutState)
  | git_reset (commit : String)
  | save_deployment (metadata : DeploymentMetadata)

abbrev PromoteStep.Answer : PromoteStep → Type
  | .missing_env_vars => List String
  | .git_status => String
  | .run_backup _ => String
  | .git_commit => Option String
  | .begin_rollout _ _ _ _ => RolloutState
  | _ => Unit

/-- An exception; `RolloutFailed` carries the state of the rollout. -/
structure StepError where
  message : String
  state : Option RolloutState := none

abbrev PromoteSteps : Interface := ⟨PromoteStep, fun c => Except StepError c.Answer⟩

/-- The calls of a restore, and the rest of a promotion. -/
abbrev Promoting : Interface := Services.sum PromoteSteps

abbrev PromoteM := Prog Promoting StepError

def perform (c : PromoteStep) : PromoteM c.Answer :=
  (Prog.perform (F := PromoteSteps) c id).right

def refuse {α : Type} (message : String) : PromoteM α := .raise ⟨message, none⟩

def orRefuse {α : Type} (r : Except String α) : PromoteM α :=
  .ofExcept (r.mapError fun message => ⟨message, none⟩)

/-- What a promotion reads beyond the shared configuration: whether the runtime adapter has
`begin_rollout`, and fields of the target. -/
structure PromoteSettings where
  has_begin_rollout : Bool := true
  update_modules : List String := []
  canary_percent : ℕ := 10
  auto_rollback : Bool := true

variable (host : Host) (cfg : ConfigFields) (settings : PromoteSettings)

def assert_clean_worktree : PromoteM Unit := do
  let dirty ← perform .git_status
  if dirty.toList.all isSpace then .pure ()
  else refuse "Working tree is dirty; commit or stash changes before promoting."

/-- `run_promote` up to the `try`: both environments and the backup of the target. -/
def prepare_promote (source target : String) (confirm : Bool) :
    PromoteM (EnvironmentConfig × EnvironmentConfig × String) := do
  let src ← orRefuse (env cfg source)
  let tgt ← orRefuse (env cfg target)
  if src.promotes_to ≠ some target then
    refuse (s!"Environment '{source}' does not promote to '{target}'. " ++
      s!"Configure promotes_to: {target} in the '{source}' environment.")
  else
  perform .validate_runtime_definition
  let missing ← perform .missing_env_vars
  if missing ≠ [] then
    refuse ("Missing required environment variables: " ++ ", ".intercalate missing)
  else
  let target_protected ← orRefuse (is_protected cfg target)
  if target_protected = true ∧ confirm = false then
    refuse (s!"Target environment '{target}' is protected. " ++
      "Pass confirm=True (CLI: --yes) to proceed.")
  else
  perform (.check_url source)
  assert_clean_worktree
  let backup_id ← perform (.run_backup target)
  let _ ← orRefuse (make_runtime_adapter cfg target)
  return (src, tgt, backup_id)

/-! ## The attempt -/

/-- The local variables that the handler sees, and what was raised. -/
structure Aborted where
  error : StepError
  pre_promote_commit : Option String
  rollout_state : Option RolloutState

def check_out_target (tgt : EnvironmentConfig) : PromoteM (Option String) := do
  perform .git_fetch
  perform (.git_checkout tgt.branch)
  perform .git_commit

/-- The command workload and the state of the rollout. -/
def roll_out (tgt : EnvironmentConfig) : PromoteM (String × Option RolloutState) := do
  if settings.has_begin_rollout then
    let revision ← perform .git_commit
    let state ← perform (.begin_rollout cfg.odoo_service tgt.rollout_strategy
      (revision.getD "unknown") settings.canary_percent)
    return (state.command_workload, some state)
  else
    perform (.pull cfg.odoo_service)
    perform (.up cfg.odoo_service)
    return (cfg.odoo_service, none)

def merge_and_roll_out (src tgt : EnvironmentConfig) :
    PromoteM (String × Option RolloutState) := do
  perform (.git_merge src.branch)
  roll_out cfg settings tgt

/-- `if rollout_state:` for a call that takes the state. -/
def with_state (rollout_state : Option RolloutState) (c : RolloutState → PromoteM Unit) :
    PromoteM Unit :=
  match rollout_state with
  | some state => c state
  | none => .pure ()

def update_and_verify (target : String) (tgt : EnvironmentConfig) (command_workload : String)
    (rollout_state : Option RolloutState) : PromoteM Unit := do
  perform (.update_modules command_workload tgt.db_name settings.update_modules)
  with_state rollout_state fun state =>
    if state.strategy = .canary then perform (.check_url target) else .pure ()
  with_state rollout_state fun state => perform (.promote_rollout state)
  perform (.check_url target)
  with_state rollout_state fun state => perform (.finalize_rollout state)

def attempt_promote (target : String) (src tgt : EnvironmentConfig) :
    Prog Promoting Aborted Unit := do
  let pre_promote_commit ← (check_out_target tgt).mapError fun e => ⟨e, none, none⟩
  let (command_workload, rollout_state) ←
    (merge_and_roll_out cfg settings src tgt).mapError fun e => ⟨e, pre_promote_commit, none⟩
  (update_and_verify settings target tgt command_workload rollout_state).mapError fun e =>
    ⟨e, pre_promote_commit, rollout_state⟩

/-! ## The handler -/

/-- `try: p except Exception:`; whether `p` went through. -/
def succeeds {ε : Type} (p : Prog Promoting ε Unit) : PromoteM Bool := do
  let r ← p.attempt
  match r with
  | .ok () => return true
  | .error _ => return false

/-- Whether the workload rollback went through, if there was one. -/
def rollback_workload (rollout_state : Option RolloutState) : PromoteM (Option Bool) :=
  match rollout_state with
  | some state =>
    if settings.auto_rollback then do
      let ok ← succeeds (perform (.rollback_rollout state))
      return some ok
    else .pure none
  | none => .pure none

def rollback_code (tgt : EnvironmentConfig) (pre_promote_commit : Option String) : PromoteM Bool :=
  match pre_promote_commit with
  | some commit => succeeds do
      perform (.git_checkout tgt.branch)
      perform (.git_reset commit)
      perform (.up cfg.odoo_service)
  | none => .pure true

/-- `run_restore(ctx, target, backup_id)` among the calls of the promotion. -/
def restore_data (target backup_id : String) : Prog Promoting ServiceError Unit :=
  (run_restore host cfg target backup_id).left

/-- What the handler found: whether everything was rolled back, and `rollout_rollback`. -/
def recover (target : String) (tgt : EnvironmentConfig) (backup_id : String) (a : Aborted) :
    PromoteM (Bool × Option String) := do
  let workload ← rollback_workload settings (a.rollout_state <|> a.error.state)
  let data ← succeeds (restore_data host cfg target backup_id)
  let code ← rollback_code cfg tgt a.pre_promote_commit
  return (workload.getD true && data && code,
    workload.map fun ok => if ok then "success" else "failed")

/-- The `finally` of the attempt. -/
def save_outcome (target : String) (tgt : EnvironmentConfig) (backup_id status : String)
    (message rollout_rollback : Option String) : PromoteM Unit := do
  let commit ← perform .git_commit
  perform (.save_deployment {
    project := cfg.project_name
    environment := target
    branch := tgt.branch
    commit := commit
    backup := backup_id
    modules_updated := settings.update_modules
    status := status
    message := message
    rollout_strategy := tgt.rollout_strategy
    rollout_rollback := rollout_rollback })

/-- The exception that the handler raises. -/
def promote_failed (backup_id : String) (rollback_ok : Bool) (e : StepError) : String :=
  if rollback_ok then s!"Promote failed; rolled back to backup {backup_id}: {e.message}"
  else "Promote failed and rollback was incomplete. " ++
    s!"Manual intervention required. Original error: {e.message}"

/-- What follows the attempt. -/
def conclude (target : String) (tgt : EnvironmentConfig) (backup_id : String) :
    Except Aborted Unit → PromoteM Unit
  | .ok () => save_outcome cfg settings target tgt backup_id "success" none none
  | .error a => do
    let (rollback_ok, rollout_rollback) ← recover host cfg settings target tgt backup_id a
    save_outcome cfg settings target tgt backup_id "failed" (some a.error.message) rollout_rollback
    refuse (promote_failed backup_id rollback_ok a.error)

/-- The result is the backup that was taken of the target. -/
def run_promote (source target : String) (confirm : Bool) : PromoteM String := do
  let (src, tgt, backup_id) ← prepare_promote cfg source target confirm
  let r ← (attempt_promote cfg settings target src tgt).attempt
  conclude host cfg settings target tgt backup_id r
  return backup_id

end Promotion
