import Mathlib.Data.Finset.Card
import Mathlib.Data.List.Sort
import Odooctl.EffectPrograms

/-!
# Sync, deploy and rollback

`services/sync.py`, `run_deploy` of `services/deploy.py` and `_run_rollback` of
`commands/rollback.py`, with the deployment records they share. The checks before a deployment,
its backup and its rollout are one operation each that may fail.
-/
namespace GitSync

open EffectPrograms

/-- What `git rev-parse --short` prints for a commit. -/
abbrev Commit := String

structure DeploymentMetadata where
  timestamp : String
  branch : String
  commit : Option Commit
  docker_image : Option String
  status : String
  message : Option String
  deriving DecidableEq, Repr

/-- What the configuration says of the environment. -/
structure EnvironmentConfig where
  environment : String
  branch : String
  auto_deploy : Bool
  image : Option String

inductive SyncStatus where
  | up_to_date
  | behind
  | deployed
  | disabled
  | never_deployed
  | deploy_failed
  | dirty_worktree
  | diverged
  | no_remote
  | fetch_failed
  | unknown
  deriving DecidableEq, Repr

structure SyncOutcome where
  environment : String
  branch : String
  status : SyncStatus
  message : String
  remote_commit : Option Commit := none
  deployed_commit : Option Commit := none
  ahead : Option ℕ := none
  behind : Option ℕ := none
  backup_id : Option String := none

structure DeployResult where
  environment : String
  backup_id : Option String
  status : String

inductive RollbackMode where
  | code
  | full (backup : String)
  deriving DecidableEq, Repr

/-! ## Operations -/

inductive GitCall where
  | fetch_quiet
  | rev_parse_upstream
  | rev_parse_origin
  | rev_parse_head
  | rev_list_count (a b : Commit)
  | status_porcelain
  | latest_deployment
  | load_history
  | now_utc
  | save_deployment (metadata : DeploymentMetadata)
  | preflight
  | pre_deploy
  | fetch_all
  | checkout_branch
  | checkout (commit : Commit)
  | pull
  | rollout
  | recover (error : String)
  | restore (backup : String)
  | start_service
  deriving DecidableEq, Repr

/-- `recover` answers the message that is recorded. -/
abbrev GitCall.Answer : GitCall → Type
  | .fetch_quiet | .preflight | .fetch_all | .checkout_branch | .checkout _ | .pull | .rollout
  | .restore _ | .start_service => Except String Unit
  | .pre_deploy => Except String (Option String × Option String)
  | .rev_parse_upstream | .rev_parse_origin | .rev_parse_head => Option Commit
  | .rev_list_count _ _ => Option ℕ
  | .status_porcelain | .now_utc | .recover _ => String
  | .latest_deployment => Option DeploymentMetadata
  | .load_history => List DeploymentMetadata
  | .save_deployment _ => Unit

abbrev Git : Interface := ⟨GitCall, GitCall.Answer⟩

abbrev GitM := Prog Git String

def ask (o : GitCall) : GitM o.Answer := .perform (F := Git) o .ok

def assert_clean_worktree (operation : String) : GitM Unit := do
  let dirty_paths ← ask .status_porcelain
  if dirty_paths = "" then .pure ()
  else .raise s!"Git worktree is dirty; commit or stash changes before {operation}:\n{dirty_paths}"

/-! ## The records -/

/-- The newest successful record apart from the newest record. -/
def previous_successful (history : List DeploymentMetadata) : Option DeploymentMetadata :=
  ((history.insertionSort fun a b => b.timestamp ≤ a.timestamp).drop 1).find? fun data =>
    data.status = "success"

/-- `save_deployment` of a record with the current time. -/
def record (env : EnvironmentConfig) (commit : Option Commit) (image : Option String)
    (status : String) (message : Option String) : GitM Unit := do
  let timestamp ← ask .now_utc
  ask (.save_deployment
    { timestamp, branch := env.branch, commit, docker_image := image, status, message })

/-! ## Deploy -/

/-- What `run_deploy` does in its `try`: the backup and the snapshot, the pull and the rollout. -/
def deploy_commit : GitM (Option String × Option String) := do
  let (backup_id, snapshot_warning) ← .perform (F := Git) .pre_deploy id
  .perform (F := Git) .fetch_all id
  .perform (F := Git) .checkout_branch id
  .perform (F := Git) .pull id
  .perform (F := Git) .rollout id
  .pure (backup_id, snapshot_warning)

def run_deploy (env : EnvironmentConfig) : GitM DeployResult := do
  .perform (F := Git) .preflight id
  match ← deploy_commit.attempt with
  | .ok (backup_id, snapshot_warning) => do
    let commit ← ask .rev_parse_head
    record env commit env.image "success" snapshot_warning
    .pure { environment := env.environment, backup_id, status := "success" }
  | .error exc => do
    let message ← ask (.recover exc)
    let commit ← ask .rev_parse_head
    record env commit env.image "failed" (some message)
    .raise exc

/-! ## Rollback -/

/-- The `try` of `_run_rollback` and its record. -/
def redeploy (env : EnvironmentConfig) (mode : String) (commit : Option Commit)
    (image : Option String) (body : GitM Unit) : GitM Unit := do
  match ← body.attempt with
  | .ok () => record env commit image "success" (some s!"rollback:{mode}")
  | .error exc => do
    record env commit image "failed" (some s!"rollback:{mode}: {exc}")
    .raise exc

/-- `str(previous_image) if previous_image else cfg.odoo.image`. -/
def recorded_image (env : EnvironmentConfig) (previous_image : Option String) : Option String :=
  match previous_image with
  | some image => if image = "" then env.image else some image
  | none => env.image

def no_previous (env : EnvironmentConfig) : String :=
  s!"No previous successful deployment commit recorded for environment '{env.environment}'"

def code_rollback (env : EnvironmentConfig) : GitM Unit := do
  let history ← ask .load_history
  match previous_successful history with
  | none => .raise (no_previous env)
  | some previous => match previous.commit.filter (· ≠ "") with
    | none => .raise (no_previous env)
    | some commit =>
      if previous.branch ≠ "" ∧ previous.branch ≠ env.branch then
        .raise (s!"Previous successful deployment for '{env.environment}' was on branch " ++
          s!"'{previous.branch}', but the environment now maps to '{env.branch}'; " ++
          "refusing code rollback across branches")
      else do
        assert_clean_worktree "code rollback"
        redeploy env "code" (some commit) (recorded_image env previous.docker_image) do
          .perform (F := Git) .fetch_all id
          .perform (F := Git) (.checkout commit) id
          .perform (F := Git) .start_service id

def run_rollback (env : EnvironmentConfig) (mode : RollbackMode) : GitM Unit := do
  let commit ← ask .rev_parse_head
  match mode with
  | .code => code_rollback env
  | .full backup => redeploy env "full" commit env.image do
      .perform (F := Git) (.restore backup) id
      .perform (F := Git) .start_service id

/-! ## Sync -/

/-- The remote tip where it is resolved: the upstream of the branch or `origin/<branch>`. -/
def remote_commit_of : GitM (Option Commit) := do
  match ← ask .rev_parse_upstream with
  | some commit => .pure (some commit)
  | none => ask .rev_parse_origin

/-- The end of `check_sync`, where the deployed commit is not the remote one. -/
def classify (env : EnvironmentConfig) (force : Bool) (deployed_commit remote_commit : Commit)
    (behind ahead : ℕ) : GitM SyncOutcome :=
  let outcome (status : SyncStatus) (message : String) : SyncOutcome :=
    { environment := env.environment, branch := env.branch, status, message,
      remote_commit := some remote_commit, deployed_commit := some deployed_commit,
      ahead := some ahead, behind := some behind }
  if behind > 0 ∧ ahead = 0 then
    if env.auto_deploy ∨ force then do
      let dirty ← ask .status_porcelain
      if dirty ≠ "" then .pure (outcome .dirty_worktree
        (s!"{behind} new commit(s) on remote {env.branch}, but the worktree " ++
          s!"has uncommitted changes; commit or stash them:\n{dirty}"))
      else .pure (outcome .behind s!"{behind} new commit(s) on remote {env.branch}; deploy needed")
    else .pure (outcome .disabled
      (s!"{behind} new commit(s) on remote {env.branch}, but auto_deploy is false " ++
        s!"for '{env.environment}'; run 'odooctl deploy {env.environment}' or set auto_deploy: true"))
  else if ahead > 0 then .pure (outcome .diverged
    (s!"deployed commit {deployed_commit} and remote {remote_commit} have diverged " ++
      s!"(ahead {ahead}, behind {behind}); resolve the branch history manually"))
  else .pure (outcome .up_to_date s!"deployed commit {deployed_commit} matches remote")

/-- `check_sync` where the remote has not moved since the last attempt. -/
def same_commit (env : EnvironmentConfig) (last : DeploymentMetadata) (commit : Commit) :
    SyncOutcome :=
  let outcome (status : SyncStatus) (message : String) : SyncOutcome :=
    { environment := env.environment, branch := env.branch, status, message,
      remote_commit := some commit, deployed_commit := some commit, ahead := some 0,
      behind := some 0 }
  if last.status ≠ "success" then outcome .deploy_failed
    (s!"last deploy of {commit} failed" ++
      (match last.message.filter (· ≠ "") with
        | some message => s!": {message}"
        | none => "") ++
      s!"; push a fix or run 'odooctl deploy {env.environment}' manually")
  else outcome .up_to_date s!"deployed commit {commit} matches remote"

def check_sync (env : EnvironmentConfig) (force : Bool) : GitM SyncOutcome := do
  let outcome (status : SyncStatus) (message : String) : SyncOutcome :=
    { environment := env.environment, branch := env.branch, status, message }
  match ← ask .fetch_quiet with
  | .error detail => .pure (outcome .fetch_failed s!"git fetch failed: {detail}")
  | .ok () =>
    match ← remote_commit_of with
    | none => .pure (outcome .no_remote
        (s!"no remote tracking ref found for branch '{env.branch}' " ++
          s!"(checked {env.branch}@\x7bupstream\x7d and origin/{env.branch})"))
    | some remote_commit => do
      match ← ask .latest_deployment with
      | none => .pure { outcome .never_deployed
          (s!"no deployment recorded for '{env.environment}'; " ++
            s!"run 'odooctl deploy {env.environment}' once to establish a baseline") with
          remote_commit := some remote_commit }
      | some last => match last.commit with
        | none => .pure { outcome .never_deployed
            (s!"no deployment recorded for '{env.environment}'; " ++
              s!"run 'odooctl deploy {env.environment}' once to establish a baseline") with
            remote_commit := some remote_commit }
        | some deployed_commit =>
          if deployed_commit = remote_commit then .pure (same_commit env last deployed_commit)
          else do
            let behind ← ask (.rev_list_count deployed_commit remote_commit)
            let ahead ← ask (.rev_list_count remote_commit deployed_commit)
            match behind, ahead with
            | some behind, some ahead =>
              classify env force deployed_commit remote_commit behind ahead
            | _, _ => .pure { outcome .unknown
                (s!"could not compare deployed commit {deployed_commit} " ++
                  s!"with remote {remote_commit}") with
                remote_commit := some remote_commit, deployed_commit := some deployed_commit }

def run_sync (env : EnvironmentConfig) (force : Bool) : GitM SyncOutcome := do
  let outcome ← check_sync env force
  if outcome.status ≠ .behind then .pure outcome
  else do
    let result ← run_deploy env
    let deployed := outcome.remote_commit.getD ""
    .pure { outcome with
      status := .deployed, backup_id := result.backup_id,
      message := s!"deployed {env.environment} at {deployed} " ++
        s!"({outcome.behind.getD 0} new commit(s))" }

end GitSync
