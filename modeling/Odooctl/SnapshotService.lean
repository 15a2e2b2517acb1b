import Odooctl.EffectPrograms
import Odooctl.ProjectConfiguration
import Odooctl.PythonText

/-!
# Snapshots of a provider

`run_snapshot_create` and `run_snapshot_reconcile` of `services/snapshots.py` with the manifests
that `metadata/store.py` keeps of them. A provider is a program over operations of its own and
over the progress callback.
-/
namespace SnapshotService

open EffectPrograms PythonText
open ProjectConfiguration (ConfigFields)

/-! ## Records -/

inductive Provider where
  | aws_ebs
  | hetzner_cloud
  deriving DecidableEq, Repr

def Provider.text : Provider → String
  | .aws_ebs => "aws_ebs"
  | .hetzner_cloud => "hetzner_cloud"

/-- The provider that a configuration selects. -/
def Provider.ofSetting : ProjectConfiguration.SnapshotProvider → Option Provider
  | .none => none
  | .aws_ebs => some .aws_ebs
  | .hetzner_cloud => some .hetzner_cloud

inductive Trigger where
  | explicit
  | pre_deploy
  deriving DecidableEq, Repr

def Trigger.parse : String → Option Trigger
  | "explicit" => some .explicit
  | "pre_deploy" => some .pre_deploy
  | _ => none

inductive Consistency where
  | unknown
  | crash_consistent
  | application_consistent
  | powered_off_consistent
  | live_unverified
  deriving DecidableEq, Repr

inductive Status where
  | requested
  | pending
  | complete
  | failed
  deriving DecidableEq, Repr

def Status.text : Status → String
  | .requested => "requested"
  | .pending => "pending"
  | .complete => "complete"
  | .failed => "failed"

/-- A value of `provider_metadata`; a float is its text. -/
inductive Scalar where
  | none
  | bool (b : Bool)
  | int (i : ℤ)
  | float (text : String)
  | str (s : String)
  deriving DecidableEq, Repr

structure SnapshotResource where
  snapshot_resource_id : Option String := none
  source_resource_id : String
  kind : String
  state : String := "completed"
  location : Option String := none
  size_gib : Option ℤ := none
  device_name : Option String := none
  root_device : Bool := false
  volume_type : Option String := none
  iops : Option ℤ := none
  throughput_mibps : Option ℤ := none
  encrypted : Option Bool := none
  kms_key_id : Option String := none
  deriving DecidableEq, Repr

structure SnapshotManifest where
  schema_version : ℤ := 1
  snapshot_id : String
  project : String
  environment : String
  timestamp : String
  provider : Provider
  source_resource_id : String
  resources : List SnapshotResource := []
  scope : List String := []
  consistency : Consistency := .unknown
  provider_scope : List (String × String) := []
  provider_metadata : List (String × Scalar) := []
  trigger : Trigger := .explicit
  portable_backup_id : Option String := none
  description : Option String := none
  recovery_notes : List String := []
  status : Status := .complete
  completed_at : Option String := none
  last_error : Option String := none
  deriving DecidableEq, Repr

structure ProviderSnapshot where
  source_resource_id : String
  resources : List SnapshotResource
  scope : List String
  consistency : Consistency
  recovery_notes : List String
  status : Status := .complete
  provider_scope : List (String × String) := []
  provider_metadata : List (String × Scalar) := []
  deriving DecidableEq, Repr

/-! ## Providers -/

structure SnapshotCreateRequest where
  snapshot_id : String
  project : String
  environment : String
  description : String
  deriving DecidableEq, Repr

/-- An exception of `create`; a `SnapshotCreateProviderError` may carry what exists already. -/
structure CreateFailure where
  message : String
  snapshot : Option ProviderSnapshot := none
  deriving DecidableEq, Repr

/-- The callback `request.progress`, which may raise. -/
abbrev Progress : Interface := ⟨ProviderSnapshot, fun _ => Except String Unit⟩

variable {F : Interface} {ε α : Type}

structure SnapshotProvider (F : Interface) where
  create : SnapshotCreateRequest → Prog (F.sum Progress) CreateFailure ProviderSnapshot
  reconcile : SnapshotManifest → Prog F String ProviderSnapshot

structure AwsEbsSnapshotConfig where
  instance_id : String
  region : String
  recovery_availability_zone : String
  profile : Option String := none
  include_root_volume : Bool := true
  completion_timeout_seconds : ℕ := 600
  cli_command : String := "aws"
  deriving DecidableEq, Repr

structure HetznerSnapshotConfig where
  server : String
  context : Option String := none
  deriving DecidableEq, Repr

/-- The configuration of a project and the snapshot variables its environment lacks. -/
structure ServiceContext where
  config : ConfigFields
  aws_ebs : Option AwsEbsSnapshotConfig := none
  hetzner_cloud : Option HetznerSnapshotConfig := none
  missing_snapshot_env_vars : List String := []

/-! ## The manifests on disk -/

/-- The time and the `token_hex(4)` of a new id. -/
structure Stamp where
  time : String
  token : List (Fin 16)
  length_token : token.length = 8

def Stamp.text (stamp : Stamp) : String :=
  stamp.time ++ "-" ++ String.ofList (stamp.token.map hexDigit)

def new_snapshot_id (environment : String) (stamp : Stamp) : String :=
  environment ++ "-" ++ stamp.text

inductive FileCall where
  | new_stamp (environment : String)
  | now_utc
  | read (stem : String)
  | write_atomic (stem : String) (manifest : SnapshotManifest)
  deriving DecidableEq

/-- A file that is not there reads as `none`; an error is the text of the exception. -/
def FileCall.Answer : FileCall → Type
  | .new_stamp _ => Stamp
  | .now_utc => String
  | .read _ => Except String (Option SnapshotManifest)
  | .write_atomic _ _ => Except String Unit

abbrev Files : Interface := ⟨FileCall, FileCall.Answer⟩

abbrev StoreM := Prog Files String

def isComponentChar (c : Char) : Bool := c.isAlphanum || c == '.' || c == '_' || c == '-'

/-- `_safe_snapshot_component`. -/
def safe_snapshot_component (value label : String) : Except String String :=
  if value ∈ ["", ".", ".."] ∨ value.toList.all isComponentChar = false then
    .error s!"{label} contains unsupported characters"
  else .ok value

def latest_stem (environment : String) : String := environment ++ "-latest"

def write_atomic (stem : String) (manifest : SnapshotManifest) : StoreM Unit :=
  .perform (F := Files) (.write_atomic stem manifest) id

def now_utc : StoreM String := .perform (F := Files) .now_utc .ok

def save_snapshot_manifest (manifest : SnapshotManifest) : StoreM Unit := do
  let safe_id ← .ofExcept (safe_snapshot_component manifest.snapshot_id "snapshot_id")
  let environment ← .ofExcept (safe_snapshot_component manifest.environment "environment")
  write_atomic safe_id manifest
  write_atomic (latest_stem environment) manifest

/-- `MetadataStore.get_snapshot`. -/
def read_snapshot (snapshot_id : String) : StoreM SnapshotManifest := do
  let safe_id ← .ofExcept (safe_snapshot_component snapshot_id "snapshot_id")
  match ← Prog.perform (F := Files) (.read safe_id) id with
  | none => .raise s!"Snapshot manifest not found: {snapshot_id}"
  | some manifest =>
    if manifest.snapshot_id ≠ snapshot_id then
      .raise (s!"Snapshot manifest identity mismatch: requested {quoted snapshot_id}, " ++
        s!"payload contains {quoted manifest.snapshot_id}")
    else .pure manifest

def get_snapshot (ctx : ServiceContext) (snapshot_id : String) : StoreM SnapshotManifest := do
  let manifest ← read_snapshot snapshot_id
  if manifest.project ≠ ctx.config.project_name then
    .raise (s!"Snapshot {snapshot_id} belongs to project {quoted manifest.project}, " ++
      s!"not {quoted ctx.config.project_name}")
  else .pure manifest

/-! ## Creating and reconciling -/

inductive Failure where
  | error (message : String)
  | createFailed (manifest : SnapshotManifest) (cause : String)
  deriving DecidableEq, Repr

/-- `str(exc)`. -/
def Failure.message : Failure → String
  | .error message => message
  | .createFailed manifest cause =>
    s!"Snapshot {manifest.snapshot_id} is {manifest.status.text}: {cause}. " ++
    "Inspect it with 'odooctl dr snapshot list --json' and retry " ++
    s!"discovery with 'odooctl dr snapshot reconcile {manifest.snapshot_id}'."

/-- The attributes of a provider's snapshot in place of the manifest's own. -/
def SnapshotManifest.merged (manifest : SnapshotManifest) (provider_snapshot : ProviderSnapshot)
    (completed_at last_error : Option String) : SnapshotManifest :=
  { manifest with
    source_resource_id := provider_snapshot.source_resource_id
    resources := provider_snapshot.resources
    scope := provider_snapshot.scope
    consistency := provider_snapshot.consistency
    recovery_notes := provider_snapshot.recovery_notes
    provider_scope := provider_snapshot.provider_scope
    provider_metadata := provider_snapshot.provider_metadata
    status := provider_snapshot.status
    completed_at := completed_at
    last_error := last_error }

def merge_provider_snapshot (manifest : SnapshotManifest) (provider_snapshot : ProviderSnapshot)
    (last_error : Option String := none) : StoreM SnapshotManifest :=
  if manifest.completed_at ≠ none ∧ manifest.completed_at ≠ some "" then
    .pure (manifest.merged provider_snapshot manifest.completed_at last_error)
  else if provider_snapshot.status = .complete then do
    let now ← now_utc
    .pure (manifest.merged provider_snapshot (some now) last_error)
  else .pure (manifest.merged provider_snapshot none last_error)

/-- `persist_progress` with the manifest that it rebinds; a failed save comes after that. -/
def persist_progress (manifest : SnapshotManifest) (progress : ProviderSnapshot) :
    Prog Files ε (SnapshotManifest × Except String Unit) := do
  match ← (merge_provider_snapshot manifest progress).attempt with
  | .error e => .pure (manifest, .error e)
  | .ok merged => do
    let saved ← (save_snapshot_manifest merged).attempt
    .pure (merged, saved)

/-- Run a creation whose progress is persisted; its outcome and the last manifest. -/
def observed (manifest : SnapshotManifest) :
    Prog (F.sum Progress) CreateFailure α →
      Prog (Files.sum F) ε (SnapshotManifest × Except CreateFailure α)
  | .pure a => .pure (manifest, .ok a)
  | .raise e => .pure (manifest, .error e)
  | .call (.inl o) k => .call (.inr o : (Files.sum F).Op) fun r => observed manifest (k r)
  | .call (.inr progress) k =>
    (persist_progress manifest progress).left.bind fun r => observed r.1 (k r.2)

abbrev ServiceM (F : Interface) := Prog (Files.sum F) Failure

def onStore (p : StoreM α) : ServiceM F α := (p.mapError Failure.error).left

/-- `if c: raise`. -/
def refuse_if (c : Prop) [Decidable c] (message : String) : Except Failure Unit :=
  if c then .error (.error message) else .ok ()

/-- `provider or make_snapshot_provider(cfg.snapshots)`. -/
def selected (make_snapshot_provider : ServiceContext → Except String (SnapshotProvider F))
    (ctx : ServiceContext) (provider : Option (SnapshotProvider F)) :
    Except Failure (SnapshotProvider F) :=
  match provider with
  | some provider => .ok provider
  | none => (make_snapshot_provider ctx).mapError .error

/-- `_assert_snapshot_credentials`, where no provider is given. -/
def assert_snapshot_credentials (ctx : ServiceContext) (provider : Option (SnapshotProvider F)) :
    Except Failure Unit :=
  refuse_if (provider.isNone ∧ ctx.missing_snapshot_env_vars ≠ [])
    ("Missing snapshot provider environment variables: " ++
      ", ".intercalate ctx.missing_snapshot_env_vars)

def configured_snapshot_identity (ctx : ServiceContext) :
    Except Failure (String × List (String × String)) :=
  match ctx.config.snapshots.provider, ctx.aws_ebs, ctx.hetzner_cloud with
  | .aws_ebs, some aws_ebs, _ => .ok (aws_ebs.instance_id, [("region", aws_ebs.region)])
  | .hetzner_cloud, _, some hetzner_cloud =>
    let context := match hetzner_cloud.context with
      | some context => if context = "" then "environment-credentials" else context
      | none => "environment-credentials"
    .ok (hetzner_cloud.server, [("context", context)])
  | _, _, _ => .error (.error "No snapshot provider identity is configured")

/-- The checks of `run_snapshot_create` before an id is chosen. -/
def check_create (ctx : ServiceContext) (environment trigger : String)
    (provider : Option (SnapshotProvider F)) : Except Failure (Trigger × Provider) := do
  let _ ← (ProjectConfiguration.env ctx.config environment).mapError .error
  match Trigger.parse trigger with
  | none => .error (.error s!"Unsupported snapshot trigger: {trigger}")
  | some trigger =>
    match Provider.ofSetting ctx.config.snapshots.provider with
    | none =>
      .error (.error "Snapshot creation is disabled because snapshots.provider is none")
    | some kind => do
      refuse_if (environment ≠ ctx.config.snapshots.environment)
        (s!"Snapshot provider is bound to environment " ++
          s!"{quoted ctx.config.snapshots.environment}, not {quoted environment}")
      assert_snapshot_credentials ctx provider
      .ok (trigger, kind)

variable (make_snapshot_provider : ServiceContext → Except String (SnapshotProvider F))

def run_snapshot_create (ctx : ServiceContext) (environment : String)
    (trigger : String := "explicit") (portable_backup_id : Option String := none)
    (provider : Option (SnapshotProvider F) := none) : ServiceM F SnapshotManifest := do
  let (trigger, kind) ← .ofExcept (check_create ctx environment trigger provider)
  let stamp ← onStore (.perform (F := Files) (.new_stamp environment) .ok)
  let snapshot_id := new_snapshot_id environment stamp
  let description :=
    s!"odooctl DR snapshot {snapshot_id} for {ctx.config.project_name}/{environment}"
  let selected ← .ofExcept (selected make_snapshot_provider ctx provider)
  let (source_resource_id, provider_scope) ← .ofExcept (configured_snapshot_identity ctx)
  let timestamp ← onStore now_utc
  let manifest : SnapshotManifest :=
    { snapshot_id, project := ctx.config.project_name, environment, timestamp, provider := kind
      source_resource_id, trigger, portable_backup_id, description := some description
      status := .requested, provider_scope }
  -- the intent is on disk before the provider is asked for anything
  onStore (save_snapshot_manifest manifest)
  let (manifest, created) ← observed manifest (selected.create
    { snapshot_id, project := ctx.config.project_name, environment, description })
  match created with
  | .ok created =>
    let manifest ← onStore (merge_provider_snapshot manifest created)
    onStore (save_snapshot_manifest manifest)
    .pure manifest
  | .error exc =>
    let manifest ← match exc.snapshot with
      | some snapshot => onStore (merge_provider_snapshot manifest snapshot (some exc.message))
      | none => .pure { manifest with last_error := some exc.message }
    onStore (save_snapshot_manifest manifest)
    .raise (.createFailed manifest exc.message)

/-- The checks of `run_snapshot_reconcile` on the manifest it has read. -/
def check_reconcile (ctx : ServiceContext) (snapshot_id : String)
    (expected_environment : Option String) (provider : Option (SnapshotProvider F))
    (manifest : SnapshotManifest) : Except Failure (SnapshotProvider F) := do
  refuse_if (expected_environment ≠ none ∧ expected_environment ≠ some manifest.environment)
    (s!"Snapshot {snapshot_id} belongs to environment {quoted manifest.environment}, " ++
      "not locked environment " ++ quoted (expected_environment.getD ""))
  match Provider.ofSetting ctx.config.snapshots.provider with
  | none =>
    .error (.error "Snapshot reconciliation is disabled because snapshots.provider is none")
  | some kind => do
    refuse_if (manifest.environment ≠ ctx.config.snapshots.environment)
      (s!"Snapshot {snapshot_id} is labelled for environment {quoted manifest.environment}, " ++
        s!"but the provider is bound to {quoted ctx.config.snapshots.environment}")
    refuse_if (manifest.provider ≠ kind)
      (s!"Snapshot {snapshot_id} uses provider {manifest.provider.text}, but the " ++
        s!"project is configured for {kind.text}")
    assert_snapshot_credentials ctx provider
    selected make_snapshot_provider ctx provider

def run_snapshot_reconcile (ctx : ServiceContext) (snapshot_id : String)
    (expected_environment : Option String := none)
    (provider : Option (SnapshotProvider F) := none) : ServiceM F SnapshotManifest := do
  let manifest ← onStore (get_snapshot ctx snapshot_id)
  let selected ← .ofExcept
    (check_reconcile make_snapshot_provider ctx snapshot_id expected_environment provider manifest)
  match ← (selected.reconcile manifest).right.attempt with
  | .error exc =>
    onStore (save_snapshot_manifest { manifest with last_error := some exc })
    .raise (.error exc)
  | .ok refreshed =>
    let manifest ← onStore (merge_provider_snapshot manifest refreshed)
    onStore (save_snapshot_manifest manifest)
    .pure manifest

end SnapshotService
