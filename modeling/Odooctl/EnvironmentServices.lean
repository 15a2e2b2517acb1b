import Odooctl.FilestoreAdapters
import Odooctl.SwapTempDatabase

/-!
# Restore, clone and destroy

`run_restore`, `restore_to_env` and `run_clone` of `services/`, and the purge of
`env destroy`, over the database server, the filestores and everything else that they call.
-/
namespace EnvironmentServices

open EffectPrograms PostgresCatalog DatabaseCutover SwapTempDatabase
open ProjectConfiguration FilestoreAdapters KubernetesRollout PythonText

/-- The calls that neither name a database to create, drop or rename nor write a filestore. -/
inductive ServiceStep where
  | resolve_backup_dir (environment backup : String)
  | validate_backup_dir (backup_dir : String) (expected_environment : Option String)
  | check_sanitization_sql_files
  | probe_native_neutralization (environment : String)
  | neutralize_database (db_name : DbName) (environment : String)
  | dump (db_name : DbName)
  | unlink_dump
  | pipe_dump (src dst : DbName)
  | validate_runtime_definition
  | missing_env_vars
  | update_modules (environment : String)
  | restart
  | ps
  | check_url (environment : String)
  | save_sanitization (source target : String)
  | save_clone_manifest (source target : String)
  | start_operation (environment : String)
  | emit (message : String)
  | write_config_without (environment : String)
  deriving DecidableEq, Repr

abbrev ServiceStep.Answer : ServiceStep → Type
  | .resolve_backup_dir _ _ => String
  | .missing_env_vars => List String
  | .ps => String
  | _ => Unit

abbrev Steps' : Interface := ⟨ServiceStep, fun c => Except String c.Answer⟩

/-- The database server, the filestores, and the rest. -/
abbrev Services : Interface := Adapter.sum (Files.sum Steps')

inductive ServiceError where
  | database (e : SwapError)
  | raised (message : String)

abbrev ServiceM := Prog Services ServiceError

def onDatabase {α : Type} (p : SwapM α) : ServiceM α := (p.mapError ServiceError.database).left

def onFiles {α : Type} (p : FileM α) : ServiceM α :=
  ((p.mapError ServiceError.raised).left : Prog (Files.sum Steps') _ α).right

def step (c : ServiceStep) : ServiceM c.Answer :=
  ((Prog.perform (F := Steps') c (Except.mapError ServiceError.raised)).right :
    Prog (Files.sum Steps') _ _).right

def fails {α : Type} (message : String) : ServiceM α := .raise (.raised message)

def orRaise {α : Type} (r : Except String α) : ServiceM α := .ofExcept (r.mapError .raised)

/-- The reply is an exception. -/
def Raised : (o : Services.Op) → Services.Reply o → Prop
  | .inl _, (r : Except AdapterError _) => r.isOk = false
  | .inr (.inl _), (r : Except String _) => r.isOk = false
  | .inr (.inr _), (r : Except String _) => r.isOk = false

/-! ## Database adapters -/

/-- `PostgresAdapter` and `DockerPostgresAdapter` expose the same methods. -/
def postgresHooks : Hooks := ⟨true, false, true⟩

def adapterCall (c : AdapterCall) (reply : Except AdapterError c.Answer → Except SwapError Unit) :
    SwapM Unit := .perform (F := Adapter) c reply

def create (db_name : DbName) : SwapM Unit :=
  adapterCall (.create db_name) (Except.mapError .adapter)

def restore_into (db_name : DbName) : SwapM Unit :=
  adapterCall (.restore_into db_name) (Except.mapError .adapter)

/-- `dropdb --if-exists`, after the connections were terminated where Docker runs it. -/
def drop_create (mode : ExecutionMode) (db_name : DbName) : SwapM Unit := do
  match mode with
  | .docker =>
    terminate_connections db_name
    psql "postgres" (.dropDatabase db_name)
    create db_name
  | .host =>
    psql "postgres" (.dropDatabase db_name)
    create db_name

def restore (mode : ExecutionMode) (db_name : DbName) : SwapM Unit := do
  drop_create mode db_name
  restore_into db_name

def drop (db_name : DbName) : SwapM Unit := do
  terminate_connections db_name
  drop_database db_name

/-! ## Filestores of an environment -/

/-- `make_runtime_adapter`: the Odoo service that an environment's commands run in. On
Kubernetes it is the one in the environment's namespace. -/
def make_runtime_adapter (cfg : ConfigFields) (environment : String) : Except String Place :=
  match cfg.runtime with
  | .docker_compose _ => .ok (.service none)
  | .kubernetes runtime => do
    let namespace_ ← environment_namespace cfg.project_name runtime.namespace_template environment
    let _ ← kubernetes_name cfg.odoo_service
    return .service (some namespace_)

def runtime_volume (cfg : ConfigFields) (environment : String) :
    Except String RuntimeVolumeFilestore := do
  let place ← make_runtime_adapter cfg environment
  return ⟨place, (PosixPath.parse cfg.filestore_container_path).parts⟩

/-- `fs.restore_archive(archive, target_filestore)`. -/
def restore_filestore (host : Host) (cfg : ConfigFields) (name : String) (e : EnvironmentConfig)
    (archive : String) : ServiceM Unit := do
  match e.filestore_volume with
  | some _ =>
    let fs ← orRaise (runtime_volume cfg name)
    onFiles (fs.restore_archive archive (PosixPath.parse e.filestore_path).name)
  | none => onFiles (FilestoreAdapter.restore_archive archive (host.resolve_path e.filestore_path))

/-- `fs.copy(src_filestore, dst_filestore)`, with the adapter of the target. -/
def copy_filestore (host : Host) (cfg : ConfigFields) (target : String)
    (src dst : EnvironmentConfig) : ServiceM Unit := do
  match dst.filestore_volume with
  | some _ =>
    let fs ← orRaise (runtime_volume cfg target)
    let source := match src.filestore_volume with
      | some _ => (PosixPath.parse src.filestore_path).name
      | none => (host.resolve_path src.filestore_path).name
    onFiles (fs.copy source (PosixPath.parse dst.filestore_path).name)
  | none =>
    let source := match src.filestore_volume with
      | some _ => host.as_given src.filestore_path
      | none => host.resolve_path src.filestore_path
    onFiles (FilestoreAdapter.copy source (host.resolve_path dst.filestore_path))

/-- `make_filestore_adapter(project_ctx, env).delete(str(env.filestore_path))`. -/
def delete_filestore (host : Host) (cfg : ConfigFields) (name : String) (e : EnvironmentConfig) :
    ServiceM Unit := do
  match e.filestore_volume with
  | some _ =>
    let fs ← orRaise (runtime_volume cfg name)
    onFiles (fs.delete (PosixPath.parse e.filestore_path).name)
  | none => onFiles (FilestoreAdapter.delete (host.as_given e.filestore_path))

/-! ## The services -/

variable (host : Host) (cfg : ConfigFields)

def temp_name (e : EnvironmentConfig) : DbName := e.db_name ++ cfg.temp_db_suffix

def not_distinct : String :=
  "Configured sanitization.temp_db_suffix must produce a temporary database distinct from " ++
    "the target"

/-- `run_restore` up to the swap. -/
def prepare_restore (environment : String) (e : EnvironmentConfig) (backup : String) :
    ServiceM Unit := do
  let backup_dir ← step (.resolve_backup_dir environment backup)
  step (.validate_backup_dir backup_dir (some environment))
  if temp_name cfg e = e.db_name then fails not_distinct
  else
    onDatabase (restore cfg.runtime.execution_mode (temp_name cfg e))
    restore_filestore host cfg environment e (backup_dir ++ "/filestore.tar")

def run_restore (environment : String) (backup : String) : ServiceM Unit := do
  let e ← orRaise (env cfg environment)
  prepare_restore host cfg environment e backup
  onDatabase (swap_temp_database postgresHooks (temp_name cfg e) e.db_name environment)
  step (.check_url environment)

/-- The sanitization of a protected source before its copy goes live. -/
def neutralize_if (needed : Bool) (db_name : DbName) (environment : String) : ServiceM Unit :=
  if needed then step (.neutralize_database db_name environment) else .pure ()

/-- `restore_to_env` up to the swap. -/
def prepare_restore_to_env (source_environment target_environment : String)
    (e : EnvironmentConfig) (source_is_protected : Bool) (backup : String) :
    ServiceM Unit := do
  let backup_dir ← step (.resolve_backup_dir source_environment backup)
  step (.validate_backup_dir backup_dir none)
  if source_is_protected then step .check_sanitization_sql_files else .pure ()
  if temp_name cfg e = e.db_name then fails not_distinct
  else
    if source_is_protected then
      let _ ← orRaise (make_runtime_adapter cfg target_environment)
      step (.probe_native_neutralization target_environment)
    else .pure ()
    onDatabase (restore cfg.runtime.execution_mode (temp_name cfg e))
    neutralize_if source_is_protected (temp_name cfg e) target_environment
    restore_filestore host cfg target_environment e (backup_dir ++ "/filestore.tar")

def restore_to_env (source_environment target_environment backup : String) :
    ServiceM Unit := do
  if ← orRaise (is_protected cfg target_environment) then
    fails (s!"Cannot restore into protected environment {quoted target_environment}. " ++
      "Use a non-production target (e.g. staging).")
  else
  let e ← orRaise (env cfg target_environment)
  let source_is_protected ← orRaise (is_protected cfg source_environment)
  if source_is_protected ∧ e.sanitize = false then
    fails (s!"Refusing to restore protected-environment backup ({quoted source_environment}) " ++
      s!"into {quoted target_environment} without sanitization. " ++
      "Set sanitize: true on the target environment.")
  else
  prepare_restore_to_env host cfg source_environment target_environment e source_is_protected backup
  onDatabase (swap_temp_database postgresHooks (temp_name cfg e) e.db_name target_environment)
  if source_is_protected then
    step (.save_sanitization source_environment target_environment)
  else .pure ()
  step (.check_url target_environment)

/-- The dump of the source into the temporary database. -/
def copy_database (source temp_db : DbName) : ServiceM Unit :=
  match cfg.runtime.execution_mode with
  | .docker => do
    onDatabase (drop_create .docker temp_db)
    step (.pipe_dump source temp_db)
  | .host =>
    Prog.ensuring (do
      step (.dump source)
      onDatabase (restore .host temp_db)) (step .unlink_dump)

/-- `run_clone` from the first call to the swap. -/
def prepare_clone (target : String) (src dst : EnvironmentConfig) (should_sanitize : Bool) :
    ServiceM Unit := do
  let missing ← step .missing_env_vars
  if missing ≠ [] then
    fails ("Missing required environment variables: " ++ ", ".intercalate missing)
  else
    if should_sanitize then step .check_sanitization_sql_files else .pure ()
    let _ ← orRaise (make_runtime_adapter cfg target)
    if should_sanitize then step (.probe_native_neutralization target) else .pure ()
    if temp_name cfg dst = dst.db_name then fails not_distinct
    else
      copy_database cfg src.db_name (temp_name cfg dst)
      neutralize_if should_sanitize (temp_name cfg dst) target
      copy_filestore host cfg target src dst

/-- `run_clone` after the swap. -/
def finish_clone (source target : String) (should_sanitize : Bool) : ServiceM Unit := do
  if should_sanitize then step (.save_sanitization source target) else .pure ()
  step (.update_modules target)
  step .restart
  let running_services ← step .ps
  if containsText running_services cfg.odoo_service then
    step (.check_url target)
    step (.save_clone_manifest source target)
  else fails s!"Target service is not running after clone: {cfg.odoo_service}"

def run_clone (source target : String) (sanitize : Option Bool) (preview : Bool) :
    ServiceM Unit := do
  let src ← orRaise (env cfg source)
  let dst ← orRaise (env cfg target)
  if (dst.clone_from.getD "") = "" then
    fails (s!"Environment '{target}' is not configured as a clone target; " ++
      "set clone_from before cloning into it")
  else if dst.clone_from ≠ some source then
    fails (s!"Environment '{target}' must be cloned from '" ++ dst.clone_from.getD "" ++
      s!"', not '{source}'")
  else
  let should_sanitize := sanitize.getD dst.sanitize
  let protected_source ← orRaise (is_protected cfg source)
  if protected_source = true ∧ should_sanitize = false then
    fails "Refusing to clone protected environment data without sanitization enabled"
  else
  step .validate_runtime_definition
  if preview then .pure ()
  else
  prepare_clone host cfg target src dst should_sanitize
  onDatabase (swap_temp_database postgresHooks (temp_name cfg dst) dst.db_name target
    (some fun name => (is_protected cfg name).mapError .runtimeError))
  finish_clone cfg source target should_sanitize

/-- `env destroy`. -/
def destroy_env (name : String) (purge yes : Bool) : ServiceM Unit := do
  if ¬ cfg.knows name then fails s!"Unknown environment: {name}"
  else
  if ← orRaise (is_protected cfg name) then
    fails s!"Refusing to destroy protected environment '{name}'"
  else if yes = false then fails "Pass --yes to confirm environment removal"
  else
  let e ← orRaise (env cfg name)
  if purge then
    step (.start_operation name)
    step (.emit s!"purging environment {name}")
    onDatabase (drop e.db_name)
    delete_filestore host cfg name e
    step (.emit s!"environment {name} purged")
  else .pure ()
  step (.write_config_without name)

/-! ## What a service calls -/

section Calls

variable {host cfg} {D : Services.Op → Prop} {environment backup source name : String}
  {e src : EnvironmentConfig}

theorem calls_step (hstep : ∀ c, D (.inr (.inr c))) (c : ServiceStep) : (step c).Calls D :=
  calls_right (calls_right (calls_perform.mpr (hstep c)))

theorem calls_orRaise_bind {α β : Type} {r : Except String α} {f : α → ServiceM β}
    (h : ∀ a, r = .ok a → (f a).Calls D) : (orRaise r >>= f).Calls D := by
  refine calls_ofExcept_bind fun a ha => ?_
  cases r with
  | error m => cases ha
  | ok b =>
    cases ha
    exact h _ rfl

theorem env_ok {e' : EnvironmentConfig} (hfind : cfg.find name = some e)
    (h : env cfg name = .ok e') : e' = e := by
  unfold env at h
  rw [hfind] at h
  exact (Except.ok.inj h).symm

/-- What the database and the filestore of an environment see before a swap. -/
structure Staging (host : Host) (cfg : ConfigFields) (environment : String)
    (e : EnvironmentConfig) (D : Services.Op → Prop) : Prop where
  restore : ∀ mode, (onDatabase (restore mode (temp_name cfg e))).Calls D
  drop_create : ∀ mode, (onDatabase (drop_create mode (temp_name cfg e))).Calls D
  filestore : ∀ archive, (restore_filestore host cfg environment e archive).Calls D

theorem calls_prepare_restore (hstep : ∀ c, D (.inr (.inr c)))
    (h : Staging host cfg environment e D) :
    (prepare_restore host cfg environment e backup).Calls D := by
  refine calls_bind (calls_step hstep _) fun backup_dir => ?_
  refine calls_bind (calls_step hstep _) fun _ => calls_ite (calls_raise _) ?_
  exact calls_bind (h.restore _) fun _ => h.filestore _

theorem calls_run_restore (hstep : ∀ c, D (.inr (.inr c))) (hfind : cfg.find environment = some e)
    (h : Staging host cfg environment e D)
    (hswap : ∀ guard, (onDatabase (swap_temp_database postgresHooks (temp_name cfg e) e.db_name
      environment guard)).Calls D) :
    (run_restore host cfg environment backup).Calls D := by
  refine calls_orRaise_bind fun e' he => ?_
  obtain rfl := env_ok hfind he
  refine calls_bind (calls_prepare_restore hstep h) fun _ => ?_
  exact calls_bind (hswap _) fun _ => calls_step hstep _

theorem calls_neutralize_if (hstep : ∀ c, D (.inr (.inr c))) {b : Bool} {x : DbName} :
    (neutralize_if b x environment).Calls D :=
  calls_ite (calls_step hstep _) (calls_pure _)

theorem calls_prepare_restore_to_env (hstep : ∀ c, D (.inr (.inr c))) {b : Bool}
    (h : Staging host cfg environment e D) :
    (prepare_restore_to_env host cfg source environment e b backup).Calls D := by
  have hrest : ∀ dir, (do
      onDatabase (restore cfg.runtime.execution_mode (temp_name cfg e))
      neutralize_if b (temp_name cfg e) environment
      restore_filestore host cfg environment e dir : ServiceM Unit).Calls D := fun dir =>
    calls_bind (h.restore _) fun _ =>
      calls_bind (calls_neutralize_if hstep) fun _ => h.filestore _
  refine calls_bind (calls_step hstep _) fun backup_dir => ?_
  refine calls_bind (calls_step hstep _) fun _ => ?_
  cases b with
  | true =>
    refine calls_bind (calls_step hstep _) fun _ => calls_ite (calls_raise _) ?_
    refine calls_orRaise_bind fun _ _ => ?_
    exact calls_bind (calls_step hstep _) fun _ => hrest _
  | false =>
    refine calls_bind (calls_pure _) fun _ => calls_ite (calls_raise _) ?_
    exact calls_bind (calls_pure _) fun _ => hrest _

theorem calls_restore_to_env (hstep : ∀ c, D (.inr (.inr c)))
    (hfind : cfg.find environment = some e) (h : Staging host cfg environment e D)
    (hswap : ∀ guard, (onDatabase (swap_temp_database postgresHooks (temp_name cfg e) e.db_name
      environment guard)).Calls D) :
    (restore_to_env host cfg source environment backup).Calls D := by
  refine calls_orRaise_bind fun refused _ => calls_ite (calls_raise _) ?_
  refine calls_orRaise_bind fun e' he => ?_
  obtain rfl := env_ok hfind he
  refine calls_orRaise_bind fun b _ => calls_ite (calls_raise _) ?_
  refine calls_bind (calls_prepare_restore_to_env hstep h) fun _ => ?_
  refine calls_bind (hswap _) fun _ => ?_
  cases b with
  | true => exact calls_bind (calls_step hstep _) fun _ => calls_step hstep _
  | false => exact calls_bind (calls_pure _) fun _ => calls_step hstep _

theorem calls_copy_database (hstep : ∀ c, D (.inr (.inr c))) {db : DbName}
    (h : Staging host cfg environment e D) :
    (copy_database cfg db (temp_name cfg e)).Calls D := by
  unfold copy_database
  split
  · exact calls_bind (h.drop_create _) fun _ => calls_step hstep _
  · exact calls_ensuring (calls_bind (calls_step hstep _) fun _ => h.restore _)
      (calls_step hstep _)

theorem calls_prepare_clone (hstep : ∀ c, D (.inr (.inr c))) {b : Bool}
    (h : Staging host cfg environment e D)
    (hcopy : ∀ place, make_runtime_adapter cfg environment = .ok place →
      ∀ src, (copy_filestore host cfg environment src e).Calls D) :
    (prepare_clone host cfg environment src e b).Calls D := by
  have hrest : ∀ place, make_runtime_adapter cfg environment = .ok place → (do
      copy_database cfg src.db_name (temp_name cfg e)
      neutralize_if b (temp_name cfg e) environment
      copy_filestore host cfg environment src e : ServiceM Unit).Calls D := fun place hplace =>
    calls_bind (calls_copy_database hstep h) fun _ =>
      calls_bind (calls_neutralize_if hstep) fun _ => hcopy place hplace src
  refine calls_bind (calls_step hstep _) fun missing => calls_ite (calls_raise _) ?_
  cases b with
  | true =>
    refine calls_bind (calls_step hstep _) fun _ => calls_orRaise_bind fun place hplace => ?_
    exact calls_bind (calls_step hstep _) fun _ => calls_ite (calls_raise _) (hrest place hplace)
  | false =>
    refine calls_bind (calls_pure _) fun _ => calls_orRaise_bind fun place hplace => ?_
    exact calls_bind (calls_pure _) fun _ => calls_ite (calls_raise _) (hrest place hplace)

theorem calls_finish_clone (hstep : ∀ c, D (.inr (.inr c))) {b : Bool} :
    (finish_clone cfg source environment b).Calls D := by
  have hrest : (do
      step (.update_modules environment)
      step .restart
      let running_services ← step .ps
      if containsText running_services cfg.odoo_service then
        step (.check_url environment)
        step (.save_clone_manifest source environment)
      else fails s!"Target service is not running after clone: {cfg.odoo_service}" :
        ServiceM Unit).Calls D := by
    refine calls_bind (calls_step hstep _) fun _ => calls_bind (calls_step hstep _) fun _ => ?_
    refine calls_bind (calls_step hstep _) fun _ => calls_ite ?_ (calls_raise _)
    exact calls_bind (calls_step hstep _) fun _ => calls_step hstep _
  cases b with
  | true => exact calls_bind (calls_step hstep _) fun _ => hrest
  | false => exact calls_bind (calls_pure _) fun _ => hrest

theorem calls_run_clone (hstep : ∀ c, D (.inr (.inr c))) {sanitize : Option Bool} {preview : Bool}
    (hfind : cfg.find environment = some e) (h : Staging host cfg environment e D)
    (hcopy : e.clone_from.getD "" ≠ "" → ∀ place, make_runtime_adapter cfg environment = .ok place →
      ∀ src, (copy_filestore host cfg environment src e).Calls D)
    (hswap : ∀ guard, (onDatabase (swap_temp_database postgresHooks (temp_name cfg e) e.db_name
      environment guard)).Calls D) :
    (run_clone host cfg source environment sanitize preview).Calls D := by
  refine calls_orRaise_bind fun src _ => calls_orRaise_bind fun e' he => ?_
  obtain rfl := env_ok hfind he
  split
  · exact calls_raise _
  next hfrom =>
  refine calls_ite (calls_raise _) ?_
  refine calls_orRaise_bind fun b _ => calls_ite (calls_raise _) ?_
  refine calls_bind (calls_step hstep _) fun _ => calls_ite (calls_pure _) ?_
  refine calls_bind (calls_prepare_clone hstep h (hcopy hfrom)) fun _ => ?_
  exact calls_bind (hswap _) fun _ => calls_finish_clone hstep

theorem calls_destroy_env (hstep : ∀ c, D (.inr (.inr c))) {purge yes : Bool}
    (hfind : cfg.find environment = some e) (hdrop : (onDatabase (drop e.db_name)).Calls D)
    (hdelete : is_protected cfg environment = .ok false →
      (delete_filestore host cfg environment e).Calls D) :
    (destroy_env host cfg environment purge yes).Calls D := by
  refine calls_ite (calls_raise _) (calls_orRaise_bind fun refused hrefused => ?_)
  cases refused with
  | true => exact calls_raise _
  | false =>
  refine calls_ite (calls_raise _) (calls_ite (calls_raise _) ?_)
  refine calls_orRaise_bind fun e' he => ?_
  obtain rfl := env_ok hfind he
  cases purge with
  | true =>
    refine calls_bind (calls_step hstep _) fun _ => calls_bind (calls_step hstep _) fun _ => ?_
    refine calls_bind hdrop fun _ => calls_bind (hdelete hrefused) fun _ => ?_
    exact calls_bind (calls_step hstep _) fun _ => calls_step hstep _
  | false => exact calls_bind (calls_pure _) fun _ => calls_step hstep _

end Calls

end EnvironmentServices
