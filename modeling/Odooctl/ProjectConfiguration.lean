import Odooctl.CheckedLists
import Odooctl.KubernetesRollout
import Odooctl.PythonText
import Mathlib.Data.String.Basic

/-!
# The configuration of a project

The parts of `config.py` that name databases, filestores and namespaces, and
`validate_environment_graph`. A value of a configuration type has passed the validators
of its own fields.
-/
namespace ProjectConfiguration

open CheckedLists PythonText KubernetesRollout

/-! ## Field validators -/

def IDENTIFIER_MAX_LENGTH : ℕ := 64

def isIdentifierChar (c : Char) : Bool := c.isAlphanum || c = '.' || c = '_' || c = '-'

/-- `_IDENTIFIER_RE.fullmatch(value)`. -/
def identifierMatch : List Char → Bool
  | [] => false
  | c :: cs => c.isAlphanum && cs.all isIdentifierChar

def redacted (value : String) : String := String.ofList (value.toList.take 32)

def validate_identifier (value field_name : String) : Except String String :=
  if IDENTIFIER_MAX_LENGTH < value.toList.length ∨ containsText value ".." ∨
      identifierMatch value.toList = false then
    .error (s!"{field_name} {quoted (redacted value)} is invalid: must match " ++
      "^[A-Za-z0-9][A-Za-z0-9._-]*$ with no '..', max 64 characters")
  else .ok value

/-- A POSIX path as `PurePosixPath` reads it: empty components and `.` are dropped. -/
structure PosixPath where
  absolute : Bool
  parts : List String
  deriving DecidableEq, Repr

def PosixPath.parse (value : String) : PosixPath where
  absolute := value.toList.head? = some '/'
  parts := ((value.toList.splitOn '/').map String.ofList).filter fun p => p ≠ "" ∧ p ≠ "."

def PosixPath.name (p : PosixPath) : String := p.parts.getLast?.getD ""

def isSpace (c : Char) : Bool :=
  let n := c.toNat
  decide (9 ≤ n ∧ n ≤ 13 ∨ 28 ≤ n ∧ n ≤ 32 ∨ 0x2000 ≤ n ∧ n ≤ 0x200A) ||
    [0x85, 0xA0, 0x1680, 0x2028, 0x2029, 0x202F, 0x205F, 0x3000].contains n

def filestore_path_must_be_safe (value field_name : String) : Except String String :=
  let display := quoted (String.ofList (value.toList.take 64))
  if value.toList.all isSpace then .error s!"{field_name} must not be empty"
  else if ".." ∈ (PosixPath.parse value).parts then
    .error s!"{field_name} {display} must not contain '..' path segments"
  else if (PosixPath.parse value).name = "" then
    .error s!"{field_name} {display} must reference a named directory, not a root path"
  else .ok value

def temp_db_suffix_must_be_safe (value field_name : String) : Except String String := do
  if value = "" then .error s!"{field_name} must not be empty"
  else
    let _ ← validate_identifier ("x" ++ value) field_name
    return value

theorem default_suffix_safe :
    temp_db_suffix_must_be_safe "_incoming" "temp_db_suffix" = .ok "_incoming" := by decide +kernel

/-! ## The configuration -/

inductive Tier where
  | production
  | staging
  | development
  | qa
  deriving DecidableEq, Repr

structure EnvironmentConfig where
  stack : String := "default"
  tier : Option Tier := none
  protected_ : Option Bool := none
  branch : String
  domain : String
  db_name : String
  filestore_path : String
  filestore_volume : Option String := none
  db_selector : Bool := false
  clone_from : Option String := none
  sanitize : Bool := false
  promotes_to : Option String := none
  rollout_strategy : RolloutStrategy := .recreate
  db_name_safe : validate_identifier db_name "db_name" = .ok db_name
  filestore_volume_safe : ∀ v ∈ filestore_volume, validate_identifier v "filestore_volume" = .ok v
  filestore_path_safe :
    filestore_path_must_be_safe filestore_path "filestore_path" = .ok filestore_path

theorem no_volume_safe :
    ∀ v ∈ (none : Option String), validate_identifier v "filestore_volume" = .ok v := by simp

theorem odoo_safe : validate_identifier "odoo" "db_name" = .ok "odoo" := by decide +kernel

theorem odoo_path_safe :
    filestore_path_must_be_safe "filestore/odoo" "filestore_path" = .ok "filestore/odoo" := by
  decide +kernel

theorem odoo_production_safe :
    validate_identifier "odoo_production" "db_name" = .ok "odoo_production" := by decide +kernel

theorem odoo_production_path_safe :
    filestore_path_must_be_safe "filestore/odoo_production" "filestore_path" =
      .ok "filestore/odoo_production" := by decide +kernel

inductive ExecutionMode where
  | docker
  | host
  deriving DecidableEq, Repr

inductive CanaryProvider where
  | none
  | nginx
  deriving DecidableEq, Repr

/-- Every `{project}` and `{environment}` replaced; the count says how many characters of a
replaced field are still to be passed over. -/
def expandFields (project environment : List Char) : ℕ → List Char → List Char
  | _, [] => []
  | n + 1, _ :: cs => expandFields project environment n cs
  | 0, c :: cs =>
    if "{project}".toList <+: c :: cs then project ++ expandFields project environment 8 cs
    else if "{environment}".toList <+: c :: cs then
      environment ++ expandFields project environment 12 cs
    else c :: expandFields project environment 0 cs

def withoutFields : List Char → List Char := expandFields [] [] 0

def namespace_template_must_be_bounded (value : String) : Except String String :=
  if '{' ∈ withoutFields value.toList ∨ '}' ∈ withoutFields value.toList then
    .error "namespace_template may only use {project} and {environment}"
  else if value = "" ∨ 128 < value.toList.length then
    .error "namespace_template must be between 1 and 128 characters"
  else .ok value

structure KubernetesRuntimeConfig where
  namespace_template : String := "{project}-{environment}"
  canary_provider : CanaryProvider := .none
  namespace_template_safe :
    namespace_template_must_be_bounded namespace_template = .ok namespace_template

inductive RuntimeConfig where
  | docker_compose (execution_mode : ExecutionMode)
  | kubernetes (runtime : KubernetesRuntimeConfig)

/-- The Kubernetes runtime runs database tools on the host. -/
def RuntimeConfig.execution_mode : RuntimeConfig → ExecutionMode
  | .docker_compose mode => mode
  | .kubernetes _ => .host

structure PitrConfig where
  enabled : Bool := false
  environment : String := "production"
  deriving DecidableEq, Repr

inductive SnapshotProvider where
  | none
  | aws_ebs
  | hetzner_cloud
  deriving DecidableEq, Repr

inductive PreDeploy where
  | disabled
  | preferred
  | required
  deriving DecidableEq, Repr

structure SnapshotsConfig where
  provider : SnapshotProvider := .none
  environment : String := "production"
  pre_deploy : PreDeploy := .disabled
  deriving DecidableEq, Repr

structure GitOpsConfig where
  enabled : Bool := false
  preview_source_environment : String := "staging"
  deriving DecidableEq, Repr

structure LocalSimulationConfig where
  enabled : Bool := false
  environment : String := "development"
  deriving DecidableEq, Repr

/-- The fields of `OdooCtlConfig` that the modelled code reads. `environments` is a dict in
its insertion order. -/
structure ConfigFields where
  project_name : String := "my-odoo-project"
  runtime : RuntimeConfig := .docker_compose .host
  environments : List (String × EnvironmentConfig)
  odoo_service : String := "odoo"
  filestore_container_path : String := "/var/lib/odoo"
  temp_db_suffix : String := "_incoming"
  pitr : PitrConfig := {}
  snapshots : SnapshotsConfig := {}
  gitops : GitOpsConfig := {}
  local_simulation : LocalSimulationConfig := {}

def ConfigFields.find (cfg : ConfigFields) (name : String) : Option EnvironmentConfig :=
  cfg.environments.lookup name

def ConfigFields.knows (cfg : ConfigFields) (name : String) : Prop :=
  name ∈ cfg.environments.map Prod.fst

instance (cfg : ConfigFields) (name : String) : Decidable (cfg.knows name) :=
  inferInstanceAs (Decidable (name ∈ cfg.environments.map Prod.fst))

/-- `", ".join(sorted(self.environments))`. -/
def ConfigFields.known (cfg : ConfigFields) : String :=
  ", ".intercalate ((cfg.environments.map Prod.fst).mergeSort (· ≤ ·))

def env (cfg : ConfigFields) (name : String) : Except String EnvironmentConfig :=
  match cfg.find name with
  | some e => .ok e
  | none => .error s!"Unknown environment '{name}'. Known: {cfg.known}"

def is_protected (cfg : ConfigFields) (name : String) : Except String Bool := do
  let e ← env cfg name
  match e.protected_ with
  | some p => return p
  | none => return name = "production" || e.tier = some .production

/-- `if c: raise ValueError(message)`. -/
def reject (c : Prop) [Decidable c] (message : String) : Except String Unit :=
  if c then .error message else .ok ()

/-- The dicts that the loop over the environments fills. -/
structure Seen where
  db_names : List (String × String) := []
  filestores : List (String × String) := []
  domains : List (String × String) := []
  branches : List (String × String) := []

def filestore_identity (e : EnvironmentConfig) : String :=
  match e.filestore_volume with
  | some volume => s!"volume:{volume}:{e.filestore_path}"
  | none => s!"path:{e.filestore_path}"

def rejectShared (seen : List (String × String)) (key : String) (message : String → String) :
    Except String Unit :=
  match seen.lookup key with
  | some first_env => .error (message first_env)
  | none => .ok ()

/-- Two environments that one stack serves by the name of their database. -/
def shared_multidb_stack (cfg : ConfigFields) (first_env : String) (e : EnvironmentConfig) : Bool :=
  (cfg.find first_env).any fun first =>
    first.stack == e.stack && first.db_selector && e.db_selector

def RuntimeConfig.isCompose : RuntimeConfig → Bool
  | .docker_compose _ => true
  | .kubernetes _ => false

def RuntimeConfig.canary_provider : RuntimeConfig → CanaryProvider
  | .docker_compose _ => .none
  | .kubernetes runtime => runtime.canary_provider

/-- What is asked of a `clone_from` or `promotes_to`. -/
def check_reference (cfg : ConfigFields) (name field : String) (other : Option String) :
    Except String Unit :=
  match other with
  | none => .ok ()
  | some other => do
    reject (other ≠ "" ∧ ¬ cfg.knows other)
      s!"Environment '{name}' {field} '{other}' is not defined. Known: {cfg.known}"
    reject (other = name) s!"Environment '{name}' cannot {field} itself"

def check_domain (cfg : ConfigFields) (seen : Seen) (name : String) (e : EnvironmentConfig) :
    Except String Unit :=
  match seen.domains.lookup e.domain with
  | some first_env =>
    reject (shared_multidb_stack cfg first_env e = false)
      (s!"Environments '{first_env}' and '{name}' cannot share domain '{e.domain}'; " ++
        "deploy and rollback healthchecks would target the wrong instance unless both use " ++
        "db_selector in the same stack")
  | none => .ok ()

/-- One round of the loop of `validate_environment_graph`. -/
def check_environment (cfg : ConfigFields) (seen : Seen) (name : String) (e : EnvironmentConfig) :
    Except String Seen := do
  reject (cfg.runtime.isCompose = true ∧ e.rollout_strategy ≠ .recreate)
    (s!"Environment '{name}' rollout_strategy {quoted e.rollout_strategy.text} " ++
      "is not supported by docker_compose; supported: recreate")
  reject (cfg.runtime.isCompose = false ∧ e.rollout_strategy = .canary ∧
      cfg.runtime.canary_provider ≠ .nginx)
    s!"Environment '{name}' canary rollout requires runtime.canary_provider: nginx"
  reject (name = "production" ∧ (e.clone_from.getD "") ≠ "")
    ("Environment 'production' cannot be a clone target; " ++
      "cloning drops and recreates the target database without a backup")
  check_reference cfg name "clone_from" e.clone_from
  rejectShared seen.db_names e.db_name fun first_env =>
    s!"Environments '{first_env}' and '{name}' cannot share db_name '{e.db_name}'; " ++
      "clone and rollback operations drop and recreate target databases"
  rejectShared seen.filestores (filestore_identity e) fun first_env =>
    s!"Environments '{first_env}' and '{name}' cannot share filestore " ++
      s!"'{filestore_identity e}'; clone and rollback operations replace target filestores"
  check_domain cfg seen name e
  rejectShared seen.branches e.branch fun first_env =>
    s!"Environments '{first_env}' and '{name}' cannot share branch '{e.branch}'; " ++
      "branch-to-environment mapping must be unique for deploy and rollback to target the " ++
      "right instance"
  check_reference cfg name "promotes_to" e.promotes_to
  return {
    db_names := (e.db_name, name) :: seen.db_names
    filestores := (filestore_identity e, name) :: seen.filestores
    domains := (e.domain, name) :: seen.domains
    branches := (e.branch, name) :: seen.branches }

def check_environments (cfg : ConfigFields) : Seen → List (String × EnvironmentConfig) →
    Except String Seen
  | seen, [] => .ok seen
  | seen, (name, e) :: rest => do
    let seen ← check_environment cfg seen name e
    check_environments cfg seen rest

/-- One round of the last loop: no temporary name is the live name of another environment. -/
def check_temp_name (cfg : ConfigFields) (seen : Seen) (name : String) (e : EnvironmentConfig) :
    Except String Unit :=
  match seen.db_names.lookup (e.db_name ++ cfg.temp_db_suffix) with
  | some owner =>
    reject (owner ≠ name)
      (s!"Environment '{name}' temp database '{e.db_name ++ cfg.temp_db_suffix}' " ++
        s!"(db_name + temp_db_suffix '{cfg.temp_db_suffix}') collides with the live " ++
        s!"db_name of environment '{owner}'; a clone or restore into " ++
        s!"'{name}' would drop '{owner}'. Change the db_name or temp_db_suffix.")
  | none => .ok ()

def check_temp_names (cfg : ConfigFields) (seen : Seen) :
    List (String × EnvironmentConfig) → Except String Unit
  | [] => .ok ()
  | (name, e) :: rest => do
    check_temp_name cfg seen name e
    check_temp_names cfg seen rest

def check_pitr (cfg : ConfigFields) : Except String Unit :=
  reject (cfg.pitr.enabled = true ∧ ¬ cfg.knows cfg.pitr.environment)
    s!"pitr.environment {quoted cfg.pitr.environment} is not defined. Known: {cfg.known}"

def check_snapshots (cfg : ConfigFields) : Except String Unit :=
  if cfg.snapshots.provider = .none then .ok ()
  else do
    reject (¬ cfg.knows cfg.snapshots.environment)
      (s!"snapshots.environment {quoted cfg.snapshots.environment} is not defined. " ++
        s!"Known: {cfg.known}")
    let covered ← is_protected cfg cfg.snapshots.environment
    reject (cfg.snapshots.pre_deploy ≠ .disabled ∧ covered = false)
      "snapshots.pre_deploy requires snapshots.environment to be a protected environment"

def check_gitops (cfg : ConfigFields) : Except String Unit :=
  if cfg.gitops.enabled = false then .ok ()
  else do
    reject (cfg.runtime.isCompose = true) "gitops.enabled requires runtime.type: kubernetes"
    reject (¬ cfg.knows cfg.gitops.preview_source_environment)
      ("gitops.preview_source_environment " ++
        s!"{quoted cfg.gitops.preview_source_environment} is not defined")

def check_local_simulation (cfg : ConfigFields) : Except String Unit :=
  if cfg.local_simulation.enabled = false then .ok ()
  else do
    reject (cfg.runtime.isCompose = true)
      "local_simulation.enabled requires runtime.type: kubernetes"
    reject (¬ cfg.knows cfg.local_simulation.environment)
      ("local_simulation.environment " ++
        s!"{quoted cfg.local_simulation.environment} is not defined")

def validate_environment_graph (cfg : ConfigFields) : Except String Unit := do
  check_pitr cfg
  check_snapshots cfg
  check_gitops cfg
  check_local_simulation cfg
  let seen ← check_environments cfg {} cfg.environments
  check_temp_names cfg seen cfg.environments

def must_have_environments (environments : List (String × EnvironmentConfig)) :
    Except String Unit := do
  reject (environments = []) "at least one environment is required"
  environments.forM fun e => do
    let _ ← validate_identifier e.1 "environment name"

/-- A configuration that the validators accepted. -/
structure OdooCtlConfig extends ConfigFields where
  names_distinct : (environments.map Prod.fst).Nodup
  names_safe : must_have_environments environments = .ok ()
  suffix_safe : temp_db_suffix_must_be_safe temp_db_suffix "temp_db_suffix" = .ok temp_db_suffix
  graph_valid : validate_environment_graph toConfigFields = .ok ()

/-- The namespace of an environment, as `KubernetesAdapter.__init__` computes it. -/
def environment_namespace (project_name namespace_template environment : String) :
    Except String String := do
  let project_name ← kubernetes_name project_name
  let environment_name ← kubernetes_name environment
  kubernetes_name (String.ofList (expandFields project_name.toList environment_name.toList 0
    namespace_template.toList))

/-! ## What the graph check leaves -/

variable {cfg : ConfigFields} {seen seen' : Seen} {name : String} {e : EnvironmentConfig}
  {es : List (String × EnvironmentConfig)}

@[simp] theorem reject_ok {c : Prop} [Decidable c] {message : String} {u : Unit} :
    reject c message = .ok u ↔ ¬ c := by
  unfold reject
  by_cases h : c
  · simp [h]
  · simp [h]

@[simp] theorem rejectShared_ok {seen : List (String × String)} {key : String}
    {message : String → String} {u : Unit} :
    rejectShared seen key message = .ok u ↔ seen.lookup key = none := by
  unfold rejectShared
  cases seen.lookup key with
  | none => simp
  | some first => simp

theorem check_environment_ok (h : check_environment cfg seen name e = .ok seen') :
    seen.db_names.lookup e.db_name = none ∧
      seen.filestores.lookup (filestore_identity e) = none ∧
      seen'.db_names = (e.db_name, name) :: seen.db_names ∧
      seen'.filestores = (filestore_identity e, name) :: seen.filestores := by
  unfold check_environment at h
  obtain ⟨-, -, h⟩ := bind_eq_ok.mp h
  obtain ⟨-, -, h⟩ := bind_eq_ok.mp h
  obtain ⟨-, -, h⟩ := bind_eq_ok.mp h
  obtain ⟨-, -, h⟩ := bind_eq_ok.mp h
  obtain ⟨_, hdb, h⟩ := bind_eq_ok.mp h
  obtain ⟨_, hfs, h⟩ := bind_eq_ok.mp h
  obtain ⟨-, -, h⟩ := bind_eq_ok.mp h
  obtain ⟨-, -, h⟩ := bind_eq_ok.mp h
  obtain ⟨-, -, h⟩ := bind_eq_ok.mp h
  cases h
  exact ⟨rejectShared_ok.mp hdb, rejectShared_ok.mp hfs, rfl, rfl⟩

theorem lookup_cons_none {k a b : String} {l : List (String × String)} :
    ((a, b) :: l).lookup k = none ↔ k ≠ a ∧ l.lookup k = none := by
  rw [List.lookup_cons]
  by_cases h : k = a
  · simp [h]
  · have hb : (k == a) = false := by simpa using h
    simp [hb, h]

theorem check_environment_clone_from (h : check_environment cfg seen name e = .ok seen')
    {other : String} (ho : e.clone_from = some other) (hne : other ≠ "") : cfg.knows other := by
  unfold check_environment at h
  obtain ⟨-, -, h⟩ := bind_eq_ok.mp h
  obtain ⟨-, -, h⟩ := bind_eq_ok.mp h
  obtain ⟨-, -, h⟩ := bind_eq_ok.mp h
  obtain ⟨_, href, -⟩ := bind_eq_ok.mp h
  rw [ho] at href
  obtain ⟨_, hknown, -⟩ := bind_eq_ok.mp href
  by_contra hunknown
  exact reject_ok.mp hknown ⟨hne, hunknown⟩

theorem check_environments_each (h : check_environments cfg seen es = .ok seen') :
    ∀ p ∈ es, ∃ s t, check_environment cfg s p.1 p.2 = .ok t := by
  induction es generalizing seen with
  | nil => simp
  | cons p es ih =>
    obtain ⟨mid, hmid, h⟩ := bind_eq_ok.mp h
    intro q hq
    rcases List.mem_cons.mp hq with rfl | hq
    · exact ⟨seen, mid, hmid⟩
    · exact ih h q hq

/-- The loop records each name under its environment, most recent first. -/
theorem check_environments_ok (h : check_environments cfg seen es = .ok seen') :
    seen'.db_names = (es.map fun p => (p.2.db_name, p.1)).reverse ++ seen.db_names ∧
      seen'.filestores =
        (es.map fun p => (filestore_identity p.2, p.1)).reverse ++ seen.filestores ∧
      (∀ p ∈ es, seen.db_names.lookup p.2.db_name = none ∧
        seen.filestores.lookup (filestore_identity p.2) = none) ∧
      es.Pairwise fun p q => p.2.db_name ≠ q.2.db_name ∧
        filestore_identity p.2 ≠ filestore_identity q.2 := by
  induction es generalizing seen with
  | nil =>
    cases h
    simp
  | cons p es ih =>
    obtain ⟨name, e⟩ := p
    obtain ⟨mid, hmid, h⟩ := bind_eq_ok.mp h
    obtain ⟨hdb, hfs, hnames, hstores⟩ := check_environment_ok hmid
    obtain ⟨hnames', hstores', hfree, hpair⟩ := ih h
    rw [hnames] at hnames' hfree
    rw [hstores] at hstores' hfree
    refine ⟨by simpa using hnames', by simpa using hstores', ?_, ?_⟩
    · intro p hp
      rcases List.mem_cons.mp hp with rfl | hp
      · exact ⟨hdb, hfs⟩
      · obtain ⟨h₁, h₂⟩ := hfree p hp
        exact ⟨(lookup_cons_none.mp h₁).2, (lookup_cons_none.mp h₂).2⟩
    · refine List.pairwise_cons.mpr ⟨?_, hpair⟩
      intro q hq
      obtain ⟨h₁, h₂⟩ := hfree q hq
      exact ⟨Ne.symm (lookup_cons_none.mp h₁).1, Ne.symm (lookup_cons_none.mp h₂).1⟩

theorem check_temp_names_ok (h : check_temp_names cfg seen es = .ok ()) :
    ∀ p ∈ es, check_temp_name cfg seen p.1 p.2 = .ok () := by
  induction es with
  | nil => simp
  | cons p es ih =>
    obtain ⟨_, hhead, h⟩ := bind_eq_ok.mp h
    intro q hq
    rcases List.mem_cons.mp hq with rfl | hq
    · exact hhead
    · exact ih h q hq

theorem check_temp_name_ok {owner : String} (h : check_temp_name cfg seen name e = .ok ())
    (ho : seen.db_names.lookup (e.db_name ++ cfg.temp_db_suffix) = some owner) : owner = name := by
  unfold check_temp_name at h
  rw [ho] at h
  simpa using h

theorem lookup_of_mem {β : Type} {l : List (String × β)} (hd : (l.map Prod.fst).Nodup)
    {k : String} {v : β} (h : (k, v) ∈ l) : l.lookup k = some v := by
  induction l with
  | nil => cases h
  | cons p l ih =>
    obtain ⟨k', v'⟩ := p
    obtain ⟨hk, hd⟩ := List.nodup_cons.mp hd
    rw [List.lookup_cons]
    rcases List.mem_cons.mp h with hhead | htail
    · cases hhead
      simp
    · have hne : k ≠ k' := by
        rintro rfl
        exact hk (List.mem_map.mpr ⟨_, htail, rfl⟩)
      have hb : (k == k') = false := by simpa using hne
      rw [hb]
      exact ih hd htail

namespace OdooCtlConfig

variable (cfg : OdooCtlConfig)

theorem graph_ok : ∃ seen, check_environments cfg.toConfigFields {} cfg.environments = .ok seen ∧
    check_temp_names cfg.toConfigFields seen cfg.environments = .ok () := by
  have h := cfg.graph_valid
  unfold validate_environment_graph at h
  obtain ⟨-, -, h⟩ := bind_eq_ok.mp h
  obtain ⟨-, -, h⟩ := bind_eq_ok.mp h
  obtain ⟨-, -, h⟩ := bind_eq_ok.mp h
  obtain ⟨-, -, h⟩ := bind_eq_ok.mp h
  obtain ⟨seen, hseen, h⟩ := bind_eq_ok.mp h
  exact ⟨seen, hseen, h⟩

theorem db_names_distinct : (cfg.environments.map fun p => p.2.db_name).Nodup := by
  obtain ⟨seen, hseen, -⟩ := graph_ok cfg
  rw [List.nodup_iff_pairwise_ne, List.pairwise_map]
  exact (check_environments_ok hseen).2.2.2.imp fun {_ _} h => h.1

theorem identities_distinct : (cfg.environments.map fun p => filestore_identity p.2).Nodup := by
  obtain ⟨seen, hseen, -⟩ := graph_ok cfg
  rw [List.nodup_iff_pairwise_ne, List.pairwise_map]
  exact (check_environments_ok hseen).2.2.2.imp fun {_ _} h => h.2

theorem db_name_ne {p q : String × EnvironmentConfig} (hp : p ∈ cfg.environments)
    (hq : q ∈ cfg.environments) (hne : p ≠ q) : p.2.db_name ≠ q.2.db_name := fun h =>
  hne (List.inj_on_of_nodup_map cfg.db_names_distinct hp hq h)

/-- No temporary name, as written, is the live name of another environment. -/
theorem temp_name_ne {p q : String × EnvironmentConfig} (hp : p ∈ cfg.environments)
    (hq : q ∈ cfg.environments) (hne : p.1 ≠ q.1) :
    p.2.db_name ++ cfg.temp_db_suffix ≠ q.2.db_name := by
  intro he
  obtain ⟨seen, hseen, htemp⟩ := graph_ok cfg
  have hfound : seen.db_names.lookup q.2.db_name = some q.1 := by
    rw [(check_environments_ok hseen).1, List.append_nil]
    refine lookup_of_mem ?_ (List.mem_reverse.mpr (List.mem_map.mpr ⟨q, hq, rfl⟩))
    rw [List.map_reverse, List.nodup_reverse, List.map_map]
    exact cfg.db_names_distinct
  rw [← he] at hfound
  exact hne (check_temp_name_ok (check_temp_names_ok htemp p hp) hfound).symm

theorem find_of_mem {p : String × EnvironmentConfig} (hp : p ∈ cfg.environments) :
    cfg.find p.1 = some p.2 := lookup_of_mem cfg.names_distinct hp

theorem exists_of_knows {name : String} (h : cfg.knows name) :
    ∃ e, (name, e) ∈ cfg.environments ∧ cfg.find name = some e := by
  obtain ⟨⟨name', e⟩, hmem, rfl⟩ := List.mem_map.mp h
  exact ⟨e, hmem, cfg.find_of_mem hmem⟩

/-- An environment is cloned from another one of the configuration. -/
theorem clone_source_known {p : String × EnvironmentConfig} (hp : p ∈ cfg.environments)
    {source : String} (h : p.2.clone_from = some source) (hne : source ≠ "") :
    cfg.knows source := by
  obtain ⟨seen, hseen, -⟩ := graph_ok cfg
  obtain ⟨s, t, hcheck⟩ := check_environments_each hseen p hp
  exact check_environment_clone_from hcheck h hne

end OdooCtlConfig

end ProjectConfiguration
