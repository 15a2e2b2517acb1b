import Odooctl.EffectPrograms
import Odooctl.MergeSemantics
import Odooctl.PythonText

/-!
# Progressive rollout on Kubernetes

The rollout operations of `adapters/kubernetes.py` as programs over `kubectl`. A cluster
is one namespace; an object keeps the labels, selectors and pod labels that the adapter
reads or writes, and the manifest that was last applied to it.
-/
namespace KubernetesRollout

open EffectPrograms MergeSemantics PythonText

abbrev Labels := Std.ExtTreeMap String String compare

/-- A literal dict in its insertion order. -/
abbrev Dict := List (String × String)

def Dict.labels (d : Dict) : Labels := Std.ExtTreeMap.ofList d compare

def MANAGED_BY : String := "odooctl"
def MANAGED_BY_LABEL : String := "app.kubernetes.io/managed-by"
def PROJECT_LABEL : String := "odooctl.dev/project"
def ENVIRONMENT_LABEL : String := "odooctl.dev/environment"
def COMPONENT_LABEL : String := "app.kubernetes.io/component"
def REVISION_LABEL : String := "odooctl.dev/revision"

inductive Kind where
  | Namespace
  | PersistentVolumeClaim
  | Deployment
  | Service
  | Ingress
  deriving DecidableEq, Repr

/-- The name that `kubectl` is given. -/
def Kind.arg : Kind → String
  | .Namespace => "namespace"
  | .PersistentVolumeClaim => "persistentvolumeclaim"
  | .Deployment => "deployment"
  | .Service => "service"
  | .Ingress => "ingress"

/-- A rendered manifest. -/
structure Resource where
  kind : Kind
  name : String
  labels : Labels
  /-- `spec.selector` of a Service, `matchLabels` of a Deployment -/
  selector : Labels := ∅
  /-- labels of a Deployment's pod template -/
  template_labels : Labels := ∅
  annotations : Labels := ∅
  /-- the Service behind an Ingress -/
  backend : String := ""

/-- A live object and the manifest that `kubectl apply` last recorded in it. -/
structure Object where
  labels : Labels
  selector : Labels
  template_labels : Labels
  applied : Option Resource

abbrev Cluster := Kind → String → Option Object

def Cluster.set (c : Cluster) (kind : Kind) (name : String) (o : Option Object) : Cluster :=
  fun k n => if k = kind ∧ n = name then o else c k n

def lastApplied (o : Object) (field : Resource → Labels) : Labels :=
  (o.applied.map field).getD ∅

def Resource.onto (r : Resource) : Option Object → Object
  | none => ⟨r.labels, r.selector, r.template_labels, some r⟩
  | some o =>
    { labels := threeWay (lastApplied o Resource.labels) r.labels o.labels
      selector := threeWay (lastApplied o Resource.selector) r.selector o.selector
      template_labels :=
        threeWay (lastApplied o Resource.template_labels) r.template_labels o.template_labels
      applied := some r }

def Cluster.apply (c : Cluster) (r : Resource) : Cluster :=
  c.set r.kind r.name (some (r.onto (c r.kind r.name)))

/-! ## kubectl -/

inductive KubectlCall where
  | get (kind : Kind) (name : String)
  | get_service (name : String)
  | write_manifest (stem : String)
  | apply (resources : List Resource)
  | rollout_status (deployment : String)
  | rollout_undo (deployment : String)
  | rollout_restart (deployment : String)
  | patch_service (name : String) (selector : Labels)
  | delete (kind : Kind) (name : String)

/-- What `kubectl get -o json` shows of an object that exists, or the texts it printed. -/
inductive GetResult where
  | found (labels : Labels)
  | malformed
  | failed (stdout stderr : String)

/-- An error reply is the text of the exception. -/
abbrev KubectlCall.Answer : KubectlCall → Type
  | .get _ _ => GetResult
  | .get_service _ => Except String (Option Labels)
  | .write_manifest _ => Except String String
  | _ => Except String Unit

def Kubectl : Interface := ⟨KubectlCall, KubectlCall.Answer⟩

def reports_absent (stdout stderr : String) : Bool :=
  let output := (stdout ++ "\n" ++ stderr).toLower
  containsText output "notfound" || containsText output "not found"

/-- What a mutation does, `none` where the server refuses it. -/
def KubectlCall.effect : KubectlCall → Cluster → Option Cluster
  | .apply resources, c => some (resources.foldl Cluster.apply c)
  | .patch_service name selector, c => (c .Service name).map fun o =>
      c.set .Service name (some { o with selector := mergePatch o.selector selector })
  -- what is in a namespace goes with it
  | .delete kind name, c => (c kind name).map fun _ =>
      if kind = .Namespace then fun _ _ => none else c.set kind name none
  | _, c => some c

/-- A mutation that reports success took effect. One that fails may have taken effect; an
apply may have stopped after any of its objects. Reads are true where they succeed, and
so is a report that an object does not exist. -/
def kubectl : World Kubectl Cluster
  | .get kind name, c, r, t => t = c ∧ match r with
    | .found labels => ∃ o, c kind name = some o ∧ labels = o.labels
    | .malformed => True
    | .failed stdout stderr => reports_absent stdout stderr = true → c kind name = none
  | .get_service name, c, r, t => t = c ∧
      ∀ selector, r = .ok (some selector) → ∃ o, c .Service name = some o ∧ selector = o.selector
  | .apply resources, c, r, t =>
      r = .ok () ∧ t = resources.foldl Cluster.apply c ∨
      (∃ e, r = .error e) ∧ ∃ done : List Resource, done.Sublist resources ∧
        t = done.foldl Cluster.apply c
  | .patch_service name selector, c, r, t =>
      (KubectlCall.patch_service name selector).effect c = some t ∨ t = c ∧ ∃ e, r = .error e
  | .delete kind name, c, r, t =>
      (KubectlCall.delete kind name).effect c = some t ∨ t = c ∧ ∃ e, r = .error e
  | .rollout_undo name, c, _, t => t = c ∨ ∃ o labels, c .Deployment name = some o ∧
      t = c.set .Deployment name (some { o with template_labels := labels })
  | _, c, _, t => t = c

/-! ## Names and labels -/

/-- `str.lower` as far as `[a-z0-9-]` can tell. -/
def lowerChar (c : Char) : List Char :=
  if c = '\u212a' then ['k'] else if c = '\u0130' then ['i', '\u0307'] else [c.toLower]

def isNameChar (c : Char) : Bool :=
  ('a' ≤ c && c ≤ 'z') || ('0' ≤ c && c ≤ '9') || c = '-'

/-- `re.sub` of every maximal run of a class of characters by one dash. -/
def dashRuns (inClass : Char → Bool) : Bool → List Char → List Char
  | _, [] => []
  | inRun, c :: cs =>
    if inClass c then
      if inRun then dashRuns inClass true cs else '-' :: dashRuns inClass true cs
    else c :: dashRuns inClass false cs

def rstripDash (cs : List Char) : List Char := (cs.reverse.dropWhile (· = '-')).reverse

/-- Return a stable DNS-label-safe name. -/
def kubernetes_name (value : String) : Except String String :=
  let lowered := value.toList.flatMap lowerChar
  let stripped := rstripDash ((dashRuns (!isNameChar ·) false lowered).dropWhile (· = '-'))
  let normalized := dashRuns (· = '-') false stripped
  if normalized = [] then .error s!"Cannot derive a Kubernetes name from {quoted value}"
  else .ok (String.ofList (rstripDash (normalized.take 63)))

def ownership_labels (project environment component : String) : Except String Dict := do
  let project_name ← kubernetes_name project
  let environment_name ← kubernetes_name environment
  let component_name ← kubernetes_name component
  return [(MANAGED_BY_LABEL, MANAGED_BY), (PROJECT_LABEL, project_name),
    (ENVIRONMENT_LABEL, environment_name), (COMPONENT_LABEL, component_name)]

/-- An adapter whose names `__init__` has normalised. -/
structure KubernetesAdapter where
  project : String
  environment : String
  service : String
  nginx : Bool
  namespace_name : String
  project_name : String
  environment_name : String
  workload : String
  project_named : kubernetes_name project = .ok project_name
  environment_named : kubernetes_name environment = .ok environment_name
  workload_named : kubernetes_name service = .ok workload

def KubernetesAdapter.labels (a : KubernetesAdapter) (component : String) : Dict :=
  [(MANAGED_BY_LABEL, MANAGED_BY), (PROJECT_LABEL, a.project_name),
    (ENVIRONMENT_LABEL, a.environment_name), (COMPONENT_LABEL, component)]

theorem ownership_labels_eq (a : KubernetesAdapter) {component : String}
    (h : kubernetes_name component = .ok component) :
    ownership_labels a.project a.environment component = .ok (a.labels component) := by
  rw [ownership_labels, a.project_named, a.environment_named, h]
  rfl

example : kubernetes_name "odoo-candidate" = .ok "odoo-candidate" := by decide +kernel
example : kubernetes_name " Acme & Söhne--GmbH_" = .ok "acme-s-hne-gmbh" := by decide +kernel

def KubernetesAdapter.selector (a : KubernetesAdapter) (component : String) : Dict :=
  [(PROJECT_LABEL, a.project_name), (ENVIRONMENT_LABEL, a.environment_name),
    (COMPONENT_LABEL, component)]

/-- The canonical resources. -/
def render_kubernetes_resources (a : KubernetesAdapter) : List Resource :=
  let labels := (a.labels "odoo").labels
  let selector_labels := (a.selector "odoo").labels
  [{ kind := .Namespace, name := a.namespace_name, labels },
   { kind := .PersistentVolumeClaim, name := a.workload ++ "-filestore", labels },
   { kind := .Deployment, name := a.workload, labels,
     selector := selector_labels, template_labels := labels },
   { kind := .Service, name := a.workload, labels, selector := selector_labels },
   { kind := .Ingress, name := a.workload, labels, backend := a.workload }]

/-! ## The adapter's operations -/

inductive RolloutStrategy where
  | recreate
  | rolling
  | blue_green
  | canary
  deriving DecidableEq, Repr

def RolloutStrategy.text : RolloutStrategy → String
  | .recreate => "recreate"
  | .rolling => "rolling"
  | .blue_green => "blue_green"
  | .canary => "canary"

structure RolloutState where
  strategy : RolloutStrategy
  workload : String
  command_workload : String
  candidate_workload : Option String := none
  previous_selector : Labels := ∅
  revision : String
  candidate_selector : Option Labels := none
  manifest : Option String := none
  promoted : Bool := false

inductive RolloutError where
  | runtime (message : String)
  | value (message : String)
  | environment (message : String)
  | failed (message : String) (state : RolloutState)

def RolloutError.str : RolloutError → String
  | .runtime m | .value m | .environment m | .failed m _ => m

abbrev KubeM := Prog Kubectl RolloutError

def raised {α : Type} : Except String α → Except RolloutError α :=
  Except.mapError .environment

def named (r : Except String String) : KubeM String := .ofExcept (r.mapError .value)

def rollout_status (deployment : String) : KubeM Unit :=
  .perform (F := Kubectl) (.rollout_status deployment) raised

def kubectl_apply (resources : List Resource) : KubeM Unit :=
  .perform (F := Kubectl) (.apply resources) raised

def write_manifest (stem : String) : KubeM String :=
  .perform (F := Kubectl) (.write_manifest stem) raised

def optionText : Option String → String
  | none => "None"
  | some s => quoted s

def mismatches (expected : Dict) (labels : Labels) : Dict :=
  expected.filter fun (key, value) => labels[key]? ≠ some value

def mismatchText (expected : Dict) (labels : Labels) : String :=
  "\x7b" ++ ", ".intercalate ((mismatches expected labels).map fun (key, value) =>
    quoted key ++ ": (" ++ optionText labels[key]? ++ ", " ++ quoted value ++ ")") ++ "\x7d"

/-- What `_assert_owned_or_absent` makes of the reply: whether the object exists. -/
def ownership (kind : Kind) (name : String) (absent_ok : Bool) (expected : Dict) :
    GetResult → Except RolloutError Bool
  | .failed stdout stderr =>
    if absent_ok && reports_absent stdout stderr then .ok false
    else .error (.runtime (s!"Could not verify ownership for {kind.arg}/{name}: " ++
      (if stderr = "" then stdout else stderr)))
  | .malformed => .error (.runtime s!"Could not parse ownership metadata for {kind.arg}/{name}")
  | .found labels =>
    if mismatches expected labels = [] then .ok true
    else .error (.runtime (s!"Refusing to mutate unowned Kubernetes resource {kind.arg}/{name}; " ++
      s!"label mismatch: {mismatchText expected labels}"))

def assert_owned_or_absent (kind : Kind) (name : String) (absent_ok : Bool) (expected : Dict) :
    KubeM Bool :=
  .perform (F := Kubectl) (.get kind name) (ownership kind name absent_ok expected)

/-- The ownership check of each identity in turn. -/
def assert_all_owned (expected : Dict) : List (Kind × String) → KubeM Unit
  | [] => .pure ()
  | (kind, name) :: rest => do
    let _ ← assert_owned_or_absent kind name true expected
    assert_all_owned expected rest

def resource_identities (a : KubernetesAdapter) : List (Kind × String) :=
  [(.Namespace, a.namespace_name), (.PersistentVolumeClaim, a.workload ++ "-filestore"),
    (.Deployment, a.workload), (.Service, a.workload), (.Ingress, a.workload)]

def up (a : KubernetesAdapter) (workload : String) : KubeM Unit := do
  assert_all_owned (a.labels "odoo") (resource_identities a)
  let _ ← write_manifest "resources"
  kubectl_apply (render_kubernetes_resources a)
  let name ← named (kubernetes_name workload)
  rollout_status name

def assert_workload_owned (a : KubernetesAdapter) (workload : String) : KubeM Unit := do
  let name ← named (kubernetes_name workload)
  let _ ← assert_owned_or_absent .Deployment name false (a.labels "odoo")

def restart (a : KubernetesAdapter) (workload : String) : KubeM Unit := do
  let name ← named (kubernetes_name workload)
  assert_workload_owned a name
  .perform (F := Kubectl) (.rollout_restart name) raised
  rollout_status name

def delete_workload (a : KubernetesAdapter) (workload : String) : KubeM Unit := do
  let name ← named (kubernetes_name workload)
  assert_workload_owned a name
  .perform (F := Kubectl) (.delete .Deployment name) raised

def delete_namespace (a : KubernetesAdapter) : KubeM Unit := do
  let exists_ ← assert_owned_or_absent .Namespace a.namespace_name true (a.labels "odoo")
  if exists_ then .perform (F := Kubectl) (.delete .Namespace a.namespace_name) raised
  else .pure ()

/-- The deployment, or without one the whole namespace. -/
def delete (a : KubernetesAdapter) (workload : Option String) : KubeM Unit :=
  if workload.getD "" ≠ "" then delete_workload a (workload.getD "") else delete_namespace a

def supports_rollout (a : KubernetesAdapter) : RolloutStrategy → Bool
  | .recreate | .rolling | .blue_green => true
  | .canary => a.nginx

def readSelector (workload : String) : Except String (Option Labels) → Except RolloutError Labels
  | .error e => .error (.environment e)
  | .ok none => .error (.runtime s!"Could not read selector for service/{workload}")
  | .ok (some selector) =>
    if selector = ∅ then .error (.runtime s!"service/{workload} has no stable selector")
    else .ok selector

def service_selector (a : KubernetesAdapter) (workload : String) : KubeM Labels := do
  let _ ← assert_owned_or_absent .Service workload false (a.labels "odoo")
  .perform (F := Kubectl) (.get_service workload) (readSelector workload)

def shortRevision (revision : String) (n : ℕ) : String := String.ofList (revision.toList.take n)

def candidate_labels (a : KubernetesAdapter) (revision : String) : Dict :=
  a.labels "odoo-candidate" ++ [(REVISION_LABEL, shortRevision revision 16)]

def candidate_selector (a : KubernetesAdapter) (revision : String) : Labels :=
  Dict.labels (a.selector "odoo-candidate" ++ [(REVISION_LABEL, shortRevision revision 16)])

def candidate_resources (a : KubernetesAdapter) (candidate revision : String)
    (strategy : RolloutStrategy) (canary_percent : ℕ) : List Resource :=
  let labels := (candidate_labels a revision).labels
  let selector := candidate_selector a revision
  let resources : List Resource :=
    [{ kind := .Deployment, name := candidate, labels, selector, template_labels := labels },
     { kind := .Service, name := candidate, labels, selector }]
  if strategy = .canary then
    let annotations := Dict.labels
      [("nginx.ingress.kubernetes.io/canary", "true"),
        ("nginx.ingress.kubernetes.io/canary-weight", toString canary_percent)]
    resources ++ [{ kind := .Ingress, name := candidate, labels, annotations, backend := candidate }]
  else resources

def apply_rollout_resources (candidate : String) (resources : List Resource)
    (expected_labels : Dict) : KubeM String := do
  assert_all_owned expected_labels (resources.map fun r => (r.kind, r.name))
  let path ← write_manifest ("rollouts/" ++ candidate)
  kubectl_apply resources
  .pure path

/-- `except Exception as exc: raise RolloutFailed(str(exc), state)`. -/
def orFailed {α : Type} (state : RolloutState) (p : KubeM α) : KubeM α :=
  p.mapError fun e => .failed e.str state

def begin_progressive (a : KubernetesAdapter) (name : String) (strategy : RolloutStrategy)
    (revision : String) (canary_percent : ℕ) : KubeM RolloutState := do
  let previous_selector ← service_selector a name
  let candidate ← named (kubernetes_name (name ++ "-" ++ shortRevision revision 8))
  let resources := candidate_resources a candidate revision strategy canary_percent
  let state : RolloutState :=
    { strategy, workload := name, command_workload := candidate,
      candidate_workload := some candidate, previous_selector, revision,
      candidate_selector := some (candidate_selector a revision) }
  let manifest ← orFailed state
    (apply_rollout_resources candidate resources (candidate_labels a revision))
  let state := { state with manifest := some manifest }
  orFailed state (rollout_status candidate)
  .pure state

def begin_rollout (a : KubernetesAdapter) (workload : String) (strategy : RolloutStrategy)
    (revision : String) (canary_percent : ℕ) : KubeM RolloutState := do
  if supports_rollout a strategy = false then
    .raise (.runtime (s!"kubernetes does not support rollout strategy {quoted strategy.text} " ++
      "with this configuration; supported: recreate, rolling, blue_green" ++
      (if a.nginx then ", canary" else "")))
  else
    let name ← named (kubernetes_name workload)
    if strategy = .recreate ∨ strategy = .rolling then
      let state : RolloutState :=
        { strategy, workload := name, command_workload := name, revision }
      orFailed state (up a name)
      .pure state
    else begin_progressive a name strategy revision canary_percent

def patch_service_selector (a : KubernetesAdapter) (workload : String) (selector : Labels) :
    KubeM Unit := do
  let _ ← assert_owned_or_absent .Service workload false (a.labels "odoo")
  .perform (F := Kubectl) (.patch_service workload selector) raised

/-- Returns the state with `promoted` set. -/
def promote_rollout (a : KubernetesAdapter) (state : RolloutState) : KubeM RolloutState := do
  match state.candidate_workload with
  | none => .pure { state with promoted := true }
  | some _ =>
    match state.candidate_selector with
    | none => .raise (.runtime "Progressive rollout has no candidate selector")
    | some selector =>
      patch_service_selector a state.workload selector
      .pure { state with promoted := true }

def delete_if_owned (expected : Dict) (candidate : String) (kind : Kind) : KubeM Unit := do
  let exists_ ← assert_owned_or_absent kind candidate true expected
  if exists_ then .perform (F := Kubectl) (.delete kind candidate) raised
  else .pure ()

def delete_owned (expected : Dict) (candidate : String) : List Kind → KubeM Unit
  | [] => .pure ()
  | kind :: kinds => do
    delete_if_owned expected candidate kind
    delete_owned expected candidate kinds

def delete_candidate (a : KubernetesAdapter) (state : RolloutState) : KubeM Unit :=
  match state.candidate_workload with
  | none => .pure ()
  | some candidate =>
    delete_owned (candidate_labels a state.revision) candidate
      ([.Deployment, .Service] ++ if state.strategy = .canary then [.Ingress] else [])

/-- Converge back to the canonical workload name. -/
def finalize_rollout (a : KubernetesAdapter) (state : RolloutState) : KubeM Unit :=
  match state.candidate_workload with
  | none => .pure ()
  | some _ => do
    up a state.workload
    delete_candidate a state

/-- `if state.promoted:` patch the recorded selector back. -/
def restore_selector (a : KubernetesAdapter) (state : RolloutState) : KubeM Unit :=
  if state.promoted then patch_service_selector a state.workload state.previous_selector
  else .pure ()

def rollback_rollout (a : KubernetesAdapter) (state : RolloutState) : KubeM Unit := do
  if state.strategy = .rolling then
    assert_workload_owned a state.workload
    .perform (F := Kubectl) (.rollout_undo state.workload) raised
    rollout_status state.workload
  else
    match state.candidate_workload with
    | some _ =>
      restore_selector a state
      delete_candidate a state
    | none => restart a state.workload

end KubernetesRollout
