import Mathlib.Data.List.Chain
import Mathlib.Data.List.DropRight
import Odooctl.KubernetesRolloutSafety
import Odooctl.ProjectConfiguration

/-!
# Environments that share a cluster

The adapters of the environments of one configuration against the namespaces of one
cluster. Which environment's adapter created an object is kept beside it.
-/
namespace KubernetesFleet

open EffectPrograms MergeSemantics KubernetesRollout KubernetesRolloutSafety ProjectConfiguration

/-! ## Names -/

/-- What `kubernetes_name` leaves as it is. -/
structure Slug (cs : List Char) : Prop where
  chars : ∀ c ∈ cs, isNameChar c = true
  single : cs.IsChain fun c d => c = '-' → d ≠ '-'
  head : cs.head? ≠ some '-'
  trailing : rstripDash cs = cs
  length : cs.length ≤ 63
  nonempty : cs ≠ []

variable {cs : List Char} {p : Char → Bool}

theorem lowerChar_of_name {c : Char} (h : isNameChar c = true) : lowerChar c = [c] := by
  have hkelvin : c ≠ '\u212a' := by
    rintro rfl
    exact absurd h (by decide)
  have hdotted : c ≠ '\u0130' := by
    rintro rfl
    exact absurd h (by decide)
  rw [lowerChar, if_neg hkelvin, if_neg hdotted]
  delta Char.toLower
  rw [dif_neg]
  rintro ⟨hge, hle⟩
  simp only [isNameChar, Bool.or_eq_true, Bool.and_eq_true, decide_eq_true_eq] at h
  rcases h with (⟨ha, -⟩ | ⟨-, hz⟩) | rfl
  · exact absurd (Nat.le_trans ha hle) (by decide)
  · exact absurd (Nat.le_trans hge hz) (by decide)
  · exact absurd hge (by decide)

theorem mem_dashRuns {c : Char} {inRun : Bool} (h : c ∈ dashRuns p inRun cs) :
    c = '-' ∨ c ∈ cs ∧ p c = false := by
  induction cs generalizing inRun with
  | nil => cases h
  | cons d cs ih =>
    rw [dashRuns] at h
    by_cases hd : p d = true
    · rw [if_pos hd] at h
      cases inRun with
      | true =>
        rcases ih h with h | ⟨h, hp⟩
        · exact .inl h
        · exact .inr ⟨List.mem_cons_of_mem _ h, hp⟩
      | false =>
        rcases List.mem_cons.mp h with h | h
        · exact .inl h
        · rcases ih h with h | ⟨h, hp⟩
          · exact .inl h
          · exact .inr ⟨List.mem_cons_of_mem _ h, hp⟩
    · rw [if_neg hd] at h
      rcases List.mem_cons.mp h with rfl | h
      · exact .inr ⟨List.mem_cons_self, by simpa using hd⟩
      · rcases ih h with h | ⟨h, hp⟩
        · exact .inl h
        · exact .inr ⟨List.mem_cons_of_mem _ h, hp⟩

/-- Where nothing is in the class, nothing is replaced. -/
theorem dashRuns_of_none {inRun : Bool} (h : ∀ c ∈ cs, p c = false) : dashRuns p inRun cs = cs := by
  induction cs generalizing inRun with
  | nil => rfl
  | cons c cs ih =>
    rw [dashRuns, if_neg (by simp [h c List.mem_cons_self]),
      ih fun d hd => h d (List.mem_cons_of_mem _ hd)]

/-- Single dashes are kept. -/
theorem dashRuns_of_chain (h : cs.IsChain fun c d => c = '-' → d ≠ '-') :
    dashRuns (· = '-') false cs = cs ∧
      (cs.head? ≠ some '-' → dashRuns (· = '-') true cs = cs) := by
  induction cs with
  | nil => exact ⟨rfl, fun _ => rfl⟩
  | cons c cs ih =>
    obtain ⟨hfirst, hrest⟩ := List.isChain_cons.mp h
    obtain ⟨hfalse, htrue⟩ := ih hrest
    by_cases hc : c = '-'
    · have hnext : cs.head? ≠ some '-' := fun hhead => hfirst '-' hhead hc rfl
      subst hc
      exact ⟨by simp [dashRuns, htrue hnext], fun hne => absurd rfl hne⟩
    · exact ⟨by simp [dashRuns, hc, hfalse], fun _ => by simp [dashRuns, hc, hfalse]⟩

theorem dashRuns_chain :
    (dashRuns (· = '-') false cs).IsChain (fun c d => c = '-' → d ≠ '-') ∧
      (dashRuns (· = '-') true cs).IsChain (fun c d => c = '-' → d ≠ '-') ∧
        (dashRuns (· = '-') true cs).head? ≠ some '-' := by
  induction cs with
  | nil => exact ⟨.nil, .nil, by simp [dashRuns]⟩
  | cons c cs ih =>
    obtain ⟨hfalse, htrue, hhead⟩ := ih
    by_cases hc : c = '-'
    · simp only [dashRuns, hc, decide_true, if_true, Bool.false_eq_true, if_false]
      refine ⟨List.isChain_cons.mpr ⟨fun d hd _ he => hhead (he ▸ hd), htrue⟩, htrue, hhead⟩
    · simp only [dashRuns, hc, decide_false, Bool.false_eq_true, if_false]
      have hcons : (c :: dashRuns (· = '-') false cs).IsChain (fun c d => c = '-' → d ≠ '-') :=
        List.isChain_cons.mpr ⟨fun d _ he => absurd he hc, hfalse⟩
      exact ⟨hcons, hcons, by simpa using hc⟩

theorem rstripDash_eq : rstripDash cs = cs.rdropWhile (fun c => decide (c = '-')) := rfl

theorem rstripDash_isPrefix : rstripDash cs <+: cs := List.rdropWhile_prefix _ _

theorem rstripDash_idem : rstripDash (rstripDash cs) = rstripDash cs :=
  List.rdropWhile_idempotent _ _

theorem head_of_isPrefix {xs ys : List Char} (h : xs <+: ys) (hys : ys.head? ≠ some '-') :
    xs.head? ≠ some '-' := by
  obtain ⟨rest, rfl⟩ := h
  cases xs with
  | nil => simp
  | cons x xs => simpa using hys

theorem rstripDash_nonempty (hne : cs ≠ []) (h : cs.head? ≠ some '-') : rstripDash cs ≠ [] := by
  rw [rstripDash_eq]
  intro hnil
  cases cs with
  | nil => exact hne rfl
  | cons c rest =>
    have hc := List.rdropWhile_eq_nil_iff.mp hnil c List.mem_cons_self
    exact h (by simpa using hc)

theorem kubernetes_name_slug {value name : String} (h : kubernetes_name value = .ok name) :
    Slug name.toList := by
  simp only [kubernetes_name] at h
  generalize hlowered : value.toList.flatMap lowerChar = lowered at h
  generalize hstripped :
    rstripDash ((dashRuns (!isNameChar ·) false lowered).dropWhile (· = '-')) = stripped at h
  by_cases hne : dashRuns (· = '-') false stripped = []
  · rw [if_pos hne] at h
    cases h
  rw [if_neg hne] at h
  cases h
  rw [String.toList_ofList]
  have hpre : rstripDash ((dashRuns (· = '-') false stripped).take 63) <+:
      dashRuns (· = '-') false stripped := rstripDash_isPrefix.trans (List.take_prefix _ _)
  have hhead : stripped.head? ≠ some '-' := by
    rw [← hstripped]
    refine head_of_isPrefix rstripDash_isPrefix fun hd => ?_
    have := List.head?_dropWhile_not (fun c => decide (c = '-'))
      (dashRuns (!isNameChar ·) false lowered)
    rw [hd] at this
    simp at this
  have hruns : (dashRuns (· = '-') false stripped).head? ≠ some '-' := by
    cases stripped with
    | nil => simp [dashRuns]
    | cons c rest =>
      have hc : c ≠ '-' := by simpa using hhead
      simp [dashRuns, hc]
  constructor
  · intro c hc
    rcases mem_dashRuns (hpre.subset hc) with rfl | ⟨hc, -⟩
    · decide
    · rw [← hstripped] at hc
      have hc := List.dropWhile_subset _ (rstripDash_isPrefix.subset hc)
      rcases mem_dashRuns hc with rfl | ⟨-, hname⟩
      · decide
      · simpa using hname
  · obtain ⟨rest, hrest⟩ := hpre
    exact (hrest ▸ dashRuns_chain.1).left_of_append
  · exact head_of_isPrefix hpre hruns
  · exact rstripDash_idem
  · exact rstripDash_isPrefix.length_le.trans (by simp)
  · refine rstripDash_nonempty ?_ (head_of_isPrefix (List.take_prefix _ _) hruns)
    simpa using hne

theorem kubernetes_name_of_slug {name : String} (h : Slug name.toList) :
    kubernetes_name name = .ok name := by
  have hlower : name.toList.flatMap lowerChar = name.toList := by
    have hall := h.chars
    generalize name.toList = cs at hall
    induction cs with
    | nil => rfl
    | cons c cs ih =>
      rw [List.flatMap_cons, lowerChar_of_name (hall c List.mem_cons_self),
        ih fun d hd => hall d (List.mem_cons_of_mem _ hd)]
      rfl
  have hdrop : name.toList.dropWhile (fun c => decide (c = '-')) = name.toList := by
    cases hcs : name.toList with
    | nil => rfl
    | cons c cs =>
      rw [List.dropWhile_cons_of_neg]
      intro hc
      apply h.head
      rw [hcs, of_decide_eq_true hc]
      rfl
  have hruns : dashRuns (fun c => !isNameChar c) false name.toList = name.toList :=
    dashRuns_of_none fun c hc => by rw [h.chars c hc, Bool.not_true]
  simp only [kubernetes_name, hlower, hruns, hdrop, h.trailing, (dashRuns_of_chain h.single).1, List.take_of_length_le h.length, if_neg h.nonempty,
    String.ofList_toList]

/-- A Kubernetes name is its own. -/
theorem kubernetes_name_idem {value name : String} (h : kubernetes_name value = .ok name) :
    kubernetes_name name = .ok name := kubernetes_name_of_slug (kubernetes_name_slug h)

/-! ## The adapters of a configuration -/

/-- `KubernetesAdapter.__init__`. -/
def adapter (cfg : ConfigFields) (environment : String) : Except String KubernetesAdapter :=
  match cfg.runtime with
  | .docker_compose _ => .error "KubernetesAdapter requires runtime.type: kubernetes"
  | .kubernetes runtime =>
    match hproject : kubernetes_name cfg.project_name with
    | .error e => .error e
    | .ok project_name =>
    match henvironment : kubernetes_name environment with
    | .error e => .error e
    | .ok environment_name =>
    match environment_namespace cfg.project_name runtime.namespace_template environment with
    | .error e => .error e
    | .ok namespace_name =>
    match hworkload : kubernetes_name cfg.odoo_service with
    | .error e => .error e
    | .ok workload => .ok
      { project := cfg.project_name, environment, service := cfg.odoo_service
        nginx := runtime.canary_provider = .nginx
        namespace_name, project_name, environment_name, workload
        project_named := hproject, environment_named := henvironment
        workload_named := hworkload }

variable {cfg : ConfigFields} {environment other : String} {a b : KubernetesAdapter}

/-- What an adapter takes from the configuration and from the name of its environment. -/
structure Built (cfg : ConfigFields) (environment : String) (a : KubernetesAdapter) : Prop where
  served : a.environment = environment
  project_named : kubernetes_name cfg.project_name = .ok a.project_name
  environment_named : kubernetes_name environment = .ok a.environment_name
  workload_named : kubernetes_name cfg.odoo_service = .ok a.workload
  namespace_named : ∃ runtime, cfg.runtime = .kubernetes runtime ∧
    environment_namespace cfg.project_name runtime.namespace_template environment =
      .ok a.namespace_name

theorem adapter_built (h : adapter cfg environment = .ok a) : Built cfg environment a := by
  unfold adapter at h
  split at h
  · cases h
  next runtime hruntime =>
  split at h
  · cases h
  next hproject =>
  split at h
  · cases h
  next henvironment =>
  split at h
  · cases h
  next hnamespace =>
  split at h
  · cases h
  next hworkload =>
  cases h
  exact ⟨rfl, hproject, henvironment, hworkload, runtime, hruntime, hnamespace⟩

/-- Environments of one Kubernetes name have one namespace and one set of labels. -/
theorem same_names (ha : adapter cfg environment = .ok a) (hb : adapter cfg other = .ok b)
    (h : a.environment_name = b.environment_name) :
    a.project_name = b.project_name ∧ a.workload = b.workload ∧
      a.namespace_name = b.namespace_name := by
  obtain ⟨-, hpa, hea, hwa, runtime, hra, hna⟩ := adapter_built ha
  obtain ⟨-, hpb, heb, hwb, runtime', hrb, hnb⟩ := adapter_built hb
  cases hra.symm.trans hrb
  refine ⟨Except.ok.inj (hpa.symm.trans hpb), Except.ok.inj (hwa.symm.trans hwb), ?_⟩
  unfold environment_namespace at hna hnb
  rw [hpa, hea] at hna
  rw [hpa, heb, ← h] at hnb
  exact Except.ok.inj (hna.symm.trans hnb)

/-! ## Calls -/

/-- `workload or default`. -/
def orElse (workload : Option String) (default : String) : String :=
  if workload.getD "" ≠ "" then workload.getD "" else default

/-- A rollout that was begun: its workload is a Kubernetes name. -/
structure Rollout where
  state : RolloutState
  named : ∃ workload, kubernetes_name workload = .ok state.workload

inductive AdapterCall where
  | up (workload : Option String)
  | begin_rollout (workload : String) (strategy : RolloutStrategy) (revision : String)
      (canary_percent : ℕ)
  | promote_rollout (rollout : Rollout)
  | finalize_rollout (rollout : Rollout)
  | rollback_rollout (rollout : Rollout)
  | restart (workload : String)
  | delete (workload : Option String)

def body (a : KubernetesAdapter) : AdapterCall → KubeM Unit
  | .up workload => up a (orElse workload a.workload)
  | .begin_rollout workload strategy revision canary_percent => do
    let _ ← begin_rollout a workload strategy revision canary_percent
    .pure ()
  | .promote_rollout rollout => do
    let _ ← promote_rollout a rollout.state
    .pure ()
  | .finalize_rollout rollout => finalize_rollout a rollout.state
  | .rollback_rollout rollout => rollback_rollout a rollout.state
  | .restart workload => restart a workload
  | .delete workload => delete a workload

/-! ## The cluster -/

/-- What a command mutates or deletes. A namespace is deleted with all that is in it. -/
def Mutates : KubectlCall → Kind → String → Prop
  | .apply resources, kind, name => ∃ r ∈ resources, r.kind = kind ∧ r.name = name
  | .rollout_undo deployment, kind, name => kind = .Deployment ∧ name = deployment
  | .rollout_restart deployment, kind, name => kind = .Deployment ∧ name = deployment
  | .patch_service service _, kind, name => kind = .Service ∧ name = service
  | .delete .Namespace _, _, _ => True
  | .delete deleted called, kind, name => kind = deleted ∧ name = called
  | _, _, _ => False

/-- The namespaces, and whose adapter created an object. -/
structure Fleet where
  cluster : String → Cluster
  creator : String → Kind → String → Option String

/-- An object that appears is created by the environment whose command is served. -/
def record (environment : String) (before after : Cluster)
    (creator : Kind → String → Option String) : Kind → String → Option String :=
  fun kind name =>
    match before kind name, after kind name with
    | none, some _ => some environment
    | some _, none => none
    | _, _ => creator kind name

/-- Nothing is outside of a namespace that exists. -/
def Housed (namespace_ : String) (c : Cluster) : Prop :=
  c .Namespace namespace_ = none → ∀ kind name, c kind name = none

/-- `kubectl` in the namespace of an adapter. -/
def fleet (a : KubernetesAdapter) : World Kubectl Fleet := fun o s r t =>
  kubectl o (s.cluster a.namespace_name) r (t.cluster a.namespace_name) ∧
  Housed a.namespace_name (t.cluster a.namespace_name) ∧
  t.creator a.namespace_name = record a.environment (s.cluster a.namespace_name)
    (t.cluster a.namespace_name) (s.creator a.namespace_name) ∧
  ∀ n, n ≠ a.namespace_name → t.cluster n = s.cluster n ∧ t.creator n = s.creator n

/-- The object carries the labels of the environment. -/
def Bears (a : KubernetesAdapter) (labels : Labels) : Prop :=
  labels[PROJECT_LABEL]? = some a.project_name ∧
    labels[ENVIRONMENT_LABEL]? = some a.environment_name

/-- The adapter of an environment of the configuration. -/
def Serves (cfg : ConfigFields) (a : KubernetesAdapter) : Prop :=
  ∃ p ∈ cfg.environments, adapter cfg p.1 = .ok a

/-- In namespace `n`, what carries the labels of an environment lies in a namespace that
carries them. -/
def Labelled (cfg : ConfigFields) (n : String) (c : Cluster) : Prop :=
  ∀ kind name o, c kind name = some o → ∀ a, Serves cfg a → Bears a o.labels →
    ∃ h, c .Namespace n = some h ∧ Bears a h.labels

/-- Before the first call. Objects of others may be there. -/
structure Initial (cfg : ConfigFields) (s : Fleet) : Prop where
  uncreated : ∀ n kind name, s.creator n kind name = none
  housed : ∀ n, Housed n (s.cluster n)
  labelled : ∀ n, Labelled cfg n (s.cluster n)

/-- Nothing that the adapter of another environment created is mutated. -/
def Spares (a : KubernetesAdapter) (o : KubectlCall) (s : Fleet) : Prop :=
  ∀ kind name environment, Mutates o kind name →
    s.creator a.namespace_name kind name = some environment → environment = a.environment

/-- Calls made one after another, each run to its end or stopped at any command. -/
inductive Serial (cfg : ConfigFields) (s₀ : Fleet) : Fleet → Prop where
  | start : Serial cfg s₀ s₀
  | call {s t a q} (call : AdapterCall) : Serial cfg s₀ s → Serves cfg a →
      Steps (fleet a) s (body a call) t q → Serial cfg s₀ t

end KubernetesFleet
