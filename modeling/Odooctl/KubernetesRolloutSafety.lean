import Odooctl.KubernetesRollout

/-!
# Traffic during a progressive rollout

The stable Service of one workload over every sequence of rollouts. A call may fail or
stop anywhere, with or without the effect of its last command. A rollout state carries
what `begin_rollout` recorded; while it is not promoted, the live selector is the recorded
one or that one under the promotion's patch.
-/
namespace KubernetesRolloutSafety

open EffectPrograms MergeSemantics KubernetesRollout

/-- A Service sends traffic to the pods that carry every entry of its selector. -/
def Selects (selector pod_labels : Labels) : Prop := selector ≠ ∅ ∧ Matches selector pod_labels

/-- The selector is met by the pods of that deployment and of no other. -/
def SelectsOnly (selector : Labels) (c : Cluster) (deployment : String) : Prop :=
  ∃ o, c .Deployment deployment = some o ∧ Selects selector o.template_labels ∧
    ∀ n p, c .Deployment n = some p → Selects selector p.template_labels → n = deployment

/-- The stable Service sends traffic to the pods of that deployment and of no other. -/
def ServedOnlyBy (a : KubernetesAdapter) (c : Cluster) (deployment : String) : Prop :=
  ∃ svc, c .Service a.workload = some svc ∧ SelectsOnly svc.selector c deployment

def canonical_selector (a : KubernetesAdapter) : Labels := (a.selector "odoo").labels

/-- The pods of a candidate deployment are labelled as candidates. -/
def CandidatePods (c : Cluster) : Prop :=
  ∀ n o, c .Deployment n = some o → o.labels[COMPONENT_LABEL]? = some "odoo-candidate" →
    o.template_labels[COMPONENT_LABEL]? = some "odoo-candidate"

/-! ## Calls and runs -/

inductive Call where
  | begin (strategy : RolloutStrategy) (revision : String) (canary_percent : ℕ)
  | promote
  | finalize
  | rollback

/-- The process keeps the rollout state between its calls. -/
abbrev Memory := Option RolloutState

def Call.body (a : KubernetesAdapter) : Call → Memory → KubeM Memory
  | .begin strategy revision canary_percent, _ => do
    let state ← begin_rollout a a.service strategy revision canary_percent
    .pure (some state)
  | .promote, some state => do
    let state ← promote_rollout a state
    .pure (some state)
  | .finalize, some state => do
    finalize_rollout a state
    .pure none
  | .rollback, some state => do
    rollback_rollout a state
    .pure none
  | _, none => .pure none

/-- `RolloutFailed` carries its state; after any other exception the old one is kept. -/
def resume : Except RolloutError Memory → Memory → Memory
  | .ok mem, _ => mem
  | .error (.failed _ state), _ => some state
  | .error _, mem => mem

/-- One rollout at a time; only a promoted one is finalized. -/
def Allowed : Call → Memory → Prop
  | .begin strategy _ _, mem => mem = none ∧ (strategy = .blue_green ∨ strategy = .canary)
  | .promote, mem => ∃ state, mem = some state ∧ state.promoted = false
  | .finalize, mem => ∃ state, mem = some state ∧ state.promoted = true
  | .rollback, mem => ∃ state, mem = some state

/-- Calls made one after another; a process that stops loses its memory. -/
inductive Rollouts (a : KubernetesAdapter) (may : Call → Memory → Cluster → Prop) (c₀ : Cluster) :
    Cluster → Memory → Prop where
  | start : Rollouts a may c₀ c₀ none
  | ended {c mem call r t} : Rollouts a may c₀ c mem → may call mem c →
      Ends kubectl c (call.body a mem) r t → Rollouts a may c₀ t (resume r mem)
  | stopped {c mem call t q} : Rollouts a may c₀ c mem → may call mem c →
      Steps kubectl c (call.body a mem) t q → Rollouts a may c₀ t none

/-- What a call that returns is to leave behind. -/
def Converged (a : KubernetesAdapter) (call : Call) (mem : Memory) (t : Cluster) : Prop :=
  match call, mem with
  | .finalize, some _ => ∃ svc, t .Service a.workload = some svc ∧ svc.selector = canonical_selector a
  | .rollback, some state =>
    ∃ svc, t .Service a.workload = some svc ∧ svc.selector = state.previous_selector
  | _, _ => True

/-- No key of the live selector survives the apply of the canonical Service. -/
def Appliable (a : KubernetesAdapter) (svc : Object) : Prop :=
  ∀ k ∈ svc.selector, k ∈ canonical_selector a ∨ k ∈ lastApplied svc Resource.selector

/-- A promoted rollout added no key; the patch of an unpromoted one is not in force. -/
def Revertible (state : RolloutState) (svc : Object) : Prop :=
  if state.promoted then ∀ k ∈ svc.selector, k ∈ state.previous_selector
  else ∀ selector, state.candidate_selector = some selector →
    Matches selector svc.selector → Matches selector state.previous_selector

/-- Where the call finds the cluster it was written for. -/
def Undisturbed (a : KubernetesAdapter) (call : Call) (mem : Memory) (c : Cluster) : Prop :=
  match call, mem with
  | .finalize, some _ => ∀ svc, c .Service a.workload = some svc → Appliable a svc
  | .rollback, some state =>
    (∀ svc, c .Service a.workload = some svc → Revertible state svc) ∧
    ∀ candidate, state.candidate_workload = some candidate →
      ¬ SelectsOnly state.previous_selector c candidate
  | _, _ => True

/-! ## What a command may do -/

variable {a : KubernetesAdapter} {c t : Cluster} {svc : Object} {st : RolloutState}
  {expected : Dict} {α : Type}

/-- Pods of a rendered deployment carry its component. -/
def Uniform (r : Resource) : Prop := r.kind = .Deployment →
  ∃ component, r.labels[COMPONENT_LABEL]? = some component ∧
    r.template_labels[COMPONENT_LABEL]? = some component

/-- What a rollout may issue. -/
def Guard (a : KubernetesAdapter) (o : Kubectl.Op) (c : Cluster) : Prop :=
  match (o : KubectlCall) with
  | .delete .Deployment name => ¬ ServedOnlyBy a c name
  | .apply resources => ∀ r ∈ resources, Uniform r
  | .rollout_undo _ => False
  | _ => True

@[simp] theorem Cluster.set_self (c : Cluster) (kind : Kind) (name : String) (o : Option Object) :
    c.set kind name o kind name = o := by simp [Cluster.set]

theorem Cluster.set_other (c : Cluster) {kind k : Kind} {name n : String} (o : Option Object)
    (h : ¬ (k = kind ∧ n = name)) : c.set kind name o k n = c k n := if_neg h

theorem apply_other {r : Resource} {kind : Kind} {name : String}
    (h : ¬ (kind = r.kind ∧ name = r.name)) : c.apply r kind name = c kind name :=
  Cluster.set_other _ _ h

/-- Objects that no manifest names stay as they are. -/
theorem foldl_apply_other {rs : List Resource} {kind : Kind} {name : String}
    (h : ∀ r ∈ rs, ¬ (kind = r.kind ∧ name = r.name)) :
    rs.foldl Cluster.apply c kind name = c kind name := by
  induction rs generalizing c with
  | nil => rfl
  | cons r rs ih =>
    rw [List.foldl_cons, ih fun x hx => h x (List.mem_cons_of_mem _ hx)]
    exact apply_other (h r List.mem_cons_self)

theorem matches_onto {r : Resource} (o : Option Object) :
    Matches r.labels (r.onto o).labels ∧ Matches r.selector (r.onto o).selector ∧
      Matches r.template_labels (r.onto o).template_labels := by
  cases o with
  | none => exact ⟨.refl _, .refl _, .refl _⟩
  | some o =>
    exact ⟨matches_threeWay _ _ _, matches_threeWay _ _ _, matches_threeWay _ _ _⟩

theorem candidatePods_set {kind : Kind} {name : String} {o : Option Object} (h : CandidatePods c)
    (ho : ∀ x, kind = .Deployment → o = some x →
      x.labels[COMPONENT_LABEL]? = some "odoo-candidate" →
      x.template_labels[COMPONENT_LABEL]? = some "odoo-candidate") :
    CandidatePods (c.set kind name o) := by
  intro n x hx hl
  by_cases hn : Kind.Deployment = kind ∧ n = name
  · obtain ⟨hk, rfl⟩ := hn
    rw [← hk, Cluster.set_self] at hx
    exact ho x hk.symm hx hl
  · rw [Cluster.set_other _ _ hn] at hx
    exact h n x hx hl

theorem candidatePods_apply {r : Resource} (h : CandidatePods c) (hr : Uniform r) :
    CandidatePods (c.apply r) := by
  apply candidatePods_set h
  intro x hk hx hl
  obtain ⟨component, hlabels, htemplate⟩ := hr hk
  obtain ⟨hml, -, hmt⟩ := matches_onto (r := r) (c r.kind r.name)
  rw [Option.some.inj hx] at hml hmt
  have hcomponent := (hml _ _ hlabels).symm.trans hl
  rw [← hcomponent]
  exact hmt _ _ htemplate

theorem candidatePods_foldl {rs : List Resource} (h : CandidatePods c)
    (hr : ∀ r ∈ rs, Uniform r) : CandidatePods (rs.foldl Cluster.apply c) := by
  induction rs generalizing c with
  | nil => exact h
  | cons r rs ih =>
    apply ih (candidatePods_apply h (hr r List.mem_cons_self))
    exact fun x hx => hr x (List.mem_cons_of_mem _ hx)

theorem candidatePods_effect {o : KubectlCall} (h : CandidatePods c) (hg : Guard a o c)
    (ht : o.effect c = some t) : CandidatePods t := by
  cases o with
  | apply rs =>
    cases ht
    exact candidatePods_foldl h hg
  | patch_service name selector =>
    obtain ⟨o, ho, rfl⟩ := Option.map_eq_some_iff.mp ht
    exact candidatePods_set h fun x hk => by cases hk
  | delete kind name =>
    obtain ⟨o, ho, rfl⟩ := Option.map_eq_some_iff.mp ht
    split
    · intro n o ho
      cases ho
    · exact candidatePods_set h fun x _ hx => by cases hx
  | get | get_service | write_manifest | rollout_status | rollout_undo | rollout_restart =>
    cases ht
    exact h

/-- Every command of a rollout keeps the labels of candidate pods. -/
theorem candidatePods_step {o : KubectlCall} {r : o.Answer} (h : CandidatePods c)
    (hg : Guard a o c) (hw : kubectl o c r t) : CandidatePods t := by
  cases o with
  | get => rw [hw.1]; exact h
  | get_service => rw [hw.1]; exact h
  | write_manifest | rollout_status | rollout_restart =>
    obtain rfl : t = c := hw
    exact h
  | apply rs =>
    rcases hw with ⟨-, rfl⟩ | ⟨-, done, hsub, rfl⟩
    · exact candidatePods_foldl h hg
    · exact candidatePods_foldl h fun r hr => hg r (hsub.subset hr)
  | rollout_undo => exact absurd hg id
  | patch_service name selector =>
    rcases hw with hw | ⟨rfl, -⟩
    · exact candidatePods_effect h hg hw
    · exact h
  | delete kind name =>
    rcases hw with hw | ⟨rfl, -⟩
    · exact candidatePods_effect h hg hw
    · exact h

/-! ## Ownership checks -/

/-- The object carries every label that was expected of it. -/
def Owned (expected : Dict) (o : Object) : Prop :=
  ∀ key value, (key, value) ∈ expected → o.labels[key]? = some value

/-- What an ownership check that passed found. -/
def Checked (expected : Dict) (absent_ok : Bool) (o : Option Object) (found : Bool) : Prop :=
  match o with
  | none => found = false ∧ absent_ok = true
  | some o => found = true ∧ Owned expected o

theorem owned_of_mismatches {o : Object} (h : mismatches expected o.labels = []) :
    Owned expected o := by
  intro key value hm
  by_contra hne
  have hmem : (key, value) ∈ mismatches expected o.labels :=
    List.mem_filter.mpr ⟨hm, decide_eq_true hne⟩
  rw [h] at hmem
  cases hmem

theorem checked_ownership {kind : Kind} {name : String} {absent_ok found : Bool}
    {r : GetResult} (hw : kubectl (.get kind name) c r t)
    (hr : ownership kind name absent_ok expected r = .ok found) :
    Checked expected absent_ok (c kind name) found := by
  obtain ⟨-, hw⟩ := hw
  cases r with
  | malformed => cases hr
  | failed stdout stderr =>
    simp only [ownership] at hr
    split at hr
    · next h =>
      cases hr
      obtain ⟨habsent, hreport⟩ := Bool.and_eq_true_iff.mp h
      rw [hw hreport]
      exact ⟨rfl, habsent⟩
    · cases hr
  | found labels =>
    obtain ⟨o, ho, rfl⟩ := hw
    simp only [ownership] at hr
    split at hr
    · next h =>
      cases hr
      rw [ho]
      exact ⟨rfl, owned_of_mismatches h⟩
    · cases hr

theorem ownership_ne {kind : Kind} {name : String} {absent_ok : Bool} {r : GetResult} {m : String}
    {s : RolloutState} : ownership kind name absent_ok expected r ≠ .error (.failed m s) := by
  intro hr
  cases r with
  | malformed => cases hr
  | failed | found =>
    simp only [ownership] at hr
    split at hr <;> cases hr

theorem wp_assert_owned {G : Kubectl.Op → Cluster → Prop} {kind : Kind} {name : String}
    {absent_ok : Bool} {Q : Except RolloutError Bool → Cluster → Prop}
    (hg : G (KubectlCall.get kind name) c)
    (hok : ∀ found, Checked expected absent_ok (c kind name) found → Q (.ok found) c)
    (herr : ∀ e, (∀ m s, e ≠ .failed m s) → Q (.error e) c) :
    wp kubectl G (assert_owned_or_absent kind name absent_ok expected) Q c := by
  refine wp_perform.mpr ⟨hg, ?_⟩
  intro r t hw
  obtain rfl : t = c := hw.1
  cases hr : ownership kind name absent_ok expected r with
  | ok found => exact hok found (checked_ownership hw hr)
  | error e =>
    apply herr
    rintro m s rfl
    exact ownership_ne hr

/-- After all checks every object that exists is owned; the cluster is as before. -/
theorem wp_assert_all_owned {G : Kubectl.Op → Cluster → Prop} {ids : List (Kind × String)}
    {Q : Except RolloutError Unit → Cluster → Prop}
    (hg : ∀ kind name, G (KubectlCall.get kind name) c)
    (hok : (∀ i ∈ ids, ∀ o, c i.1 i.2 = some o → Owned expected o) → Q (.ok ()) c)
    (herr : ∀ e, (∀ m s, e ≠ .failed m s) → Q (.error e) c) :
    wp kubectl G (assert_all_owned expected ids) Q c := by
  induction ids with
  | nil => exact hok (by simp)
  | cons i ids ih =>
    obtain ⟨kind, name⟩ := i
    rw [assert_all_owned, wp_bind']
    apply wp_assert_owned (hg kind name)
    · intro found hchecked
      apply ih
      intro hall
      apply hok
      intro i hi o ho
      rcases List.mem_cons.mp hi with rfl | hi
      · simp only [ho] at hchecked
        exact hchecked.2
      · exact hall i hi o ho
    · exact herr

/-- A command that changes nothing in the cluster. -/
theorem wp_quiet {o : KubectlCall} {reply : o.Answer → Except RolloutError α}
    {Q : Except RolloutError α → Cluster → Prop} (hg : Guard a o c)
    (hq : ∀ r t, kubectl o c r t → t = c) (hr : ∀ r m s, reply r ≠ .error (.failed m s))
    (h : ∀ r, (∀ m s, r ≠ .error (.failed m s)) → Q r c) :
    wp kubectl (Guard a) (.perform (F := Kubectl) o reply) Q c := by
  refine wp_perform.mpr ⟨hg, ?_⟩
  intro r t hw
  obtain rfl := hq r t hw
  exact h _ (hr r)

theorem raised_ne {r : Except String α} {m : String} {s : RolloutState} :
    raised r ≠ .error (.failed m s) := by
  cases r <;> simp [raised, Except.mapError]


/-- The exception is no `RolloutFailed`. -/
def Plain (r : Except RolloutError α) : Prop := ∀ m s, r ≠ .error (.failed m s)

/-- The stable Service, labelled as the adapter labels it. -/
def Stable (a : KubernetesAdapter) (c : Cluster) (svc : Object) : Prop :=
  c .Service a.workload = some svc ∧ svc.labels[COMPONENT_LABEL]? = some "odoo"

theorem owned_component {component : String} {o : Object}
    (h : Owned (a.labels component) o) : o.labels[COMPONENT_LABEL]? = some component :=
  h _ _ (by simp [KubernetesAdapter.labels])

theorem owned_candidate {revision : String} {o : Object}
    (h : Owned (candidate_labels a revision) o) :
    o.labels[COMPONENT_LABEL]? = some "odoo-candidate" :=
  h _ _ (by simp [candidate_labels, KubernetesAdapter.labels])

/-- No object of the stable name passes the checks on a candidate. -/
theorem Stable.not_candidate {revision : String} (h : Stable a c svc) :
    ¬ Owned (candidate_labels a revision) svc := by
  intro ho
  have hc := (owned_candidate ho).symm.trans h.2
  exact absurd hc (by decide)

theorem wp_service_selector {Q : Except RolloutError Labels → Cluster → Prop}
    (hok : ∀ svc, Stable a c svc → Q (.ok svc.selector) c)
    (herr : ∀ e, Plain (.error e : Except RolloutError Labels) → Q (.error e) c) :
    wp kubectl (Guard a) (service_selector a a.workload) Q c := by
  rw [service_selector, wp_bind']
  apply wp_assert_owned trivial
  · intro found hchecked
    cases hs : c .Service a.workload with
    | none =>
      simp only [hs] at hchecked
      exact absurd hchecked.2 (by decide)
    | some svc =>
      simp only [hs] at hchecked
      refine wp_perform.mpr ⟨trivial, ?_⟩
      rintro r t ⟨rfl, hr⟩
      rcases r with e | _ | selector
      · exact herr _ (by intro m s h; cases h)
      · exact herr _ (by intro m s h; cases h)
      · obtain ⟨o, ho, rfl⟩ := hr _ rfl
        obtain rfl : svc = o := Option.some.inj (hs.symm.trans ho)
        simp only [readSelector]
        split
        · exact herr _ (by intro m s h; cases h)
        · exact hok svc ⟨hs, owned_component hchecked.2⟩
  · intro e he
    exact herr e fun m s h => he m s (by cases h; rfl)

theorem getElem?_labels {d : Dict} {key value : String} (hd : (d.map Prod.fst).Nodup)
    (h : (key, value) ∈ d) : d.labels[key]? = some value := by
  refine Std.ExtTreeMap.getElem?_ofList_of_mem Std.ReflCmp.compare_self ?_ h
  have hp : d.Pairwise fun x y => x.1 ≠ y.1 := List.pairwise_map.mp hd
  exact hp.imp fun hne => fun heq => hne (Std.LawfulEqCmp.eq_of_compare heq)

theorem getElem?_component (component : String) :
    (a.labels component).labels[COMPONENT_LABEL]? = some component ∧
      (a.selector component).labels[COMPONENT_LABEL]? = some component := by
  constructor
  · apply getElem?_labels
    · simp only [KubernetesAdapter.labels, List.map]
      decide
    · simp [KubernetesAdapter.labels]
  · apply getElem?_labels
    · simp only [KubernetesAdapter.selector, List.map]
      decide
    · simp [KubernetesAdapter.selector]

theorem getElem?_candidate (revision : String) :
    (candidate_labels a revision).labels[COMPONENT_LABEL]? = some "odoo-candidate" := by
  apply getElem?_labels
  · simp only [candidate_labels, KubernetesAdapter.labels, List.map, List.cons_append,
      List.nil_append]
    decide
  · simp [candidate_labels, KubernetesAdapter.labels]

theorem uniform_candidate {candidate revision : String} {strategy : RolloutStrategy} {n : ℕ} :
    ∀ r ∈ candidate_resources a candidate revision strategy n, Uniform r ∧ r.name = candidate := by
  intro r hr
  have hcases : r.name = candidate ∧ (r.kind = .Deployment →
      r.labels = (candidate_labels a revision).labels ∧
      r.template_labels = (candidate_labels a revision).labels) := by
    unfold candidate_resources at hr
    split at hr
    · simp only [List.cons_append, List.nil_append, List.mem_cons, List.not_mem_nil, or_false] at hr
      rcases hr with rfl | rfl | rfl <;> simp
    · simp only [List.mem_cons, List.not_mem_nil, or_false] at hr
      rcases hr with rfl | rfl <;> simp
  refine ⟨fun hk => ?_, hcases.1⟩
  obtain ⟨hlabels, htemplate⟩ := hcases.2 hk
  refine ⟨"odoo-candidate", ?_, ?_⟩
  · rw [hlabels]
    exact getElem?_candidate revision
  · rw [htemplate]
    exact getElem?_candidate revision

theorem uniform_canonical : ∀ r ∈ render_kubernetes_resources a, Uniform r := by
  intro r hr hk
  simp only [render_kubernetes_resources, List.mem_cons, List.not_mem_nil, or_false] at hr
  rcases hr with rfl | rfl | rfl | rfl | rfl
  · cases hk
  · cases hk
  · exact ⟨"odoo", (getElem?_component "odoo").1, (getElem?_component "odoo").1⟩
  · cases hk
  · cases hk

theorem plain_raised (r : Except String α) : Plain (raised r) := fun _ _ => raised_ne

theorem wp_status {deployment : String} {Q : Except RolloutError Unit → Cluster → Prop}
    (h : ∀ r, Plain r → Q r c) :
    wp kubectl (Guard a) (rollout_status deployment) Q c :=
  wp_quiet trivial (fun _ _ hw => hw) (fun _ _ _ => raised_ne) h

theorem wp_write {stem : String} {Q : Except RolloutError String → Cluster → Prop}
    (h : ∀ r, Plain r → Q r c) :
    wp kubectl (Guard a) (write_manifest stem) Q c :=
  wp_quiet trivial (fun _ _ hw => hw) (fun _ _ _ => raised_ne) h

theorem wp_apply {rs : List Resource} {Q : Except RolloutError Unit → Cluster → Prop}
    (hg : ∀ r ∈ rs, Uniform r) (hok : Q (.ok ()) (rs.foldl Cluster.apply c))
    (herr : ∀ e done, Plain (.error e : Except RolloutError Unit) → List.Sublist done rs →
      Q (.error e) (done.foldl Cluster.apply c)) :
    wp kubectl (Guard a) (kubectl_apply rs) Q c := by
  refine wp_perform.mpr ⟨hg, ?_⟩
  rintro r t (⟨rfl, rfl⟩ | ⟨⟨e, rfl⟩, done, hsub, rfl⟩)
  · exact hok
  · exact herr _ done (plain_raised (.error e : Except String Unit)) hsub

/-! ## Beginning a rollout -/

/-- Candidate resources pass their checks only under another name than the stable one. -/
theorem Stable.name_ne {candidate revision : String} {strategy : RolloutStrategy} {n : ℕ}
    (hs : Stable a c svc)
    (hall : ∀ i ∈ (candidate_resources a candidate revision strategy n).map
      (fun r => (r.kind, r.name)), ∀ o, c i.1 i.2 = some o →
        Owned (candidate_labels a revision) o) : candidate ≠ a.workload := by
  rintro rfl
  have hmem : (Kind.Service, a.workload) ∈
      (candidate_resources a a.workload revision strategy n).map (fun r => (r.kind, r.name)) := by
    unfold candidate_resources
    split <;> simp
  exact hs.not_candidate (hall _ hmem svc hs.1)

theorem wp_apply_rollout_resources {candidate revision : String} {strategy : RolloutStrategy}
    {n : ℕ} {Q : Except RolloutError String → Cluster → Prop} (hs : Stable a c svc)
    (h : ∀ r t, Plain r → Stable a t svc → Q r t) :
    wp kubectl (Guard a) (apply_rollout_resources candidate
      (candidate_resources a candidate revision strategy n) (candidate_labels a revision)) Q c := by
  rw [apply_rollout_resources, wp_bind']
  apply wp_assert_all_owned (fun _ _ => trivial)
  swap
  · exact fun e he => h _ c (fun m s hr => he m s (Except.error.inj hr)) hs
  intro hall
  have hne := hs.name_ne hall
  have hstays : ∀ done, List.Sublist done (candidate_resources a candidate revision strategy n) →
      Stable a (done.foldl Cluster.apply c) svc := by
    intro done hsub
    refine ⟨?_, hs.2⟩
    rw [foldl_apply_other]
    · exact hs.1
    · rintro r hr ⟨-, hname⟩
      exact hne ((uniform_candidate r (hsub.subset hr)).2.symm.trans hname.symm)
  rw [wp_bind']
  apply wp_write
  rintro (e | path) hplain
  · exact h _ c hplain hs
  apply wp_bind'.mpr
  apply wp_apply
  · exact fun r hr => (uniform_candidate r hr).1
  · exact h _ _ (fun m s hr => by cases hr) (hstays _ (List.Sublist.refl _))
  · exact fun e done hplain hsub => h _ _ (fun m s hr => hplain m s (by cases hr; rfl)) (hstays _ hsub)

/-- What `begin_rollout` leaves in the memory of its process. -/
structure Recorded (a : KubernetesAdapter) (svc : Object) (st : RolloutState) : Prop where
  strategy : st.strategy ≠ .rolling
  workload : st.workload = a.workload
  candidate : ∃ candidate, st.candidate_workload = some candidate
  selector : st.candidate_selector = some (candidate_selector a st.revision)
  unpromoted : st.promoted = false
  previous : st.previous_selector = svc.selector

theorem wp_begin {strategy : RolloutStrategy} {revision : String} {n : ℕ}
    {Q : Except RolloutError RolloutState → Cluster → Prop}
    (hstrategy : strategy = .blue_green ∨ strategy = .canary)
    (h : ∀ r t, (∀ st, r = .ok st ∨ (∃ m, r = .error (.failed m st)) →
      ∃ svc, Stable a t svc ∧ Recorded a svc st) → Q r t) :
    wp kubectl (Guard a) (begin_rollout a a.service strategy revision n) Q c := by
  have hquit : ∀ e, Plain (.error e : Except RolloutError RolloutState) → Q (.error e) c := by
    intro e he
    apply h
    rintro st (hr | ⟨m, hr⟩)
    · cases hr
    · exact absurd hr (he m st)
  unfold begin_rollout
  split
  · exact hquit _ (fun m s hr => by cases hr)
  rw [wp_bind', a.workload_named, named, wp_ofExcept]
  have hprogressive : ¬ (strategy = .recreate ∨ strategy = .rolling) := by
    rcases hstrategy with rfl | rfl <;> decide
  simp only [Except.mapError, if_neg hprogressive]
  rw [begin_progressive, wp_bind']
  apply wp_service_selector
  swap
  · exact fun e he => hquit e fun m s hr => he m s (by cases hr; rfl)
  intro svc hs
  simp only
  rw [wp_bind', named, wp_ofExcept]
  cases kubernetes_name (a.workload ++ "-" ++ shortRevision revision 8) with
  | error e => exact hquit _ (fun m s hr => by cases hr)
  | ok candidate =>
    refine wp_bind'.mpr (wp_mapError.mpr ?_)
    apply wp_apply_rollout_resources hs
    intro r t hplain hst
    have hrecorded : ∀ manifest, Recorded a svc
        { strategy, workload := a.workload, command_workload := candidate,
          candidate_workload := some candidate, previous_selector := svc.selector, revision,
          candidate_selector := some (candidate_selector a revision), manifest } := by
      intro manifest
      refine ⟨fun hr => hprogressive (.inr hr), rfl, ⟨candidate, rfl⟩, rfl, rfl, rfl⟩
    cases r with
    | error e =>
      apply h
      rintro st (hr | ⟨m, hr⟩)
      · cases hr
      · cases hr
        exact ⟨svc, hst, hrecorded none⟩
    | ok manifest =>
      refine wp_bind'.mpr (wp_mapError.mpr ?_)
      apply wp_status
      intro r _
      cases r with
      | error e =>
        apply h
        rintro st (hr | ⟨m, hr⟩)
        · cases hr
        · cases hr
          exact ⟨svc, hst, hrecorded (some manifest)⟩
      | ok u =>
        apply h
        rintro st (hr | ⟨m, hr⟩)
        · cases hr
          exact ⟨svc, hst, hrecorded (some manifest)⟩
        · cases hr

/-! ## Patching the selector -/

def patched (a : KubernetesAdapter) (c : Cluster) (svc : Object) (selector : Labels) : Cluster :=
  c.set .Service a.workload (some { svc with selector := mergePatch svc.selector selector })

theorem Stable.patched (h : Stable a c svc) (selector : Labels) :
    Stable a (patched a c svc selector)
      { svc with selector := mergePatch svc.selector selector } :=
  ⟨Cluster.set_self _ _ _ _, h.2⟩

theorem patched_deployment (selector : Labels) (n : String) :
    patched a c svc selector .Deployment n = c .Deployment n :=
  Cluster.set_other _ _ (by simp)

theorem wp_patch {workload : String} {selector : Labels}
    {Q : Except RolloutError Unit → Cluster → Prop} (hname : workload = a.workload)
    (hok : ∀ svc, Stable a c svc → Q (.ok ()) (patched a c svc selector))
    (herr : ∀ e t, Plain (.error e : Except RolloutError Unit) →
      (t = c ∨ ∃ svc, Stable a c svc ∧ t = patched a c svc selector) → Q (.error e) t) :
    wp kubectl (Guard a) (patch_service_selector a workload selector) Q c := by
  subst hname
  rw [patch_service_selector, wp_bind']
  apply wp_assert_owned trivial
  swap
  · exact fun e he => herr e c (fun m s hr => he m s (by cases hr; rfl)) (.inl rfl)
  intro found hchecked
  cases hs : c .Service a.workload with
  | none =>
    simp only [hs] at hchecked
    exact absurd hchecked.2 (by decide)
  | some svc =>
    simp only [hs] at hchecked
    have hstable : Stable a c svc := ⟨hs, owned_component hchecked.2⟩
    refine wp_perform.mpr ⟨trivial, ?_⟩
    rintro r t (hw | ⟨rfl, e, rfl⟩)
    · have ht : t = patched a c svc selector := by
        simp only [KubectlCall.effect, hs, Option.map_some, Option.some.injEq] at hw
        exact hw.symm
      rw [ht]
      cases r with
      | error e => exact herr _ _ (plain_raised (.error e : Except String Unit)) (.inr ⟨svc, hstable, rfl⟩)
      | ok u => exact hok svc hstable
    · exact herr _ _ (plain_raised (.error e : Except String Unit)) (.inl rfl)

/-! ## Deleting the candidate -/

/-- Nothing of the stable name is deleted. -/
theorem wp_delete_if_owned {revision candidate : String} {kind : Kind}
    {Q : Except RolloutError Unit → Cluster → Prop} (hkind : kind ≠ .Namespace)
    (hs : Stable a c svc) (hsafe : kind = .Deployment → ∀ o, c .Deployment candidate = some o →
      Owned (candidate_labels a revision) o → ¬ ServedOnlyBy a c candidate)
    (h : ∀ r t, Plain r → Stable a t svc → Q r t) :
    wp kubectl (Guard a) (delete_if_owned (candidate_labels a revision) candidate kind) Q c := by
  rw [delete_if_owned, wp_bind']
  apply wp_assert_owned trivial
  swap
  · exact fun e he => h _ c (fun m s hr => he m s (by cases hr; rfl)) hs
  intro found hchecked
  cases ho : c kind candidate with
  | none =>
    simp only [ho] at hchecked
    obtain ⟨rfl, -⟩ := hchecked
    exact h _ c (fun m s hr => by cases hr) hs
  | some o =>
    simp only [ho] at hchecked
    obtain ⟨rfl, howned⟩ := hchecked
    refine wp_perform.mpr ⟨?_, ?_⟩
    · cases kind with
      | Deployment => exact hsafe rfl o ho howned
      | Namespace | PersistentVolumeClaim | Service | Ingress => trivial
    rintro r t (hw | ⟨rfl, e, rfl⟩)
    · have ht : t = c.set kind candidate none := by
        simp only [KubectlCall.effect, ho, Option.map_some, Option.some.injEq, if_neg hkind] at hw
        exact hw.symm
      have hne : ¬ (Kind.Service = kind ∧ a.workload = candidate) := by
        rintro ⟨rfl, rfl⟩
        rw [hs.1] at ho
        cases ho
        exact hs.not_candidate howned
      refine h _ _ (plain_raised r) ⟨?_, hs.2⟩
      rw [ht, Cluster.set_other _ _ hne]
      exact hs.1
    · exact h _ _ (plain_raised (.error e : Except String Unit)) hs

theorem wp_delete_owned {revision candidate : String} {kinds : List Kind}
    {Q : Except RolloutError Unit → Cluster → Prop}
    (hkinds : Kind.Deployment ∉ kinds ∧ Kind.Namespace ∉ kinds) (hs : Stable a c svc) (h : ∀ r t, Plain r → Stable a t svc → Q r t) :
    wp kubectl (Guard a) (delete_owned (candidate_labels a revision) candidate kinds) Q c := by
  induction kinds generalizing c with
  | nil => exact h _ c (fun m s hr => by cases hr) hs
  | cons kind kinds ih =>
    rw [delete_owned, wp_bind']
    obtain ⟨hkind, hnamespace⟩ := hkinds
    apply wp_delete_if_owned (fun he => hnamespace (he ▸ List.mem_cons_self)) hs
    · rintro rfl
      exact absurd List.mem_cons_self hkind
    · rintro (e | u) t hplain hst
      · exact h _ t hplain hst
      · exact ih ⟨fun hm => hkind (List.mem_cons_of_mem _ hm),
          fun hm => hnamespace (List.mem_cons_of_mem _ hm)⟩ hst

/-- The Service is kept; the Deployment goes only where that is safe. -/
theorem wp_delete_candidate {Q : Except RolloutError Unit → Cluster → Prop} {candidate : String}
    (hc : st.candidate_workload = some candidate) (hs : Stable a c svc)
    (hsafe : ∀ o, c .Deployment candidate = some o →
      Owned (candidate_labels a st.revision) o → ¬ ServedOnlyBy a c candidate)
    (h : ∀ r t, Plain r → Stable a t svc → Q r t) :
    wp kubectl (Guard a) (delete_candidate a st) Q c := by
  simp only [delete_candidate, hc, List.cons_append, List.nil_append, delete_owned]
  apply wp_bind'.mpr
  apply wp_delete_if_owned (by decide) hs (fun _ => hsafe)
  rintro (e | u) t hplain hst
  · exact h _ t hplain hst
  have hkinds : ∀ kind, kind = Kind.Deployment ∨ kind = Kind.Namespace → kind ∉
      [Kind.Service] ++ if st.strategy = .canary then [Kind.Ingress] else [] := by
    rintro kind (rfl | rfl) <;> split <;> decide
  have hkinds := And.intro (hkinds _ (.inl rfl)) (hkinds _ (.inr rfl))
  exact wp_delete_owned hkinds hst h

/-! ## Ending a rollout -/

/-- What the memory of a process says of the live Service. -/
structure Held (a : KubernetesAdapter) (c : Cluster) (st : RolloutState) : Prop where
  strategy : st.strategy ≠ .rolling
  workload : st.workload = a.workload
  candidate : ∃ candidate, st.candidate_workload = some candidate
  selector : st.candidate_selector = some (candidate_selector a st.revision)
  link : st.promoted = false → ∃ svc, Stable a c svc ∧ (svc.selector = st.previous_selector ∨
    svc.selector = mergePatch st.previous_selector (candidate_selector a st.revision))

theorem Recorded.held (h : Recorded a svc st) (hs : Stable a c svc) : Held a c st :=
  ⟨h.strategy, h.workload, h.candidate, h.selector, fun _ => ⟨svc, hs, .inl h.previous.symm⟩⟩

theorem selectsOnly_congr {u : Cluster} {selector : Labels} {n : String}
    (h : ∀ n, u .Deployment n = c .Deployment n) :
    SelectsOnly selector u n ↔ SelectsOnly selector c n := by
  simp only [SelectsOnly, h]

theorem Stable.servedOnlyBy_iff {n : String} (h : Stable a c svc) :
    ServedOnlyBy a c n ↔ SelectsOnly svc.selector c n := by
  constructor
  · rintro ⟨o, ho, hserved⟩
    obtain rfl : svc = o := Option.some.inj (h.1.symm.trans ho)
    exact hserved
  · exact fun hserved => ⟨svc, h.1, hserved⟩

theorem wp_promote {Q : Except RolloutError RolloutState → Cluster → Prop} (h : Held a c st)
    (hp : st.promoted = false) (hok : ∀ t, Q (.ok { st with promoted := true }) t)
    (herr : ∀ e t, Plain (.error e : Except RolloutError RolloutState) → Held a t st →
      Q (.error e) t) :
    wp kubectl (Guard a) (promote_rollout a st) Q c := by
  unfold promote_rollout
  split
  · next hnone =>
    obtain ⟨candidate, hc⟩ := h.candidate
    exact absurd (hnone.symm.trans hc) (by simp)
  split
  · next hnone => exact absurd (hnone.symm.trans h.selector) (by simp)
  next selector hselector =>
  obtain rfl := Option.some.inj (h.selector.symm.trans hselector)
  apply wp_bind'.mpr
  apply wp_patch h.workload
  · exact fun svc _ => hok _
  intro e t hplain ht
  refine herr e t (fun m s hr => hplain m s (by cases hr; rfl)) ?_
  rcases ht with rfl | ⟨svc, hs, rfl⟩
  · exact h
  refine ⟨h.strategy, h.workload, h.candidate, h.selector, fun _ => ?_⟩
  refine ⟨_, hs.patched _, .inr ?_⟩
  obtain ⟨o, ho, hlink⟩ := h.link hp
  obtain rfl : svc = o := Option.some.inj (hs.1.symm.trans ho.1)
  rcases hlink with hprev | hmerged
  · simp only [hprev]
  · simp only [hmerged]
    exact mergePatch_mergePatch

/-- Where it is undisturbed, rolling back restores the recorded selector. -/
theorem wp_rollback {Q : Except RolloutError Unit → Cluster → Prop} (h : Held a c st)
    (hu : Undisturbed a .rollback (some st) c)
    (hok : ∀ t, (∃ svc, t .Service a.workload = some svc ∧
      svc.selector = st.previous_selector) → Q (.ok ()) t)
    (herr : ∀ e t, Plain (.error e : Except RolloutError Unit) → Held a t st → Q (.error e) t) :
    wp kubectl (Guard a) (rollback_rollout a st) Q c := by
  obtain ⟨candidate, hc⟩ := h.candidate
  obtain ⟨hrevert, hsafe⟩ := hu
  have hsafe := hsafe candidate hc
  -- once the selector is the recorded one, deleting the candidate is safe
  have hdelete : ∀ u svc, Stable a u svc → (∀ n, u .Deployment n = c .Deployment n) →
      svc.selector = st.previous_selector → wp kubectl (Guard a) (delete_candidate a st) Q u := by
    intro u svc hs hdeployments hselector
    apply wp_delete_candidate hc hs
    · intro o _ _ hserved
      rw [hs.servedOnlyBy_iff, hselector, selectsOnly_congr hdeployments] at hserved
      exact hsafe hserved
    · intro r t hplain hst
      cases r with
      | ok u => exact hok t ⟨svc, hst.1, hselector⟩
      | error e =>
        apply herr e t hplain
        exact ⟨h.strategy, h.workload, h.candidate, h.selector, fun _ => ⟨svc, hst, .inl hselector⟩⟩
  simp only [rollback_rollout, h.strategy, ↓reduceIte, hc, restore_selector]
  apply wp_bind'.mpr
  by_cases hp : st.promoted = true
  · rw [if_pos hp]
    apply wp_patch h.workload
    · intro svc hs
      have hkeys := hrevert svc hs.1
      rw [Revertible, if_pos hp] at hkeys
      apply hdelete _ _ (hs.patched _) (patched_deployment _)
      exact mergePatch_eq_patch_iff.mpr hkeys
    · intro e t hplain _
      apply herr e t hplain
      exact ⟨h.strategy, h.workload, h.candidate, h.selector,
        fun hf => absurd (hp.symm.trans hf) (by decide)⟩
  · rw [if_neg hp]
    have hp : st.promoted = false := Bool.eq_false_iff.mpr hp
    obtain ⟨svc, hs, hlink⟩ := h.link hp
    have hforce := hrevert svc hs.1
    rw [Revertible, hp, if_neg (by decide)] at hforce
    have hforce := hforce _ h.selector
    refine hdelete c svc hs (fun _ => rfl) ?_
    rcases hlink with hprev | hmerged
    · exact hprev
    · rw [hmerged] at hforce ⊢
      exact mergePatch_eq_live_iff.mpr (hforce (matches_mergePatch _ _))

theorem apply_canonical_service (c : Cluster) :
    ∃ svc, Stable a ((render_kubernetes_resources a).foldl Cluster.apply c) svc ∧
      Matches (canonical_selector a) svc.selector ∧
      ((∀ o, c .Service a.workload = some o → Appliable a o) →
        svc.selector = canonical_selector a) := by
  let r : Resource := { kind := .Service, name := a.workload, labels := (a.labels "odoo").labels,
                        selector := (a.selector "odoo").labels }
  have happlied : (render_kubernetes_resources a).foldl Cluster.apply c .Service a.workload =
      some (r.onto (c .Service a.workload)) := by
    simp [render_kubernetes_resources, Cluster.apply, Cluster.set, r]
  obtain ⟨hlabels, hselector, -⟩ := matches_onto (r := r) (c .Service a.workload)
  refine ⟨_, ⟨happlied, hlabels _ _ (getElem?_component "odoo").1⟩, hselector, ?_⟩
  intro hkeys
  cases ho : c .Service a.workload with
  | none => rfl
  | some o => exact threeWay_eq_manifest_iff.mpr (hkeys o ho)

theorem wp_up {Q : Except RolloutError Unit → Cluster → Prop}
    (hok : Q (.ok ()) ((render_kubernetes_resources a).foldl Cluster.apply c))
    (herr : ∀ e t, Plain (.error e : Except RolloutError Unit) → Q (.error e) t) :
    wp kubectl (Guard a) (up a a.workload) Q c := by
  rw [up, wp_bind']
  apply wp_assert_all_owned (fun _ _ => trivial)
  swap
  · exact fun e he => herr e c fun m s hr => he m s (Except.error.inj hr)
  intro _
  apply wp_bind'.mpr
  apply wp_write
  rintro (e | path) hplain
  · exact herr e c fun m s hr => hplain m s (by cases hr; rfl)
  apply wp_bind'.mpr
  apply wp_apply uniform_canonical
  swap
  · exact fun e done hplain _ => herr e _ hplain
  refine wp_bind'.mpr (wp_ofExcept.mpr ?_)
  cases kubernetes_name a.workload with
  | error e => exact herr _ _ fun m s hr => by cases hr
  | ok name =>
    apply wp_status
    rintro (e | u) hplain
    · exact herr e _ hplain
    · exact hok

/-- Where it is undisturbed, finalizing leaves the canonical selector. The candidate's
pods are not selected by it. -/
theorem wp_finalize {Q : Except RolloutError Unit → Cluster → Prop} (h : Held a c st)
    (hpods : CandidatePods c) (hu : Undisturbed a .finalize (some st) c)
    (hok : ∀ t, (∃ svc, t .Service a.workload = some svc ∧
      svc.selector = canonical_selector a) → Q (.ok ()) t)
    (herr : ∀ e t, Plain (.error e : Except RolloutError Unit) → Q (.error e) t) :
    wp kubectl (Guard a) (finalize_rollout a st) Q c := by
  obtain ⟨candidate, hc⟩ := h.candidate
  simp only [finalize_rollout, hc, h.workload]
  apply wp_bind'.mpr
  apply wp_up
  swap
  · exact herr
  obtain ⟨svc, hs, hmatches, hconverged⟩ := apply_canonical_service (a := a) c
  have hpods := candidatePods_foldl hpods (uniform_canonical (a := a))
  apply wp_delete_candidate hc hs
  · intro o ho howned hserved
    obtain ⟨x, hx, hselects, -⟩ := hs.servedOnlyBy_iff.mp hserved
    obtain rfl : o = x := Option.some.inj (ho.symm.trans hx)
    have hcandidate := hpods _ o ho (owned_candidate howned)
    have hcanonical := hselects.2 _ _ (hmatches _ _ (getElem?_component "odoo").2)
    exact absurd (hcandidate.symm.trans hcanonical) (by decide)
  · intro r t hplain hst
    cases r with
    | error e => exact herr e t hplain
    | ok u => exact hok t ⟨svc, hst.1, hconverged hu⟩

/-! ## Runs -/

def Remembered (a : KubernetesAdapter) (c : Cluster) (mem : Memory) : Prop :=
  ∀ st, mem = some st → Held a c st

theorem remembered_resume {mem : Memory} {e : RolloutError}
    (hplain : Plain (.error e : Except RolloutError α)) (h : Remembered a t mem) :
    Remembered a t (resume (.error e) mem) := by
  cases e with
  | failed m s => exact absurd rfl (hplain m s)
  | runtime | value | environment => exact h

theorem wp_body {call : Call} {mem : Memory} (hmem : Remembered a c mem) (hpods : CandidatePods c)
    (hmay : Allowed call mem) (hu : Undisturbed a call mem c) :
    wp kubectl (Guard a) (call.body a mem)
      (fun r t => (∀ m, r = .ok m → Converged a call mem t) ∧ Remembered a t (resume r mem)) c := by
  have hraise : ∀ {β : Type} (e : RolloutError) (t : Cluster),
      Plain (.error e : Except RolloutError β) → Remembered a t mem →
      (∀ m, (.error e : Except RolloutError Memory) = .ok m → Converged a call mem t) ∧
        Remembered a t (resume (.error e) mem) := by
    intro β e t hplain hrem
    refine ⟨?_, remembered_resume hplain hrem⟩
    intro m hm
    cases hm
  cases call with
  | begin strategy revision n =>
    obtain ⟨rfl, hstrategy⟩ := hmay
    apply wp_bind'.mpr
    apply wp_begin hstrategy
    intro r t hr
    have hheld : ∀ st, r = .ok st ∨ (∃ m, r = .error (.failed m st)) → Held a t st := by
      intro st hst
      obtain ⟨svc, hs, hrec⟩ := hr st hst
      exact hrec.held hs
    rcases r with (m | m | m | ⟨m, st⟩) | st
    · exact ⟨fun _ _ => trivial, by rintro st ⟨⟩⟩
    · exact ⟨fun _ _ => trivial, by rintro st ⟨⟩⟩
    · exact ⟨fun _ _ => trivial, by rintro st ⟨⟩⟩
    · refine ⟨fun _ _ => trivial, ?_⟩
      rintro _ ⟨⟩
      exact hheld st (.inr ⟨m, rfl⟩)
    · refine ⟨fun _ _ => trivial, ?_⟩
      rintro _ ⟨⟩
      exact hheld st (.inl rfl)
  | promote =>
    obtain ⟨st, rfl, hp⟩ := hmay
    have h := hmem st rfl
    apply wp_bind'.mpr
    apply wp_promote h hp
    · intro t
      refine ⟨fun _ _ => trivial, ?_⟩
      rintro _ ⟨⟩
      exact ⟨h.strategy, h.workload, h.candidate, h.selector, fun hf => by cases hf⟩
    · intro e t hplain hheld
      apply hraise e t hplain
      rintro _ ⟨⟩
      exact hheld
  | finalize =>
    obtain ⟨st, rfl, hp⟩ := hmay
    have h := hmem st rfl
    apply wp_bind'.mpr
    apply wp_finalize h hpods hu
    · intro t ht
      exact ⟨fun _ _ => ht, by rintro _ ⟨⟩⟩
    · intro e t hplain
      apply hraise e t hplain
      rintro _ ⟨⟩
      exact ⟨h.strategy, h.workload, h.candidate, h.selector,
        fun hf => absurd (hp.symm.trans hf) (by decide)⟩
  | rollback =>
    obtain ⟨st, rfl⟩ := hmay
    have h := hmem st rfl
    apply wp_bind'.mpr
    apply wp_rollback h hu
    · intro t ht
      exact ⟨fun _ _ => ht, by rintro _ ⟨⟩⟩
    · intro e t hplain hheld
      apply hraise e t hplain
      rintro _ ⟨⟩
      exact hheld

/-- Calls that are made in order, each where the cluster is undisturbed. -/
def Orderly (a : KubernetesAdapter) (call : Call) (mem : Memory) (c : Cluster) : Prop :=
  Allowed call mem ∧ Undisturbed a call mem c

theorem rollouts_invariant {c₀ : Cluster} {mem : Memory} (hpods : CandidatePods c₀)
    (hrun : Rollouts a (Orderly a) c₀ c mem) : CandidatePods c ∧ Remembered a c mem := by
  induction hrun with
  | start => exact ⟨hpods, by rintro _ ⟨⟩⟩
  | ended _ hmay hends ih =>
    have hw := wp_stable (wp_body ih.2 ih.1 hmay.1 hmay.2) ih.1
      (fun o u r t hg hp hw => candidatePods_step hp hg hw)
    obtain ⟨⟨-, hmem⟩, hpods⟩ := wp_ends hw hends
    exact ⟨hpods, hmem⟩
  | stopped _ hmay hsteps ih =>
    have hw := wp_stable (wp_body ih.2 ih.1 hmay.1 hmay.2) ih.1
      (fun o u r t hg hp hw => candidatePods_step hp hg hw)
    refine ⟨wp_invariant hw hsteps (fun _ _ h => h.2) (fun _ _ h => h.2), ?_⟩
    rintro _ ⟨⟩

/-- In a run whose calls all find the cluster undisturbed, finalizing and rolling back
leave the selector they are to leave, and no candidate is deleted while the stable Service
sends traffic to nothing else. -/
theorem rollouts_keep_traffic {c₀ : Cluster} {mem : Memory} {call : Call}
    (hpods : CandidatePods c₀) (hrun : Rollouts a (Orderly a) c₀ c mem)
    (hmay : Orderly a call mem c) :
    (∀ m t, Ends kubectl c (call.body a mem) (.ok m) t → Converged a call mem t) ∧
    ∀ t name k, Steps kubectl c (call.body a mem) t (.call (KubectlCall.delete .Deployment name) k) →
      ¬ ServedOnlyBy a t name := by
  obtain ⟨hp, hmem⟩ := rollouts_invariant hpods hrun
  have hw := wp_body hmem hp hmay.1 hmay.2
  constructor
  · intro m t hends
    exact (wp_ends hw hends).1 m rfl
  · intro t name k hsteps
    exact wp_issued hw hsteps

/-! ## A cluster without faults -/

def serve : (o : KubectlCall) → Cluster → o.Answer × Cluster
  | .get kind name, c => (match c kind name with
    | some o => .found o.labels
    | none => .failed "" "Error from server (NotFound): not found", c)
  | .get_service name, c => (match c .Service name with
    | some o => .ok (some o.selector)
    | none => .error "not found", c)
  | .write_manifest stem, c => (.ok (stem ++ ".yaml"), c)
  | .apply resources, c => (.ok (), resources.foldl Cluster.apply c)
  | .patch_service name selector, c =>
    match (KubectlCall.patch_service name selector).effect c with
    | some t => (.ok (), t)
    | none => (.error "not found", c)
  | .delete kind name, c =>
    match (KubectlCall.delete kind name).effect c with
    | some t => (.ok (), t)
    | none => (.error "not found", c)
  | .rollout_status _, c | .rollout_undo _, c | .rollout_restart _, c => (.ok (), c)

theorem serve_kubectl (o : KubectlCall) (c : Cluster) :
    kubectl o c (serve o c).1 (serve o c).2 := by
  cases o with
  | get kind name =>
    refine ⟨rfl, ?_⟩
    cases ho : c kind name with
    | none => simp [serve, ho]
    | some o => exact (by simp [serve, ho])
  | get_service name =>
    refine ⟨rfl, ?_⟩
    intro selector hr
    cases ho : c .Service name with
    | none =>
      simp only [serve, ho] at hr
      cases hr
    | some o =>
      simp only [serve, ho] at hr
      cases hr
      exact ⟨o, rfl, rfl⟩
  | apply resources => exact .inl ⟨rfl, rfl⟩
  | patch_service name selector =>
    cases he : (KubectlCall.patch_service name selector).effect c with
    | none => exact .inr ⟨by simp [serve, he], "not found", by simp only [serve, he]; rfl⟩
    | some t => exact .inl (by simp [serve, he])
  | delete kind name =>
    cases he : (KubectlCall.delete kind name).effect c with
    | none => exact .inr ⟨by simp [serve, he], "not found", by simp only [serve, he]; rfl⟩
    | some t => exact .inl (by simp [serve, he])
  | rollout_undo => exact .inl rfl
  | write_manifest | rollout_status | rollout_restart => rfl

/-- One call against that cluster. -/
def after (a : KubernetesAdapter) (call : Call) (s : Cluster × Memory) : Cluster × Memory :=
  let ending := (call.body a s.2).run serve s.1
  (ending.2, resume ending.1 s.2)

theorem rollouts_after {may : Call → Memory → Cluster → Prop} {c₀ : Cluster} {call : Call}
    {s : Cluster × Memory} (h : Rollouts a may c₀ s.1 s.2) (hm : may call s.2 s.1) :
    Rollouts a may c₀ (after a call s).1 (after a call s).2 :=
  .ended h hm (ends_run serve_kubectl _ _)

def exampleAdapter : KubernetesAdapter where
  project := "Acme"
  environment := "staging"
  service := "odoo"
  nginx := false
  namespace_name := "odoo-acme-staging"
  project_name := "acme"
  environment_name := "staging"
  workload := "odoo"
  project_named := by decide +kernel
  environment_named := by decide +kernel
  workload_named := by decide +kernel

/-- Only the canonical resources have been applied. -/
def steadyCluster : Cluster :=
  (render_kubernetes_resources exampleAdapter).foldl Cluster.apply fun _ _ => none

def exampleBegin : Call := .begin .blue_green "abcdef0123456789abcdef" 10

def begun : Cluster × Memory := after exampleAdapter exampleBegin (steadyCluster, none)

def promoted : Cluster × Memory := after exampleAdapter .promote begun

theorem steadyCluster_pods : CandidatePods steadyCluster :=
  candidatePods_foldl (fun _ _ h => by cases h) uniform_canonical

theorem exists_of_any {mem : Memory} {p : RolloutState → Prop} [DecidablePred p]
    (h : mem.any (fun st => decide (p st)) = true) : ∃ st, mem = some st ∧ p st := by
  cases mem with
  | none => cases h
  | some st => exact ⟨st, rfl, of_decide_eq_true h⟩

theorem begun_state : ∃ st, begun.2 = some st ∧ st.promoted = false ∧
    st.candidate_workload = some "odoo-abcdef01" ∧
    st.candidate_selector = some (candidate_selector exampleAdapter "abcdef0123456789abcdef") ∧
    st.previous_selector = canonical_selector exampleAdapter :=
  exists_of_any (by decide +kernel)

theorem promoted_state : ∃ st, promoted.2 = some st ∧ st.promoted = true ∧
    st.previous_selector[REVISION_LABEL]? = none :=
  exists_of_any (by decide +kernel)

theorem begun_reached {may : Call → Memory → Cluster → Prop}
    (hm : may exampleBegin none steadyCluster) :
    Rollouts exampleAdapter may steadyCluster begun.1 begun.2 :=
  rollouts_after (s := (steadyCluster, none)) .start hm

/-- The promotion's patch adds the revision key, and neither way back removes it: the
stable Service selects no pod at all. -/
theorem rollout_keeps_candidate_revision :
    CandidatePods steadyCluster ∧
    Rollouts exampleAdapter (fun call mem _ => Allowed call mem) steadyCluster
      promoted.1 promoted.2 ∧
    ∀ call, call = .rollback ∨ call = .finalize → Allowed call promoted.2 ∧
      ∃ m t, Ends kubectl promoted.1 (call.body exampleAdapter promoted.2) (.ok m) t ∧
        ¬ Converged exampleAdapter call promoted.2 t := by
  have hbegin : Allowed exampleBegin none := ⟨rfl, .inl rfl⟩
  obtain ⟨b, hb, hb_unpromoted, -⟩ := begun_state
  obtain ⟨st, hst, hpromoted, hprevious⟩ := promoted_state
  have hpromote : Allowed .promote begun.2 := ⟨b, hb, hb_unpromoted⟩
  refine ⟨steadyCluster_pods, rollouts_after (begun_reached hbegin) hpromote, ?_⟩
  intro call hcall
  have hallowed : Allowed call promoted.2 := by
    rcases hcall with rfl | rfl
    · exact ⟨st, hst⟩
    · exact ⟨st, hst, hpromoted⟩
  have hruns : ((call.body exampleAdapter promoted.2).run serve promoted.1).1.toBool = true ∧
      (((call.body exampleAdapter promoted.2).run serve promoted.1).2 .Service "odoo").all
        (fun svc => decide (svc.selector[REVISION_LABEL]? ≠ none)) = true := by
    rcases hcall with rfl | rfl <;> decide +kernel
  have hends := ends_run serve_kubectl (call.body exampleAdapter promoted.2) promoted.1
  revert hruns hends
  generalize (call.body exampleAdapter promoted.2).run serve promoted.1 = ending
  rintro ⟨hok, hkey⟩ hends
  obtain ⟨e | m, t⟩ := ending
  · cases hok
  refine ⟨hallowed, m, t, hends, ?_⟩
  have hdiffers : ∀ selector : Labels, selector[REVISION_LABEL]? = none →
      ¬ ∃ svc, t .Service "odoo" = some svc ∧ svc.selector = selector := by
    rintro selector hnone ⟨svc, hsvc, rfl⟩
    simp only [hsvc] at hkey
    exact of_decide_eq_true hkey hnone
  rcases hcall with rfl | rfl
  · rw [hst]
    exact hdiffers _ hprevious
  · rw [hst]
    exact hdiffers _ (by decide +kernel)

/-- A rollout that was begun and not promoted is rolled back. -/
theorem rollouts_keep_traffic_unpromoted :
    Converged exampleAdapter .rollback begun.2 (after exampleAdapter .rollback begun).1 := by
  have hends := ends_run serve_kubectl (Call.rollback.body exampleAdapter begun.2) begun.1
  have hruns : ((Call.rollback.body exampleAdapter begun.2).run serve begun.1).1.toBool = true := by
    decide +kernel
  obtain ⟨m, hm⟩ : ∃ m, ((Call.rollback.body exampleAdapter begun.2).run serve begun.1).1 = .ok m := by
    cases h : ((Call.rollback.body exampleAdapter begun.2).run serve begun.1).1 with
    | error e =>
      rw [h] at hruns
      cases hruns
    | ok m => exact ⟨m, rfl⟩
  rw [hm] at hends
  have hbegin : Orderly exampleAdapter exampleBegin none steadyCluster :=
    ⟨⟨rfl, .inl rfl⟩, trivial⟩
  obtain ⟨st, hst, hunpromoted, hcandidate, hselector, hprevious⟩ := begun_state
  have hmay : Orderly exampleAdapter .rollback begun.2 begun.1 := by
    refine ⟨⟨st, hst⟩, ?_⟩
    rw [hst]
    have hlive : (begun.1 .Service "odoo").all
        (fun svc => decide (svc.selector[COMPONENT_LABEL]? = some "odoo")) = true := by
      decide +kernel
    have hpods : (begun.1 .Deployment "odoo-abcdef01").all
        (fun o => decide (o.template_labels[COMPONENT_LABEL]? = some "odoo-candidate")) = true := by
      decide +kernel
    constructor
    · intro svc hsvc
      have hodoo : svc.selector[COMPONENT_LABEL]? = some "odoo" := by
        have hsvc : begun.1 .Service "odoo" = some svc := hsvc
        rw [hsvc] at hlive
        exact of_decide_eq_true hlive
      rw [Revertible, hunpromoted, if_neg (by decide)]
      intro selector hs hmatches
      obtain rfl := Option.some.inj (hselector.symm.trans hs)
      have hcandidate := hmatches COMPONENT_LABEL "odoo-candidate" (by decide +kernel)
      exact absurd (hodoo.symm.trans hcandidate) (by decide)
    · intro candidate hc
      obtain rfl := Option.some.inj (hcandidate.symm.trans hc)
      rintro ⟨o, ho, hselects, -⟩
      rw [ho] at hpods
      rw [hprevious] at hselects
      have hodoo := hselects.2 COMPONENT_LABEL "odoo" (by decide +kernel)
      exact absurd (hodoo.symm.trans (of_decide_eq_true hpods)) (by decide)
  exact (rollouts_keep_traffic steadyCluster_pods (begun_reached hbegin) hmay).1 m _ hends

end KubernetesRolloutSafety
