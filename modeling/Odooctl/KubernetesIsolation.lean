import Odooctl.KubernetesFleet
import Odooctl.InterleavedPrograms

/-!
# Isolation of the environments of a cluster

No call for one environment mutates what the adapter of another created, exactly where
their Kubernetes names differ; while calls overlap in time, exactly where their namespaces
differ. The invariant is that an object carries the labels of its creator and lies in a
namespace that carries them too.
-/
namespace KubernetesIsolation

open EffectPrograms MergeSemantics KubernetesRollout KubernetesRolloutSafety ProjectConfiguration
open KubernetesFleet InterleavedPrograms

/-- No call for an environment mutates what was created for another, in any sequence of
calls. -/
def Isolated (cfg : ConfigFields) : Prop :=
  ∀ s₀ s, Initial cfg s₀ → Serial cfg s₀ s → ∀ a, Serves cfg a → ∀ call t o k,
    Steps (fleet a) s (body a call) t (.call o k) → Spares a o t

/-- Nor in any interleaving of any number of calls. -/
def IsolatedOverlapped (cfg : ConfigFields) : Prop :=
  ∀ (ι : Type) [DecidableEq ι] (who : ι → KubernetesAdapter) (calls : ι → AdapterCall),
    (∀ i, Serves cfg (who i)) → ∀ s₀ s qs, Initial cfg s₀ →
      Interleaved (fun i => fleet (who i)) s₀ (fun i => body (who i) (calls i)) s qs →
      ∀ i o k, qs i = .call o k → Spares (who i) o s

/-- `kubernetes_name` tells the environments apart. -/
def NamesDiffer (cfg : ConfigFields) : Prop :=
  ∀ a b, Serves cfg a → Serves cfg b → a.environment ≠ b.environment →
    a.environment_name ≠ b.environment_name

def NamespacesDiffer (cfg : ConfigFields) : Prop :=
  ∀ a b, Serves cfg a → Serves cfg b → a.environment ≠ b.environment →
    a.namespace_name ≠ b.namespace_name

variable {cfg : ConfigFields} {a b : KubernetesAdapter} {c t : Cluster} {s u : Fleet}
  {α β : Type}

/-! ## What a command touches -/

/-- The command touches only what carries the labels of the environment. What it applies
carries them, in a namespace where something does. -/
def Lawful (a : KubernetesAdapter) (o : KubectlCall) (c : Cluster) : Prop :=
  match o with
  | .apply resources =>
    (∀ r ∈ resources, Bears a r.labels ∧ ∀ x, c r.kind r.name = some x → Bears a x.labels) ∧
    ((∃ kind name x, c kind name = some x ∧ Bears a x.labels) ∨
      ∃ r ∈ resources, r.kind = .Namespace ∧ r.name = a.namespace_name)
  | .delete .Namespace _ => ∃ x, c .Namespace a.namespace_name = some x ∧ Bears a x.labels
  | o => ∀ kind name x, Mutates o kind name → c kind name = some x → Bears a x.labels

/-- Every command of the program is lawful where it is issued. -/
def Safe (a : KubernetesAdapter) (p : KubeM α) : Prop :=
  ∀ c, wp kubectl (Lawful a) p (fun _ _ => True) c

theorem safe_pure (x : α) : Safe a (.pure x) := fun _ => trivial

theorem safe_raise (e : RolloutError) : Safe a (.raise e : KubeM α) := fun _ => trivial

theorem safe_ofExcept (r : Except RolloutError α) : Safe a (.ofExcept r) :=
  fun _ => wp_ofExcept.mpr trivial

theorem safe_bind {p : KubeM α} {f : α → KubeM β} (h : Safe a p) (hf : ∀ x, Safe a (f x)) :
    Safe a (p >>= f) := by
  intro c
  apply wp_bind'.mpr
  refine wp_post (h c) fun r t _ => ?_
  cases r with
  | ok x => exact hf x t
  | error e => trivial

theorem safe_mapError {p : KubeM α} {f : RolloutError → RolloutError} (h : Safe a p) :
    Safe a (p.mapError f) := fun c => wp_mapError.mpr (wp_post (h c) fun _ _ _ => trivial)

theorem safe_ite {q : Prop} [Decidable q] {p p' : KubeM α} (h : Safe a p) (h' : Safe a p') :
    Safe a (if q then p else p') := by
  split
  · exact h
  · exact h'

theorem wp_perform_lawful {o : KubectlCall} {reply : o.Answer → Except RolloutError α}
    (h : Lawful a o c) :
    wp kubectl (Lawful a) (.perform (F := Kubectl) o reply) (fun _ _ => True) c :=
  wp_perform.mpr ⟨h, fun _ _ _ => trivial⟩

theorem safe_status {deployment : String} : Safe a (rollout_status deployment) :=
  fun _ => wp_perform_lawful fun _ _ _ h => h.elim

theorem safe_write {stem : String} : Safe a (write_manifest stem) :=
  fun _ => wp_perform_lawful fun _ _ _ h => h.elim

theorem safe_named_bind {value : String} {f : String → KubeM α}
    (hf : ∀ name, kubernetes_name value = .ok name → Safe a (f name)) :
    Safe a (named (kubernetes_name value) >>= f) := by
  cases hname : kubernetes_name value with
  | error e => exact fun _ => trivial
  | ok name => exact hf name hname

theorem bears_of_owned {expected : Dict} {x : Object} (h : Owned expected x)
    (hproject : (PROJECT_LABEL, a.project_name) ∈ expected)
    (henvironment : (ENVIRONMENT_LABEL, a.environment_name) ∈ expected) : Bears a x.labels :=
  ⟨h _ _ hproject, h _ _ henvironment⟩

theorem bears_odoo {x : Object} {component : String} (h : Owned (a.labels component) x) :
    Bears a x.labels := by
  apply bears_of_owned h
  · simp [KubernetesAdapter.labels]
  · simp [KubernetesAdapter.labels]

theorem bears_candidate {x : Object} {revision : String}
    (h : Owned (candidate_labels a revision) x) : Bears a x.labels := by
  apply bears_of_owned h
  · simp [candidate_labels, KubernetesAdapter.labels]
  · simp [candidate_labels, KubernetesAdapter.labels]

/-- What is done after an ownership check may rely on it. -/
theorem safe_check_bind {kind : Kind} {name : String} {absent_ok : Bool} {expected : Dict}
    {f : Bool → KubeM α}
    (hf : ∀ c found, Checked expected absent_ok (c kind name) found →
      wp kubectl (Lawful a) (f found) (fun _ _ => True) c) :
    Safe a (assert_owned_or_absent kind name absent_ok expected >>= f) := by
  intro c
  apply wp_bind'.mpr
  apply wp_assert_owned
  · exact fun _ _ _ h => h.elim
  · exact fun found hfound => hf c found hfound
  · exact fun _ _ => trivial

theorem labels_bear (component : String) : Bears a (a.labels component).labels := by
  have hd : ((a.labels component).map Prod.fst).Nodup := by
    simp only [KubernetesAdapter.labels, List.map]
    decide
  constructor
  · exact getElem?_labels hd (by simp [KubernetesAdapter.labels])
  · exact getElem?_labels hd (by simp [KubernetesAdapter.labels])

theorem candidate_labels_bear (revision : String) : Bears a (candidate_labels a revision).labels := by
  have hd : ((candidate_labels a revision).map Prod.fst).Nodup := by
    simp only [candidate_labels, KubernetesAdapter.labels, List.map, List.cons_append,
      List.nil_append]
    decide
  constructor
  · exact getElem?_labels hd (by simp [candidate_labels, KubernetesAdapter.labels])
  · exact getElem?_labels hd (by simp [candidate_labels, KubernetesAdapter.labels])

/-! ## Every call is safe -/

/-- The canonical resources are those whose identities are checked, the Namespace among them. -/
theorem canonical_resource {r : Resource} (h : r ∈ render_kubernetes_resources a) :
    r.labels = (a.labels "odoo").labels ∧ (r.kind, r.name) ∈ resource_identities a := by
  simp only [render_kubernetes_resources, List.mem_cons, List.not_mem_nil, or_false] at h
  rcases h with rfl | rfl | rfl | rfl | rfl <;> simp [resource_identities]

theorem lawful_canonical
    (h : ∀ i ∈ resource_identities a, ∀ o, c i.1 i.2 = some o → Owned (a.labels "odoo") o) :
    Lawful a (.apply (render_kubernetes_resources a)) c := by
  constructor
  · intro r hr
    obtain ⟨hlabels, hid⟩ := canonical_resource hr
    constructor
    · rw [hlabels]
      exact labels_bear "odoo"
    · exact fun x hx => bears_odoo (h _ hid x hx)
  · exact .inr ⟨_, List.mem_cons_self, rfl, rfl⟩

theorem safe_up {workload : String} : Safe a (up a workload) := by
  intro c
  rw [up]
  apply wp_bind'.mpr
  apply wp_assert_all_owned
  · exact fun _ _ _ _ _ h => h.elim
  swap
  · exact fun _ _ => trivial
  intro hall
  apply wp_bind'.mpr
  refine wp_perform.mpr ⟨fun _ _ _ h => h.elim, fun r t hw => ?_⟩
  obtain rfl : t = c := hw
  cases raised r with
  | error e => trivial
  | ok path =>
    apply wp_bind'.mpr
    refine wp_post (wp_perform_lawful (lawful_canonical hall)) fun r u _ => ?_
    cases r with
    | error e => trivial
    | ok x => exact safe_named_bind (fun _ _ => safe_status) u

/-- A Kubernetes name is checked as itself. -/
theorem safe_workload_bind {name : String} {f : Unit → KubeM α}
    (hname : kubernetes_name name = .ok name)
    (hf : ∀ c x, c .Deployment name = some x → Bears a x.labels →
      wp kubectl (Lawful a) (f ()) (fun _ _ => True) c) :
    Safe a (assert_workload_owned a name >>= f) := by
  intro c
  apply wp_bind'.mpr
  rw [assert_workload_owned, hname]
  apply wp_bind'.mpr
  refine wp_ofExcept.mpr (wp_bind'.mpr ?_)
  apply wp_assert_owned
  · exact fun _ _ _ h => h.elim
  · intro found hfound
    cases hx : c .Deployment name with
    | none =>
      rw [hx] at hfound
      exact absurd hfound.2 (by decide)
    | some x =>
      rw [hx] at hfound
      exact hf c x hx (bears_odoo hfound.2)
  · exact fun _ _ => trivial

theorem lawful_deployment {o : KubectlCall} {name : String} {x : Object}
    (hlawful : Lawful a o c ↔ ∀ kind n y, kind = Kind.Deployment ∧ n = name →
      c kind n = some y → Bears a y.labels)
    (hx : c .Deployment name = some x) (hbears : Bears a x.labels) : Lawful a o c := by
  rw [hlawful]
  rintro kind n y ⟨rfl, rfl⟩ hy
  cases hx.symm.trans hy
  exact hbears

theorem safe_restart {workload : String} : Safe a (restart a workload) := by
  refine safe_named_bind fun name hname => ?_
  refine safe_workload_bind (kubernetes_name_idem hname) fun c x hx hbears => ?_
  apply wp_bind'.mpr
  refine wp_post (wp_perform_lawful (lawful_deployment Iff.rfl hx hbears)) fun r t _ => ?_
  cases r with
  | error e => trivial
  | ok _ => exact safe_status t

theorem safe_delete {workload : Option String} : Safe a (KubernetesRollout.delete a workload) := by
  refine safe_ite ?_ ?_
  · refine safe_named_bind fun name hname => ?_
    refine safe_workload_bind (kubernetes_name_idem hname) fun c x hx hbears => ?_
    exact wp_perform_lawful (lawful_deployment Iff.rfl hx hbears)
  · refine safe_check_bind fun c found hfound => ?_
    cases hx : c .Namespace a.namespace_name with
    | none =>
      rw [hx] at hfound
      obtain ⟨rfl, -⟩ := hfound
      trivial
    | some x =>
      rw [hx] at hfound
      obtain ⟨rfl, howned⟩ := hfound
      exact wp_perform_lawful ⟨x, hx, bears_odoo howned⟩

theorem safe_patch {workload : String} {selector : Labels} :
    Safe a (patch_service_selector a workload selector) := by
  refine safe_check_bind fun c found hfound => wp_perform_lawful ?_
  rintro kind n y ⟨rfl, rfl⟩ hy
  rw [hy] at hfound
  exact bears_odoo hfound.2

theorem safe_delete_if_owned {revision candidate : String} {kind : Kind} (hkind : kind ≠ .Namespace) :
    Safe a (delete_if_owned (candidate_labels a revision) candidate kind) := by
  refine safe_check_bind fun c found hfound => ?_
  cases found with
  | false => trivial
  | true =>
    refine wp_perform_lawful ?_
    have howned : ∀ k n y, k = kind ∧ n = candidate → c k n = some y → Bears a y.labels := by
      rintro k n y ⟨rfl, rfl⟩ hy
      rw [hy] at hfound
      exact bears_candidate hfound.2
    cases kind with
    | Namespace => exact absurd rfl hkind
    | PersistentVolumeClaim | Deployment | Service | Ingress => exact howned

theorem safe_delete_owned {revision candidate : String} {kinds : List Kind}
    (hkinds : Kind.Namespace ∉ kinds) :
    Safe a (delete_owned (candidate_labels a revision) candidate kinds) := by
  induction kinds with
  | nil => exact safe_pure ()
  | cons kind kinds ih =>
    have hkind : kind ≠ .Namespace := fun he => hkinds (he ▸ List.mem_cons_self)
    exact safe_bind (safe_delete_if_owned hkind) fun _ =>
      ih fun hm => hkinds (List.mem_cons_of_mem _ hm)

theorem safe_delete_candidate {st : RolloutState} : Safe a (delete_candidate a st) := by
  unfold delete_candidate
  split
  · exact safe_pure ()
  · apply safe_delete_owned
    split <;> decide

theorem safe_promote {st : RolloutState} : Safe a (promote_rollout a st) := by
  unfold promote_rollout
  split
  · exact safe_pure _
  · split
    · exact safe_raise _
    · exact safe_bind safe_patch fun _ => safe_pure _

theorem safe_finalize {st : RolloutState} : Safe a (finalize_rollout a st) := by
  unfold finalize_rollout
  split
  · exact safe_pure ()
  · exact safe_bind safe_up fun _ => safe_delete_candidate

theorem safe_rollback (rollout : Rollout) : Safe a (rollback_rollout a rollout.state) := by
  obtain ⟨workload, hworkload⟩ := rollout.named
  refine safe_ite ?_ ?_
  · refine safe_workload_bind (kubernetes_name_idem hworkload) fun c x hx hbears => ?_
    apply wp_bind'.mpr
    refine wp_post (wp_perform_lawful (lawful_deployment Iff.rfl hx hbears)) fun r t _ => ?_
    cases r with
    | error e => trivial
    | ok _ => exact safe_status t
  · split
    · refine safe_bind ?_ fun _ => safe_delete_candidate
      exact safe_ite safe_patch (safe_pure ())
    · exact safe_restart

theorem candidate_resource {candidate revision : String} {strategy : RolloutStrategy} {n : ℕ}
    {r : Resource} (h : r ∈ candidate_resources a candidate revision strategy n) :
    r.labels = (candidate_labels a revision).labels := by
  unfold candidate_resources at h
  split at h
  · simp only [List.cons_append, List.nil_append, List.mem_cons, List.not_mem_nil, or_false] at h
    rcases h with rfl | rfl | rfl <;> rfl
  · simp only [List.mem_cons, List.not_mem_nil, or_false] at h
    rcases h with rfl | rfl <;> rfl

/-- Beside something that carries the labels, candidates are applied lawfully. -/
theorem wp_apply_candidate {candidate revision : String} {strategy : RolloutStrategy} {n : ℕ}
    (hservice : ∃ kind name x, c kind name = some x ∧ Bears a x.labels) :
    wp kubectl (Lawful a) (apply_rollout_resources candidate
      (candidate_resources a candidate revision strategy n) (candidate_labels a revision))
      (fun _ _ => True) c := by
  rw [apply_rollout_resources]
  apply wp_bind'.mpr
  apply wp_assert_all_owned
  · exact fun _ _ _ _ _ h => h.elim
  swap
  · exact fun _ _ => trivial
  intro hall
  apply wp_bind'.mpr
  refine wp_perform.mpr ⟨fun _ _ _ h => h.elim, fun r t hw => ?_⟩
  obtain rfl : t = c := hw
  cases raised r with
  | error e => trivial
  | ok path =>
    apply wp_bind'.mpr
    refine wp_post (wp_perform_lawful ⟨fun r hr => ⟨?_, fun x hx => ?_⟩, .inl hservice⟩)
      fun r u _ => by cases r <;> trivial
    · rw [candidate_resource hr]
      exact candidate_labels_bear revision
    · exact bears_candidate (hall _ (List.mem_map.mpr ⟨r, hr, rfl⟩) x hx)

theorem safe_begin_progressive {name revision : String} {strategy : RolloutStrategy} {n : ℕ} :
    Safe a (begin_progressive a name strategy revision n) := by
  intro c
  rw [begin_progressive]
  apply wp_bind'.mpr
  rw [service_selector]
  apply wp_bind'.mpr
  apply wp_assert_owned
  · exact fun _ _ _ h => h.elim
  swap
  · exact fun _ _ => trivial
  intro found hfound
  have hservice : ∃ kind name x, c kind name = some x ∧ Bears a x.labels := by
    cases hx : c .Service name with
    | none =>
      rw [hx] at hfound
      exact absurd hfound.2 (by decide)
    | some x =>
      rw [hx] at hfound
      exact ⟨_, _, x, hx, bears_odoo hfound.2⟩
  refine wp_perform.mpr ⟨fun _ _ _ h => h.elim, fun r t hw => ?_⟩
  obtain rfl : t = c := hw.1
  cases readSelector name r with
  | error e => trivial
  | ok previous_selector =>
    apply wp_bind'.mpr
    refine wp_ofExcept.mpr ?_
    cases kubernetes_name (name ++ "-" ++ shortRevision revision 8) with
    | error e => trivial
    | ok candidate =>
      apply wp_bind'.mpr
      refine wp_mapError.mpr (wp_post (wp_apply_candidate hservice) fun r t _ => ?_)
      cases r with
      | error e => trivial
      | ok manifest =>
        exact safe_bind (safe_mapError safe_status) (fun _ => safe_pure _) t

theorem safe_begin {workload revision : String} {strategy : RolloutStrategy} {n : ℕ} :
    Safe a (begin_rollout a workload strategy revision n) := by
  refine safe_ite (safe_raise _) (safe_named_bind fun name _ => ?_)
  exact safe_ite (safe_bind (safe_mapError safe_up) fun _ => safe_pure _) safe_begin_progressive

theorem safe_body (call : AdapterCall) : Safe a (body a call) := by
  cases call with
  | up workload => exact safe_up
  | begin_rollout workload strategy revision n =>
    exact safe_bind safe_begin fun _ => safe_pure ()
  | promote_rollout rollout => exact safe_bind safe_promote fun _ => safe_pure ()
  | finalize_rollout rollout => exact safe_finalize
  | rollback_rollout rollout => exact safe_rollback rollout
  | restart workload => exact safe_restart
  | delete workload => exact safe_delete

section Recorded

variable {W : World Kubectl Cluster} {name : String}

theorem plain_service_selector :
    wp W (fun _ _ => True) (service_selector a name) (fun r _ => Plain r) c := by
  rw [service_selector]
  apply wp_bind'.mpr
  refine wp_perform.mpr ⟨trivial, fun r t _ => ?_⟩
  cases hr : ownership .Service name false (a.labels "odoo") r with
  | error e => exact fun m s h => ownership_ne (hr.trans (congrArg Except.error (Except.error.inj h)))
  | ok found =>
    refine wp_perform.mpr ⟨trivial, fun r u _ m s h => ?_⟩
    rcases r with e | (_ | selector)
    · cases h
    · cases h
    · simp only [readSelector] at h
      split at h <;> cases h

/-- The rollouts that `begin_rollout` returns, or leaves with its exception. -/
theorem begin_rollout_named {workload revision : String} {strategy : RolloutStrategy} {n : ℕ} :
    wp W (fun _ _ => True) (begin_rollout a workload strategy revision n)
      (fun r _ => ∀ st, r = .ok st ∨ (∃ m, r = .error (.failed m st)) →
        ∃ w, kubernetes_name w = .ok st.workload) c := by
  unfold begin_rollout
  split
  · rintro st (h | ⟨m, h⟩) <;> cases h
  apply wp_bind'.mpr
  refine wp_ofExcept.mpr ?_
  cases hname : kubernetes_name workload with
  | error e => rintro st (h | ⟨m, h⟩) <;> cases h
  | ok name =>
    change wp W (fun _ _ => True) (if _ then _ else _) _ _
    split
    · apply wp_bind'.mpr
      refine wp_mapError.mpr (wp_post (wp_true _ _) fun r t _ => ?_)
      cases r with
      | error e => rintro st (h | ⟨m, h⟩) <;> cases h; exact ⟨workload, hname⟩
      | ok _ => rintro st (h | ⟨m, h⟩) <;> cases h; exact ⟨workload, hname⟩
    · rw [begin_progressive]
      apply wp_bind'.mpr
      refine wp_post plain_service_selector fun r t hplain => ?_
      cases r with
      | error e =>
        rintro st (h | ⟨m, h⟩)
        · cases h
        · exact absurd (congrArg Except.error (Except.error.inj h)) (hplain m st)
      | ok previous_selector =>
        apply wp_bind'.mpr
        refine wp_ofExcept.mpr ?_
        cases kubernetes_name (name ++ "-" ++ shortRevision revision 8) with
        | error e => rintro st (h | ⟨m, h⟩) <;> cases h
        | ok candidate =>
          apply wp_bind'.mpr
          refine wp_mapError.mpr (wp_post (wp_true _ _) fun r t _ => ?_)
          cases r with
          | error e => rintro st (h | ⟨m, h⟩) <;> cases h; exact ⟨workload, hname⟩
          | ok manifest =>
            apply wp_bind'.mpr
            refine wp_mapError.mpr (wp_post (wp_true _ _) fun r t _ => ?_)
            cases r with
            | error e => rintro st (h | ⟨m, h⟩) <;> cases h; exact ⟨workload, hname⟩
            | ok _ => rintro st (h | ⟨m, h⟩) <;> cases h; exact ⟨workload, hname⟩

end Recorded

/-! ## What a lawful command leaves -/

/-- An object keeps its labels, or it carries those of the environment where it already
did or was not there. -/
def Relabelled (a : KubernetesAdapter) (c t : Cluster) : Prop :=
  ∀ kind name x, t kind name = some x →
    (Bears a x.labels ∧ ∀ y, c kind name = some y → Bears a y.labels) ∨
      ∃ y, c kind name = some y ∧ y.labels = x.labels

theorem relabelled_refl : Relabelled a c c := fun _ _ x hx => .inr ⟨x, hx, rfl⟩

theorem relabelled_set {kind : Kind} {name : String} {x y : Object} (hy : c kind name = some y)
    (hlabels : y.labels = x.labels) : Relabelled a c (c.set kind name (some x)) := by
  intro k n z hz
  by_cases hk : k = kind ∧ n = name
  · obtain ⟨rfl, rfl⟩ := hk
    rw [Cluster.set_self] at hz
    cases hz
    exact .inr ⟨y, hy, hlabels⟩
  · rw [Cluster.set_other _ _ hk] at hz
    exact .inr ⟨z, hz, rfl⟩

theorem bears_of_matches {x y : Labels} (h : Matches x y) (hx : Bears a x) : Bears a y :=
  ⟨h _ _ hx.1, h _ _ hx.2⟩

theorem relabelled_apply {r : Resource} (h : Relabelled a c t) (hr : Bears a r.labels)
    (hc : ∀ x, c r.kind r.name = some x → Bears a x.labels) : Relabelled a c (t.apply r) := by
  intro k n z hz
  by_cases hk : k = r.kind ∧ n = r.name
  · obtain ⟨rfl, rfl⟩ := hk
    rw [Cluster.apply, Cluster.set_self] at hz
    cases hz
    exact .inl ⟨bears_of_matches (matches_onto _).1 hr, hc⟩
  · rw [apply_other hk] at hz
    exact h k n z hz

theorem relabelled_foldl {rs : List Resource} (h : Relabelled a c t)
    (hr : ∀ r ∈ rs, Bears a r.labels ∧ ∀ x, c r.kind r.name = some x → Bears a x.labels) :
    Relabelled a c (rs.foldl Cluster.apply t) := by
  induction rs generalizing t with
  | nil => exact h
  | cons r rs ih =>
    obtain ⟨hbears, hc⟩ := hr r List.mem_cons_self
    exact ih (relabelled_apply h hbears hc) fun x hx => hr x (List.mem_cons_of_mem _ hx)

theorem lawful_relabelled {o : KubectlCall} {r : o.Answer} (h : Lawful a o c)
    (hw : kubectl o c r t) : Relabelled a c t := by
  cases o with
  | get kind name =>
    rw [hw.1]
    exact relabelled_refl
  | get_service name =>
    rw [hw.1]
    exact relabelled_refl
  | write_manifest | rollout_status | rollout_restart =>
    obtain rfl : t = c := hw
    exact relabelled_refl
  | apply rs =>
    rcases hw with ⟨-, rfl⟩ | ⟨-, done, hsub, rfl⟩
    · exact relabelled_foldl relabelled_refl h.1
    · exact relabelled_foldl relabelled_refl fun r hr => h.1 r (hsub.subset hr)
  | rollout_undo name =>
    rcases hw with rfl | ⟨x, labels, hx, rfl⟩
    · exact relabelled_refl
    · exact relabelled_set hx rfl
  | patch_service name selector =>
    rcases hw with hw | ⟨rfl, -⟩
    · obtain ⟨x, hx, rfl⟩ := Option.map_eq_some_iff.mp hw
      exact relabelled_set hx rfl
    · exact relabelled_refl
  | delete kind name =>
    rcases hw with hw | ⟨rfl, -⟩
    · obtain ⟨x, hx, rfl⟩ := Option.map_eq_some_iff.mp hw
      intro k n z hz
      split at hz
      · cases hz
      · by_cases hk : k = kind ∧ n = name
        · obtain ⟨rfl, rfl⟩ := hk
          rw [Cluster.set_self] at hz
          cases hz
        · rw [Cluster.set_other _ _ hk] at hz
          exact .inr ⟨z, hz, rfl⟩
    · exact relabelled_refl

/-! ## The invariant -/

structure Invariant (cfg : ConfigFields) (s : Fleet) : Prop where
  created : ∀ n kind name environment, s.creator n kind name = some environment →
    ∃ b x, Serves cfg b ∧ b.environment = environment ∧ s.cluster n kind name = some x ∧
      Bears b x.labels
  housed : ∀ n, Housed n (s.cluster n)
  labelled : ∀ n, Labelled cfg n (s.cluster n)

theorem invariant_initial (h : Initial cfg s) : Invariant cfg s := by
  constructor
  · intro n kind name environment hc
    rw [h.uncreated] at hc
    cases hc
  · exact h.housed
  · exact h.labelled

/-- Only its own labels name an environment. -/
theorem bears_eq (hnames : NamesDiffer cfg) (ha : Serves cfg a) (hb : Serves cfg b)
    {labels : Labels} (hbears : Bears a labels) (hbears' : Bears b labels) :
    b.environment = a.environment := by
  by_contra hne
  exact hnames b a hb ha hne (Option.some.inj (hbears'.2.symm.trans hbears.2))

theorem serves_eq (ha : Serves cfg a) (hb : Serves cfg b) (h : b.environment = a.environment) :
    b = a := by
  obtain ⟨p, -, ha⟩ := ha
  obtain ⟨q, -, hb⟩ := hb
  rw [(adapter_built ha).served, (adapter_built hb).served] at h
  rw [h] at hb
  exact Except.ok.inj (hb.symm.trans ha)

/-- A lawful command spares what other environments created. -/
theorem lawful_spares (hnames : NamesDiffer cfg) (ha : Serves cfg a) (hinv : Invariant cfg s)
    {o : KubectlCall} (h : Lawful a o (s.cluster a.namespace_name)) : Spares a o s := by
  intro kind name environment hmutates hcreator
  obtain ⟨b, x, hb, rfl, hx, hbears⟩ := hinv.created _ _ _ _ hcreator
  cases o with
  | get | get_service | write_manifest | rollout_status => exact hmutates.elim
  | apply rs =>
    obtain ⟨r, hr, rfl, rfl⟩ := hmutates
    exact bears_eq hnames ha hb ((h.1 r hr).2 x hx) hbears
  | rollout_undo | rollout_restart | patch_service =>
    exact bears_eq hnames ha hb (h _ _ x hmutates hx) hbears
  | delete deleted called =>
    cases deleted with
    | Namespace =>
      obtain ⟨y, hy, hyb⟩ := hinv.labelled _ _ _ x hx b hb hbears
      obtain ⟨z, hz, hza⟩ := h
      cases hy.symm.trans hz
      exact bears_eq hnames ha hb hza hyb
    | PersistentVolumeClaim | Deployment | Service | Ingress =>
      exact bears_eq hnames ha hb (h _ _ x hmutates hx) hbears

/-- A new object comes with a namespace of the environment, or into one. -/
theorem lawful_new {o : KubectlCall} {r : o.Answer} {kind : Kind} {name : String} {x : Object}
    (h : Lawful a o c) (hw : kubectl o c r t) (hc : c kind name = none) (ht : t kind name = some x) :
    (∃ kind name y, c kind name = some y ∧ Bears a y.labels) ∨
      ∀ y, c .Namespace a.namespace_name = some y → Bears a y.labels := by
  have hunchanged : t = c → False := by
    rintro rfl
    rw [hc] at ht
    cases ht
  have hset : ∀ {k n y z}, c k n = some y → t = c.set k n z → False := by
    rintro k n y z hy rfl
    by_cases hk : kind = k ∧ name = n
    · obtain ⟨rfl, rfl⟩ := hk
      rw [hc] at hy
      cases hy
    · rw [Cluster.set_other _ _ hk, hc] at ht
      cases ht
  cases o with
  | apply rs =>
    rcases h.2 with h' | ⟨r, hr, hkind, hname⟩
    · exact .inl h'
    · right
      rw [← hkind, ← hname]
      exact (h.1 r hr).2
  | get | get_service => exact (hunchanged hw.1).elim
  | write_manifest | rollout_status | rollout_restart => exact (hunchanged hw).elim
  | rollout_undo name =>
    rcases hw with hw | ⟨y, labels, hy, hw⟩
    · exact (hunchanged hw).elim
    · exact (hset hy hw).elim
  | patch_service name selector =>
    rcases hw with hw | ⟨hw, -⟩
    · obtain ⟨y, hy, hw⟩ := Option.map_eq_some_iff.mp hw
      exact (hset hy hw.symm).elim
    · exact (hunchanged hw).elim
  | delete deleted called =>
    rcases hw with hw | ⟨hw, -⟩
    · obtain ⟨y, hy, hw⟩ := Option.map_eq_some_iff.mp hw
      split at hw
      · rw [← hw] at ht
        cases ht
      · exact (hset hy hw.symm).elim
    · exact (hunchanged hw).elim

/-- The namespace of what carries the labels of `a` still does. -/
theorem namespace_bears {h : Object} (hrel : Relabelled a c t)
    (hold : ∀ y, c .Namespace a.namespace_name = some y → Bears a y.labels)
    (ht : t .Namespace a.namespace_name = some h) : Bears a h.labels := by
  rcases hrel _ _ h ht with ⟨hbears, -⟩ | ⟨y, hy, hlabels⟩
  · exact hbears
  · rw [← hlabels]
    exact hold y hy

theorem labelled_step (hnames : NamesDiffer cfg) (ha : Serves cfg a)
    (hc : Labelled cfg a.namespace_name c) (hhoused : Housed a.namespace_name t) {o : KubectlCall}
    {r : o.Answer} (h : Lawful a o c) (hw : kubectl o c r t) : Labelled cfg a.namespace_name t := by
  intro kind name x hx b hb hbears
  have hrel := lawful_relabelled h hw
  cases hns : t .Namespace a.namespace_name with
  | none =>
    rw [hhoused hns] at hx
    cases hx
  | some h' =>
  refine ⟨h', rfl, ?_⟩
  -- what carries the labels of `a` in `c` has its namespace there
  have hlives : ∀ k n y, c k n = some y → Bears a y.labels → Bears a h'.labels := by
    intro k n y hy hay
    obtain ⟨z, hz, haz⟩ := hc k n y hy a ha hay
    apply namespace_bears hrel _ hns
    intro w hw'
    cases hz.symm.trans hw'
    exact haz
  rcases hrel kind name x hx with ⟨hax, hay⟩ | ⟨y, hy, hlabels⟩
  · obtain rfl := serves_eq ha hb (bears_eq hnames ha hb hax hbears)
    cases hy : c kind name with
    | some y => exact hlives _ _ y hy (hay y hy)
    | none =>
      rcases lawful_new h hw hy hx with ⟨k, n, z, hz, hbz⟩ | hold
      · exact hlives k n z hz hbz
      · exact namespace_bears hrel hold hns
  · rw [← hlabels] at hbears
    obtain ⟨z, hz, hbz⟩ := hc kind name y hy b hb hbears
    rcases hrel _ _ h' hns with ⟨hah, haz⟩ | ⟨w, hw', hlabels'⟩
    · obtain rfl := serves_eq ha hb (bears_eq hnames ha hb (haz z hz) hbz)
      exact hah
    · cases hz.symm.trans hw'
      rw [← hlabels']
      exact hbz

theorem invariant_step (hnames : NamesDiffer cfg) (ha : Serves cfg a) (hinv : Invariant cfg s)
    {o : KubectlCall} {r : o.Answer} (h : Lawful a o (s.cluster a.namespace_name))
    (hw : fleet a o s r u) : Invariant cfg u := by
  obtain ⟨hk, hhoused, hcreator, hothers⟩ := hw
  have hrel := lawful_relabelled h hk
  constructor
  · intro n kind name environment hc
    by_cases hn : n = a.namespace_name
    · subst hn
      rw [hcreator] at hc
      cases hold : s.cluster a.namespace_name kind name with
      | none =>
        cases hnew : u.cluster a.namespace_name kind name with
        | none =>
          simp only [record, hold, hnew] at hc
          obtain ⟨b, x, -, -, hx, -⟩ := hinv.created _ _ _ _ hc
          rw [hold] at hx
          cases hx
        | some x =>
          simp only [record, hold, hnew] at hc
          refine ⟨a, x, ha, Option.some.inj hc, rfl, ?_⟩
          rcases hrel kind name x hnew with ⟨hbears, -⟩ | ⟨y, hy, -⟩
          · exact hbears
          · rw [hold] at hy
            cases hy
      | some y =>
        cases hnew : u.cluster a.namespace_name kind name with
        | none =>
          simp only [record, hold, hnew] at hc
          cases hc
        | some x =>
          simp only [record, hold, hnew] at hc
          obtain ⟨b, z, hb, rfl, hz, hbears⟩ := hinv.created _ _ _ _ hc
          refine ⟨b, x, hb, rfl, rfl, ?_⟩
          rcases hrel kind name x hnew with ⟨hax, haz⟩ | ⟨w, hw, hlabels⟩
          · obtain rfl := serves_eq ha hb (bears_eq hnames ha hb (haz z hz) hbears)
            exact hax
          · cases hz.symm.trans hw
            rw [← hlabels]
            exact hbears
    · obtain ⟨hcluster, hcreator⟩ := hothers n hn
      rw [hcreator] at hc
      rw [hcluster]
      exact hinv.created n kind name environment hc
  · intro n
    by_cases hn : n = a.namespace_name
    · subst hn
      exact hhoused
    · rw [(hothers n hn).1]
      exact hinv.housed n
  · intro n
    by_cases hn : n = a.namespace_name
    · subst hn
      exact labelled_step hnames ha (hinv.labelled _) hhoused h hk
    · rw [(hothers n hn).1]
      exact hinv.labelled n

/-- A run of safe commands keeps the invariant and stays safe. -/
theorem steps_invariant (hnames : NamesDiffer cfg) (ha : Serves cfg a) {p q : KubeM α}
    (h : Steps (fleet a) s p u q) (hinv : Invariant cfg s)
    (hp : wp kubectl (Lawful a) p (fun _ _ => True) (s.cluster a.namespace_name)) :
    Invariant cfg u ∧
      wp kubectl (Lawful a) q (fun _ _ => True) (u.cluster a.namespace_name) := by
  induction h with
  | refl => exact ⟨hinv, hp⟩
  | call hw _ ih => exact ih (invariant_step hnames ha hinv hp.1 hw) (hp.2 _ _ hw.1)

theorem serial_invariant {s₀ : Fleet} (hnames : NamesDiffer cfg) (hinit : Initial cfg s₀)
    (h : Serial cfg s₀ s) : Invariant cfg s := by
  induction h with
  | start => exact invariant_initial hinit
  | call call _ ha hsteps ih =>
    exact (steps_invariant hnames ha hsteps ih (safe_body call _)).1

theorem isolated_of_names (hnames : NamesDiffer cfg) : Isolated cfg := by
  intro s₀ s hinit hserial a ha call t o k hsteps
  have hinv := serial_invariant hnames hinit hserial
  obtain ⟨hinv, hlawful, -⟩ := steps_invariant hnames ha hsteps hinv (safe_body call _)
  exact lawful_spares hnames ha hinv hlawful

/-! ## Calls that overlap -/

/-- Whoever created something has the namespace it is in. -/
def Local (cfg : ConfigFields) (s : Fleet) : Prop :=
  ∀ n kind name environment, s.creator n kind name = some environment →
    ∃ b, Serves cfg b ∧ b.environment = environment ∧ b.namespace_name = n

theorem local_step (ha : Serves cfg a) (h : Local cfg s) {o : KubectlCall} {r : o.Answer}
    (hw : fleet a o s r u) : Local cfg u := by
  obtain ⟨-, -, hcreator, hothers⟩ := hw
  intro n kind name environment hc
  by_cases hn : n = a.namespace_name
  · subst hn
    rw [hcreator] at hc
    unfold record at hc
    split at hc
    · exact ⟨a, ha, Option.some.inj hc, rfl⟩
    · cases hc
    · exact h _ _ _ _ hc
  · rw [(hothers n hn).2] at hc
    exact h n kind name environment hc

theorem interleaved_local {ι : Type} [DecidableEq ι] {who : ι → KubernetesAdapter}
    {ps qs : Pool (fun _ : ι => Kubectl) (fun _ => RolloutError) fun _ => Unit}
    (hwho : ∀ i, Serves cfg (who i)) (hs : Local cfg s)
    (h : Interleaved (fun i => fleet (who i)) s ps u qs) : Local cfg u := by
  induction h with
  | refl => exact hs
  | step i _ _ hw ih => exact local_step (hwho i) ih hw

theorem isolatedOverlapped_of_namespaces (h : NamespacesDiffer cfg) : IsolatedOverlapped cfg := by
  intro ι _ who calls hwho s₀ s qs hinit hrun i o k hcall kind name environment _ hcreator
  have hinit : Local cfg s₀ := by
    intro n kind name environment hc
    rw [hinit.uncreated] at hc
    cases hc
  obtain ⟨b, hb, rfl, hns⟩ := interleaved_local hwho hinit hrun _ _ _ _ hcreator
  by_contra hne
  exact h b (who i) hb (hwho i) hne hns

/-! ## Environments that are not told apart -/

def emptyFleet : Fleet := ⟨fun _ _ _ => none, fun _ _ _ => none⟩

theorem emptyFleet_initial : Initial cfg emptyFleet :=
  ⟨fun _ _ _ => rfl, fun _ _ _ _ => rfl, fun _ _ _ _ h => by cases h⟩

theorem record_self {environment : String} {creator : Kind → String → Option String} :
    record environment c c creator = creator := by
  funext kind name
  unfold record
  cases c kind name <;> rfl

theorem fleet_quiet {o : KubectlCall} {r : o.Answer} (hhoused : Housed a.namespace_name
    (s.cluster a.namespace_name))
    (h : kubectl o (s.cluster a.namespace_name) r (s.cluster a.namespace_name)) :
    fleet a o s r s := ⟨h, hhoused, record_self.symm, fun _ _ => ⟨rfl, rfl⟩⟩

theorem mismatches_of_owned {expected : Dict} {x : Object} (h : Owned expected x) :
    mismatches expected x.labels = [] := by
  apply List.filter_eq_nil_iff.mpr
  rintro ⟨key, value⟩ hm
  simpa using h key value hm

/-- Nothing is there, or what the check expects. -/
def Passable (expected : Dict) (o : Option Object) : Prop := ∀ x, o = some x → Owned expected x

theorem ownership_serve {expected : Dict} {kind : Kind} {name : String}
    (h : Passable expected (c kind name)) :
    ∃ found, ownership kind name true expected (serve (.get kind name) c).1 = .ok found := by
  cases hx : c kind name with
  | none =>
    refine ⟨false, ?_⟩
    have habsent : reports_absent "" "Error from server (NotFound): not found" = true := by
      decide +kernel
    simp [serve, hx, ownership, habsent]
  | some x =>
    refine ⟨true, ?_⟩
    simp [serve, hx, ownership, mismatches_of_owned (h x hx)]

theorem steps_assert_all {expected : Dict} {ids : List (Kind × String)} {f : Unit → KubeM α}
    (hhoused : Housed a.namespace_name (s.cluster a.namespace_name))
    (h : ∀ i ∈ ids, Passable expected (s.cluster a.namespace_name i.1 i.2)) :
    Steps (fleet a) s (assert_all_owned expected ids >>= f) s (f ()) := by
  induction ids with
  | nil => exact .refl _ _
  | cons i ids ih =>
    obtain ⟨kind, name⟩ := i
    obtain ⟨found, hfound⟩ := ownership_serve (h (kind, name) List.mem_cons_self)
    have hget := serve_kubectl (.get kind name) (s.cluster a.namespace_name)
    refine .call (fleet_quiet hhoused hget) ?_
    have hrest := ih fun i hi => h i (List.mem_cons_of_mem _ hi)
    have hgoes : ∀ r : Except RolloutError Bool, r = .ok found → Steps (fleet a) s
        (((Prog.ofExcept r).bind fun _ => assert_all_owned expected ids).bind f) s (f ()) := by
      rintro _ rfl
      exact hrest
    exact hgoes _ hfound

/-- `up` reaches its apply. -/
theorem steps_up (workload : String)
    (hhoused : Housed a.namespace_name (s.cluster a.namespace_name))
    (h : ∀ i ∈ resource_identities a,
      Passable (a.labels "odoo") (s.cluster a.namespace_name i.1 i.2)) :
    ∃ k, Steps (fleet a) s (up a workload) s
      (.call (KubectlCall.apply (render_kubernetes_resources a)) k) := by
  have hwrite : fleet a (.write_manifest "resources") s (.ok "resources.yaml") s :=
    fleet_quiet hhoused rfl
  exact ⟨_, (steps_assert_all hhoused h).trans (.call hwrite (.refl _ _))⟩

/-- The fleet after the adapter's first `up`. -/
def brought_up (a : KubernetesAdapter) : Fleet where
  cluster := Function.update emptyFleet.cluster a.namespace_name
    ((render_kubernetes_resources a).foldl Cluster.apply fun _ _ => none)
  creator := Function.update emptyFleet.creator a.namespace_name
    (record a.environment (fun _ _ => none)
      ((render_kubernetes_resources a).foldl Cluster.apply fun _ _ => none) fun _ _ => none)

theorem foldl_keeps {rs : List Resource} {labels : Labels} {kind : Kind} {name : String}
    (hrs : ∀ r ∈ rs, r.labels = labels)
    (h : ∃ x, c kind name = some x ∧ Matches labels x.labels) :
    ∃ x, rs.foldl Cluster.apply c kind name = some x ∧ Matches labels x.labels := by
  induction rs generalizing c with
  | nil => exact h
  | cons r rs ih =>
    refine ih (fun x hx => hrs x (List.mem_cons_of_mem _ hx)) ?_
    by_cases hk : kind = r.kind ∧ name = r.name
    · obtain ⟨rfl, rfl⟩ := hk
      refine ⟨_, Cluster.set_self _ _ _ _, ?_⟩
      rw [← hrs r List.mem_cons_self]
      exact (matches_onto _).1
    · rw [apply_other hk]
      exact h

theorem foldl_applied {rs : List Resource} {labels : Labels} {r : Resource} (hr : r ∈ rs)
    (hrs : ∀ r ∈ rs, r.labels = labels) :
    ∃ x, rs.foldl Cluster.apply c r.kind r.name = some x ∧ Matches labels x.labels := by
  induction rs generalizing c with
  | nil => cases hr
  | cons y rs ih =>
    have htail : ∀ r ∈ rs, r.labels = labels := fun x hx => hrs x (List.mem_cons_of_mem _ hx)
    rw [List.foldl_cons]
    rcases List.mem_cons.mp hr with rfl | hr
    · refine foldl_keeps htail ⟨_, Cluster.set_self _ _ _ _, ?_⟩
      rw [← hrs r List.mem_cons_self]
      exact (matches_onto _).1
    · exact ih hr htail

theorem canonical_applied {i : Kind × String} (hi : i ∈ resource_identities a) :
    ∃ x, (render_kubernetes_resources a).foldl Cluster.apply c i.1 i.2 = some x ∧
      Owned (a.labels "odoo") x := by
  have hr : ∃ r ∈ render_kubernetes_resources a, (r.kind, r.name) = i := by
    simp only [resource_identities, List.mem_cons, List.not_mem_nil, or_false] at hi
    rcases hi with rfl | rfl | rfl | rfl | rfl <;> simp [render_kubernetes_resources]
  obtain ⟨r, hr, rfl⟩ := hr
  obtain ⟨x, hx, hmatches⟩ := foldl_applied (c := c) hr fun r hr => (canonical_resource hr).1
  refine ⟨x, hx, ?_⟩
  intro key value hm
  apply hmatches
  apply getElem?_labels _ hm
  simp only [KubernetesAdapter.labels, List.map]
  decide

theorem steps_brought_up (workload : String) :
    ∃ q, Steps (fleet a) emptyFleet (up a workload) (brought_up a) q := by
  obtain ⟨k, hk⟩ := steps_up (a := a) (s := emptyFleet) workload (fun _ _ _ => rfl)
    fun i _ x hx => by cases hx
  refine ⟨k (.ok ()), hk.trans (.call ⟨.inl ⟨rfl, ?_⟩, ?_, ?_, ?_⟩ (.refl _ _))⟩
  · simp [brought_up, emptyFleet]
  · intro hnone
    obtain ⟨x, hx, -⟩ := canonical_applied (a := a) (c := fun _ _ => none)
      (i := (.Namespace, a.namespace_name)) (by simp [resource_identities])
    simp only [brought_up, Function.update_self] at hnone
    rw [hx] at hnone
    cases hnone
  · simp [brought_up, emptyFleet]
  · intro n hn
    simp [brought_up, Function.update_of_ne hn]

theorem brought_up_creator :
    (brought_up a).creator a.namespace_name .Namespace a.namespace_name = some a.environment := by
  obtain ⟨x, hx, -⟩ := canonical_applied (a := a) (c := fun _ _ => none)
    (i := (.Namespace, a.namespace_name)) (by simp [resource_identities])
  simp only [brought_up, Function.update_self, record, hx]

/-- `up` in a namespace that another adapter brought up. -/
theorem up_touches (hns : a.namespace_name = b.namespace_name) :
    ¬ (b.environment ≠ a.environment ∧
      Spares a (.apply (render_kubernetes_resources a)) (brought_up b)) := by
  rintro ⟨hne, hspares⟩
  refine hne (hspares .Namespace a.namespace_name b.environment ⟨_, List.mem_cons_self, rfl, rfl⟩ ?_)
  rw [hns]
  exact brought_up_creator

theorem names_of_isolated (h : Isolated cfg) : NamesDiffer cfg := by
  rintro a b ⟨p, hp, ha⟩ ⟨q, hq, hb⟩ hne heq
  obtain ⟨hproject, hworkload, hns⟩ := same_names ha hb heq
  obtain ⟨r, hr⟩ := steps_brought_up (a := b) (orElse none b.workload)
  have hserial : Serial cfg emptyFleet (brought_up b) := .call (.up none) .start ⟨q, hq, hb⟩ hr
  have hids : resource_identities a = resource_identities b := by
    simp [resource_identities, hns, hworkload]
  have hlabels : a.labels "odoo" = b.labels "odoo" := by
    simp [KubernetesAdapter.labels, hproject, heq]
  have hcluster : (brought_up b).cluster a.namespace_name =
      (render_kubernetes_resources b).foldl Cluster.apply fun _ _ => none := by
    simp [brought_up, hns]
  obtain ⟨k, hk⟩ := steps_up (a := a) (s := brought_up b) (orElse none a.workload)
    (by
      intro hnone
      obtain ⟨x, hx, -⟩ := canonical_applied (a := b) (c := fun _ _ => none)
        (i := (.Namespace, b.namespace_name)) (by simp [resource_identities])
      rw [hcluster, hns, hx] at hnone
      cases hnone)
    (by
      intro i hi x hx
      rw [hids] at hi
      obtain ⟨y, hy, howned⟩ := canonical_applied (a := b) (c := fun _ _ => none) hi
      rw [hcluster, hy] at hx
      cases hx
      rw [hlabels]
      exact howned)
  exact up_touches hns ⟨hne.symm, h _ _ emptyFleet_initial hserial a ⟨p, hp, ha⟩ (.up none) _ _ k hk⟩

theorem namespaces_of_isolatedOverlapped (h : IsolatedOverlapped cfg) : NamespacesDiffer cfg := by
  intro a b ha hb hne hns
  let who : Bool → KubernetesAdapter := fun i => if i then a else b
  have hwho : ∀ i, Serves cfg (who i) := by
    intro i
    cases i with
    | true => exact ha
    | false => exact hb
  obtain ⟨k, hk⟩ := steps_up (a := a) (s := emptyFleet) (orElse none a.workload)
    (fun _ _ _ => rfl) fun i _ x hx => by cases hx
  obtain ⟨q, hq⟩ := steps_brought_up (a := b) (orElse none b.workload)
  have hfirst := Interleaved.run (W := fun i => fleet (who i))
    (p := fun i => body (who i) (.up none)) true hk
  have hsecond := Interleaved.run (W := fun i => fleet (who i))
    (p := Function.update (fun i => body (who i) (.up none)) true
      (.call (KubectlCall.apply (render_kubernetes_resources a)) k)) false hq
  exact up_touches hns ⟨hne.symm, h Bool who (fun _ => .up none) hwho _ _ _ emptyFleet_initial
    (hfirst.trans hsecond) true _ k rfl⟩

/-- Environments are isolated exactly where their names, and for calls that overlap their
namespaces, differ. -/
theorem environments_isolated_iff :
    (Isolated cfg ↔ NamesDiffer cfg) ∧ (IsolatedOverlapped cfg ↔ NamespacesDiffer cfg) :=
  ⟨⟨names_of_isolated, isolated_of_names⟩,
    ⟨namespaces_of_isolatedOverlapped, isolatedOverlapped_of_namespaces⟩⟩

/-! ## Two environments of one Kubernetes name -/

def featureUnderscore : EnvironmentConfig where
  branch := "feature_x"
  domain := "one.example.com"
  db_name := "odoo_one"
  filestore_path := "filestore/one"
  db_name_safe := by decide +kernel
  filestore_volume_safe := no_volume_safe
  filestore_path_safe := by decide +kernel

def featureDash : EnvironmentConfig where
  branch := "feature-x"
  domain := "two.example.com"
  db_name := "odoo_two"
  filestore_path := "filestore/two"
  db_name_safe := by decide +kernel
  filestore_volume_safe := no_volume_safe
  filestore_path_safe := by decide +kernel

def featureConfig : OdooCtlConfig where
  runtime := .kubernetes { namespace_template_safe := by decide +kernel }
  environments := [("feature_x", featureUnderscore), ("feature-x", featureDash)]
  names_distinct := by decide
  names_safe := by decide +kernel
  suffix_safe := default_suffix_safe
  graph_valid := by decide +kernel

theorem adapter_of_any {r : Except String KubernetesAdapter} {p : KubernetesAdapter → Bool}
    (h : r.toOption.any p = true) : ∃ a, r = .ok a ∧ p a = true := by
  cases r with
  | error e => cases h
  | ok a => exact ⟨a, rfl, h⟩

/-- `up` for one environment takes over what the other's created. -/
theorem feature_environments_share_names : ¬ Isolated featureConfig.toConfigFields := by
  intro h
  obtain ⟨a, ha, hna⟩ := adapter_of_any
    (r := adapter featureConfig.toConfigFields "feature_x")
    (p := fun a => a.environment_name = "feature-x") (by decide +kernel)
  obtain ⟨b, hb, hnb⟩ := adapter_of_any
    (r := adapter featureConfig.toConfigFields "feature-x")
    (p := fun b => b.environment_name = "feature-x") (by decide +kernel)
  refine names_of_isolated h a b ⟨_, List.mem_cons_self, ha⟩
    ⟨_, List.mem_cons_of_mem _ List.mem_cons_self, hb⟩ ?_
    ((of_decide_eq_true hna).trans (of_decide_eq_true hnb).symm)
  rw [(adapter_built ha).served, (adapter_built hb).served]
  decide

end KubernetesIsolation
