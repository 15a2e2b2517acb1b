import Odooctl.CloneProtection
import Odooctl.Promotion

/-!
# What a failed promotion restores

The handler of a promotion restores the backup whatever was raised. Data that nothing has
changed yet are spared exactly where the step that fails comes before the attempt or after
the rollout has begun.
-/
namespace PromotionRecovery

open EffectPrograms PostgresCatalog DatabaseCutover SwapTempDatabase
open ProjectConfiguration FilestoreAdapters EnvironmentServices Promotion
open DatabaseIsolation (SparesIn exampleHost)
open FilestoreIsolation

/-- The reply is an exception. -/
def Failed : (o : Promoting.Op) → Promoting.Reply o → Prop
  | .inl o, r => Raised o r
  | .inr _, (r : Except StepError _) => r.isOk = false

/-- Until the step has failed nothing fails; from then on anything is replied. -/
def firstToFail (c : PromoteStep) : World Promoting Bool := fun o failed r failed' =>
  if failed then failed' = true
  else (failed' = false ∧ ¬ Failed o r) ∨ (failed' = true ∧ Failed o r ∧ o = .inr c)

/-- A step of the rollout or the module update. -/
def MayMutate : Promoting.Op → Prop
  | .inr (.begin_rollout _ _ _ _) => True
  | .inr (.up _) => True
  | .inr (.update_modules _ _ _) => True
  | _ => False

/-- A call of a restore that changes the database under the name or the filestore. -/
def Restores (n : DbName) (home : Location) : Promoting.Op → Prop
  | .inl o => ¬ (SparesIn n o ∧ AvoidsIn home o)
  | .inr _ => False

/-- Data are restored only after a step that may have changed them. -/
def Guard (n : DbName) (home : Location) (o : Promoting.Op) (u : Bool × List Promoting.Op) : Prop :=
  Restores n home o → ∃ m ∈ u.2, MayMutate m

variable (host : Host) (cfg : OdooCtlConfig) (settings : PromoteSettings)
  (source target : String) (confirm : Bool)

/-- Where `c` is the first step to fail, the database and the filestore of the target are
restored only after a step that may have changed them. -/
def RestoresOnlyMutated (c : PromoteStep) : Prop :=
  ∀ tgt, env cfg.toConfigFields target = .ok tgt →
    ∀ home, filestore_home host cfg (target, tgt) = .ok home →
      ∀ u o k, Steps (firstToFail c).logged (false, [])
        (run_promote host cfg.toConfigFields settings source target confirm) u (.call o k) →
        Guard (live tgt.db_name) home o u

/-- Nothing but the failure of a call keeps the promotion from its attempt. -/
structure Undertaken (src tgt : EnvironmentConfig) : Prop where
  source_known : env cfg.toConfigFields source = .ok src
  target_known : env cfg.toConfigFields target = .ok tgt
  promotes : src.promotes_to = some target
  confirmed : is_protected cfg.toConfigFields target = .ok true → confirm = true
  adapter : ∃ place, make_runtime_adapter cfg.toConfigFields target = .ok place

/-- The steps of the attempt before anything is rolled out. -/
inductive Early (src tgt : EnvironmentConfig) : PromoteStep → Prop where
  | fetch : Early src tgt .git_fetch
  | checkout : Early src tgt (.git_checkout tgt.branch)
  | commit : Early src tgt .git_commit
  | merge : Early src tgt (.git_merge src.branch)
  | pull : settings.has_begin_rollout = false → Early src tgt (.pull cfg.odoo_service)

variable {host cfg settings source target confirm} {c d : PromoteStep} {n : DbName}
  {home : Location} {α ε : Type} {b : Bool} {l : List Promoting.Op} {src tgt : EnvironmentConfig}

/-! ## Steps -/

theorem wp_perform {I : Promoting.Op → Bool × List Promoting.Op → Prop}
    {Q : Except StepError c.Answer → Bool × List Promoting.Op → Prop} :
    wp (firstToFail d).logged I (perform c) Q (false, l) ↔ I (.inr c) (false, l) ∧
      (∀ a, Q (.ok a) (false, l ++ [.inr c])) ∧
      (c = d → ∀ e, Q (.error e) (true, l ++ [.inr c])) := by
  have hok : ∀ a : c.Answer, ¬ Failed (.inr c) (.ok a) := fun a => Bool.noConfusion
  have herror : ∀ e : StepError, Failed (.inr c) (.error e) := fun e => rfl
  refine and_congr_right' ?_
  constructor
  · intro h
    constructor
    · intro a
      exact h (.ok a) (false, l ++ [.inr c]) ⟨.inl ⟨rfl, hok a⟩, rfl⟩
    · intro hc e
      exact h (.error e) (true, l ++ [.inr c]) ⟨.inr ⟨rfl, herror e, congrArg Sum.inr hc⟩, rfl⟩
  · intro h r u hu
    obtain ⟨failed, l'⟩ := u
    obtain ⟨hw, hl⟩ := hu
    obtain rfl : l' = l ++ [.inr c] := hl
    obtain ⟨rfl, hr⟩ | ⟨rfl, hr, hc⟩ := hw
    · cases r with
      | ok a => exact h.1 a
      | error e => exact absurd (herror e) hr
    · cases r with
      | ok a => exact absurd hr (hok a)
      | error e => exact h.2 (Sum.inr.inj hc) e

theorem guard_step (u : Bool × List Promoting.Op) : Guard n home (.inr c) u := fun h => h.elim

theorem wp_next {f : c.Answer → PromoteM α} {Q : Except StepError α → Bool × List Promoting.Op → Prop}
    (hok : ∀ a, wp (firstToFail d).logged (Guard n home) (f a) Q (false, l ++ [.inr c]))
    (herror : c = d → ∀ e, Q (.error e) (true, l ++ [.inr c])) :
    wp (firstToFail d).logged (Guard n home) (perform c >>= f) Q (false, l) := by
  rw [wp_bind', wp_perform]
  exact ⟨guard_step _, hok, herror⟩

theorem wp_orRefuse_bind {r : Except String ε} {f : ε → PromoteM α}
    {Q : Except StepError α → Bool × List Promoting.Op → Prop} {u : Bool × List Promoting.Op}
    (hok : ∀ a, r = .ok a → wp (firstToFail d).logged (Guard n home) (f a) Q u)
    (herror : ∀ e, Q (.error e) u) :
    wp (firstToFail d).logged (Guard n home) (orRefuse r >>= f) Q u := by
  cases r with
  | ok a => exact hok a rfl
  | error e => exact herror _

/-- After a step of the rollout a restore is in order. -/
theorem wp_mutated (p : Prog Promoting ε α) (hl : ∃ m ∈ l, MayMutate m) :
    wp (firstToFail d).logged (Guard n home) p (fun _ u => ∃ m ∈ u.2, MayMutate m) (b, l) := by
  let P : Bool × List Promoting.Op → Prop := fun u => ∃ m ∈ u.2, MayMutate m
  have hkeeps : ∀ (o : Promoting.Op) (u : Bool × List Promoting.Op) (r : Promoting.Reply o)
      (t : Bool × List Promoting.Op), True → P u → (firstToFail d).logged o u r t → P t := by
    intro o u r t _ hu ht
    obtain ⟨m, hm, hmutates⟩ := hu
    refine ⟨m, ?_, hmutates⟩
    rw [ht.2]
    exact List.mem_append_left _ hm
  exact wp_keeps (P := P) (calls_all (fun _ => trivial) p) hl (fun _ _ _ hu _ => hu) hkeeps

/-! ## Up to the attempt -/

/-- What holds where the preflight ends. -/
def Prepared (cfg : OdooCtlConfig) (source target : String) (confirm : Bool)
    (r : Except StepError (EnvironmentConfig × EnvironmentConfig × String))
    (u : Bool × List Promoting.Op) : Prop :=
  ∀ p, r = .ok p → u.1 = false ∧ Undertaken cfg source target confirm p.1 p.2.1

theorem Prepared.error {e : StepError} {u : Bool × List Promoting.Op} :
    Prepared cfg source target confirm (.error e) u := fun _ h => nomatch h

theorem wp_prepare : wp (firstToFail d).logged (Guard n home)
    (prepare_promote cfg.toConfigFields source target confirm)
    (Prepared cfg source target confirm) (false, l) := by
  apply wp_orRefuse_bind _ fun _ => Prepared.error
  intro src hsource
  apply wp_orRefuse_bind _ fun _ => Prepared.error
  intro tgt htarget
  split
  · exact Prepared.error
  next hpromotes =>
  apply wp_next _ fun _ _ => Prepared.error
  intro _
  apply wp_next _ fun _ _ => Prepared.error
  intro missing
  split
  · exact Prepared.error
  apply wp_orRefuse_bind _ fun _ => Prepared.error
  intro covered hprotected
  split
  · exact Prepared.error
  next hconfirm =>
  apply wp_next _ fun _ _ => Prepared.error
  intro _
  rw [wp_bind']
  apply wp_next
  swap
  · exact fun _ _ => Prepared.error
  intro dirty
  split
  swap
  · exact Prepared.error
  apply wp_next _ fun _ _ => Prepared.error
  intro backup_id
  apply wp_orRefuse_bind _ fun _ => Prepared.error
  intro place hplace p hp
  obtain rfl := Except.ok.inj hp
  have hpromotes : src.promotes_to = some target := not_not.mp hpromotes
  have hconfirmed : is_protected cfg.toConfigFields target = .ok true → confirm = true := by
    intro h
    have hcovered : covered = true := Except.ok.inj (hprotected.symm.trans h)
    cases confirm with
    | true => rfl
    | false => exact absurd ⟨hcovered, rfl⟩ hconfirm
  exact ⟨rfl, hsource, htarget, hpromotes, hconfirmed, place, hplace⟩

/-! ## The attempt -/

/-- What an exception of the attempt shows. -/
def Begun (r : Except ε α) (u : Bool × List Promoting.Op) : Prop :=
  ∀ e, r = .error e → ∃ m ∈ u.2, MayMutate m

theorem wp_begun (p : Prog Promoting ε α) (hl : ∃ m ∈ l, MayMutate m) :
    wp (firstToFail d).logged (Guard n home) p Begun (b, l) :=
  wp_post (wp_mutated p hl) fun _ _ h _ _ => h

theorem mutated_last (hc : MayMutate (.inr c)) : ∃ m ∈ l ++ [.inr c], MayMutate m :=
  ⟨_, List.mem_append_right _ (List.mem_singleton_self _), hc⟩

theorem wp_attempt_promote (hlate : ¬ Early cfg settings src tgt d) :
    wp (firstToFail d).logged (Guard n home)
      (attempt_promote cfg.toConfigFields settings target src tgt) Begun (false, l) := by
  have hearly : ∀ c, Early cfg settings src tgt c → c ≠ d := by
    intro c hc hd
    exact hlate (hd ▸ hc)
  unfold attempt_promote
  rw [wp_bind', wp_mapError]
  apply wp_next
  swap
  · exact fun hd => absurd hd (hearly _ .fetch)
  intro _
  apply wp_next
  swap
  · exact fun hd => absurd hd (hearly _ .checkout)
  intro _
  refine wp_perform.mpr ⟨guard_step _, ?_, fun hd => absurd hd (hearly _ .commit)⟩
  intro pre_promote_commit
  refine wp_bind'.mpr (wp_mapError.mpr ?_)
  apply wp_next
  swap
  · exact fun hd => absurd hd (hearly _ .merge)
  intro _
  unfold roll_out
  split
  · apply wp_next
    swap
    · exact fun hd => absurd hd (hearly _ .commit)
    intro revision
    apply wp_next
    · intro state
      exact wp_begun _ (mutated_last trivial)
    · intro _ e _ _
      exact mutated_last trivial
  next hbegin =>
    apply wp_next
    swap
    · exact fun hd => absurd hd (hearly _ (.pull (Bool.eq_false_iff.mpr hbegin)))
    intro _
    apply wp_next
    · intro _
      exact wp_begun _ (mutated_last trivial)
    · intro _ e _ _
      exact mutated_last trivial

/-! ## What is restored in order -/

theorem wp_save_outcome {backup_id status : String} {message rollout_rollback : Option String}
    (u : Bool × List Promoting.Op) :
    wp (firstToFail d).logged (Guard n home)
      (save_outcome cfg.toConfigFields settings target tgt backup_id status message
        rollout_rollback) (fun _ _ => True) u := by
  have hcalls : (save_outcome cfg.toConfigFields settings target tgt backup_id status message
      rollout_rollback).Calls (fun o => ∃ c, o = Sum.inr c) :=
    calls_bind (calls_right (calls_perform.mpr ⟨_, rfl⟩)) fun _ =>
      calls_right (calls_perform.mpr ⟨_, rfl⟩)
  apply wp_of_calls hcalls
  rintro o u ⟨c, rfl⟩
  exact guard_step u

theorem restores_only_mutated
    (hlate : ∀ src tgt, Undertaken cfg source target confirm src tgt →
      ¬ Early cfg settings src tgt d) :
    wp (firstToFail d).logged (Guard n home)
      (run_promote host cfg.toConfigFields settings source target confirm) (fun _ _ => True)
      (false, []) := by
  refine wp_bind'.mpr (wp_post wp_prepare ?_)
  rintro (e | ⟨src, tgt, backup_id⟩) ⟨failed, l⟩ hprepared
  · trivial
  obtain ⟨hfailed, hundertaken⟩ := hprepared _ rfl
  obtain rfl : failed = false := hfailed
  refine wp_bind'.mpr (wp_attempt.mpr (wp_post (wp_attempt_promote (hlate _ _ hundertaken)) ?_))
  rintro (a | ⟨⟩) ⟨failed, l⟩ hbegun
  · exact wp_post (wp_mutated _ (hbegun a rfl)) fun _ _ _ => trivial
  · refine wp_bind'.mpr (wp_post (wp_save_outcome _) ?_)
    rintro (e | ⟨⟩) u _
    · trivial
    · trivial

/-! ## What is restored out of order -/

section OutOfOrder

variable {I : Promoting.Op → Bool × List Promoting.Op → Prop}

/-- Nothing was rolled out or updated. -/
def Quiet (l : List Promoting.Op) : Prop := ∀ m ∈ l, ¬ MayMutate m

theorem Quiet.nil : Quiet [] := by simp [Quiet]

theorem Quiet.append {o : Promoting.Op} (hl : Quiet l) (ho : ¬ MayMutate o) : Quiet (l ++ [o]) := by
  intro m hm
  rcases List.mem_append.mp hm with hm | hm
  · exact hl m hm
  · rw [List.mem_singleton.mp hm]
    exact ho

theorem Quiet.step (hl : Quiet l) (hc : ¬ MayMutate (.inr c)) : Quiet (l ++ [.inr c]) :=
  hl.append hc

theorem after_step {f : c.Answer → PromoteM α}
    {Q : Except StepError α → Bool × List Promoting.Op → Prop}
    (h : wp (firstToFail d).logged I (perform c >>= f) Q (false, l)) (a : c.Answer) :
    wp (firstToFail d).logged I (f a) Q (false, l ++ [.inr c]) :=
  (wp_perform.mp (wp_bind'.mp h)).2.1 a

theorem after_value {r : Except String ε} {f : ε → PromoteM α} {a : ε}
    {Q : Except StepError α → Bool × List Promoting.Op → Prop} {u : Bool × List Promoting.Op}
    (h : wp (firstToFail d).logged I (orRefuse r >>= f) Q u) (hr : r = .ok a) :
    wp (firstToFail d).logged I (f a) Q u := by
  subst hr
  exact h

/-- The replies with which the preflight ends well. -/
theorem prepare_returns {Q : Except StepError (EnvironmentConfig × EnvironmentConfig × String) →
      Bool × List Promoting.Op → Prop} (h : Undertaken cfg source target confirm src tgt)
    (hwp : wp (firstToFail d).logged I (prepare_promote cfg.toConfigFields source target confirm) Q
      (false, [])) :
    ∃ backup_id l, Q (.ok (src, tgt, backup_id)) (false, l) ∧ Quiet l := by
  unfold prepare_promote at hwp
  have h₀ := after_value (r := env cfg.toConfigFields source) hwp h.source_known
  have h₁ := after_value h₀ h.target_known
  rw [if_neg (not_not.mpr h.promotes)] at h₁
  have h₂ := after_step (after_step h₁ ()) ([] : List String)
  rw [if_neg (not_not.mpr rfl)] at h₂
  obtain ⟨covered, hcovered⟩ := is_protected_of_env h.target_known
  have h₃ := after_value h₂ hcovered
  have hconfirmed : ¬ (covered = true ∧ confirm = false) := by
    rintro ⟨rfl, hconfirm⟩
    rw [h.confirmed hcovered] at hconfirm
    cases hconfirm
  rw [if_neg hconfirmed] at h₃
  have h₄ := after_step (wp_bind'.mp (after_step h₃ ())) ("" : String)
  have h₅ := after_step h₄ ("" : String)
  obtain ⟨place, hplace⟩ := h.adapter
  refine ⟨"", _, after_value h₅ hplace, ?_⟩
  exact ((((Quiet.nil.step id).step id).step id).step id).step id

/-- The replies with which the attempt ends at an early step. -/
theorem attempt_fails {Q : Except Aborted Unit → Bool × List Promoting.Op → Prop}
    (hd : Early cfg settings src tgt d) (hl : Quiet l)
    (hwp : wp (firstToFail d).logged I
      (attempt_promote cfg.toConfigFields settings target src tgt) Q (false, l)) :
    ∃ commit l', Q (.error ⟨⟨"", none⟩, commit, none⟩) (true, l') ∧ Quiet l' := by
  have h₀ := wp_mapError.mp (wp_bind'.mp hwp)
  cases hd with
  | fetch =>
    have herror := (wp_perform.mp (wp_bind'.mp h₀)).2.2 rfl ⟨"", none⟩
    exact ⟨none, _, herror, hl.step id⟩
  | checkout =>
    have h₁ := after_step h₀ ()
    have herror := (wp_perform.mp (wp_bind'.mp h₁)).2.2 rfl ⟨"", none⟩
    exact ⟨none, _, herror, (hl.step id).step id⟩
  | commit =>
    have h₁ := after_step (after_step h₀ ()) ()
    have herror := (wp_perform.mp h₁).2.2 rfl ⟨"", none⟩
    exact ⟨none, _, herror, ((hl.step id).step id).step id⟩
  | merge =>
    have h₁ := after_step (after_step h₀ ()) ()
    have h₂ := (wp_perform.mp h₁).2.1 (none : Option String)
    have h₃ := wp_mapError.mp (wp_bind'.mp h₂)
    have herror := (wp_perform.mp (wp_bind'.mp h₃)).2.2 rfl ⟨"", none⟩
    exact ⟨none, _, herror, (((hl.step id).step id).step id).step id⟩
  | pull hbegin =>
    have h₁ := after_step (after_step h₀ ()) ()
    have h₂ := (wp_perform.mp h₁).2.1 (none : Option String)
    have h₃ := after_step (wp_mapError.mp (wp_bind'.mp h₂)) ()
    unfold roll_out at h₃
    rw [hbegin] at h₃
    have herror := (wp_perform.mp (wp_bind'.mp h₃)).2.2 rfl ⟨"", none⟩
    exact ⟨none, _, herror, ((((hl.step id).step id).step id).step id).step id⟩

/-- With the failure of the step everything may be replied. -/
theorem calls_of_wp {p : Prog Services ε α} {Q : Except ε α → Bool × List Promoting.Op → Prop}
    (hl : Quiet l) (h : wp (firstToFail d).logged (Guard n home) p.left Q (true, l)) :
    p.Calls fun o => ¬ Restores n home (.inl o) := by
  induction p generalizing l with
  | pure a => trivial
  | raise e => trivial
  | call o k ih =>
    constructor
    · intro hrestores
      obtain ⟨m, hm, hmutates⟩ := h.1 hrestores
      exact hl m hm hmutates
    · intro r
      exact ih r (hl.append id) (h.2 r (true, l ++ [.inl o]) ⟨rfl, rfl⟩)

/-- Whatever the attempt raised, the handler restores the backup. -/
theorem restore_of_conclude {backup_id : String} {commit : Option String}
    {Q : Except StepError Unit → Bool × List Promoting.Op → Prop} {u : Bool × List Promoting.Op}
    (h : wp (firstToFail d).logged I (conclude host cfg.toConfigFields settings target tgt backup_id
      (.error ⟨⟨"", none⟩, commit, none⟩)) Q u) :
    ∃ R, wp (firstToFail d).logged I (restore_data host cfg.toConfigFields target backup_id) R u := by
  have hrecover := wp_bind'.mp h
  unfold recover at hrecover
  have hdata := wp_bind'.mp (wp_bind'.mp hrecover)
  exact ⟨_, wp_attempt.mp hdata⟩

end OutOfOrder

theorem mem_of_env {name : String} {e : EnvironmentConfig}
    (h : env cfg.toConfigFields name = .ok e) : (name, e) ∈ cfg.environments := by
  unfold env ConfigFields.find at h
  cases hfind : cfg.environments.lookup name with
  | none =>
    rw [hfind] at h
    cases h
  | some e' =>
    rw [hfind] at h
    obtain rfl := Except.ok.inj h
    obtain ⟨before, after, heq, -⟩ := List.lookup_eq_some_iff.mp hfind
    rw [heq]
    simp

/-- A restore replaces the filestore that it extracts an archive for. -/
theorem restore_replaces {p : String × EnvironmentConfig} {archive : String}
    (hhome : filestore_home host cfg p = .ok home) :
    ¬ (restore_filestore host cfg.toConfigFields p.1 p.2 archive).Calls (AvoidsIn home) := by
  intro h
  unfold filestore_home at hhome
  cases hv : p.2.filestore_volume with
  | none =>
    simp only [restore_filestore, hv] at h hhome
    obtain rfl := Except.ok.inj hhome
    exact (restore_archive_iff.mp (calls_onFiles.mp h)).here (.inl (Location.within_refl _))
  | some v =>
    rw [hv] at hhome
    cases hfs : runtime_volume cfg.toConfigFields p.1 with
    | error e =>
      rw [hfs] at hhome
      cases hhome
    | ok fs =>
      rw [hfs] at hhome
      obtain rfl := Except.ok.inj hhome
      have hcalls := (restore_filestore_volume hv).mp h fs hfs
      have hclear := (volume_restore_iff (Location.not_within_child _ _)).mp hcalls
      exact hclear.here (.inl (Location.within_refl _))

theorem early_restores (h : Undertaken cfg source target confirm src tgt)
    (hd : Early cfg settings src tgt d) :
    ¬ RestoresOnlyMutated host cfg settings source target confirm d := by
  intro hguard
  obtain ⟨place, hplace⟩ := h.adapter
  have hhome : ∃ home, filestore_home host cfg (target, tgt) = .ok home := home_of_adapter hplace
  obtain ⟨home, hhome⟩ := hhome
  have hwp : wp (firstToFail d).logged (Guard (live tgt.db_name) home)
      (run_promote host cfg.toConfigFields settings source target confirm) (fun _ _ => True)
      (false, []) :=
    wp_of_steps (fun u o k hsteps => hguard tgt h.target_known home hhome u o k hsteps)
      fun _ _ _ => trivial
  obtain ⟨backup_id, l, hattempt, hl⟩ := prepare_returns h (wp_bind'.mp hwp)
  have hattempt := wp_attempt.mp (wp_bind'.mp hattempt)
  obtain ⟨commit, l', hconclude, hl'⟩ := attempt_fails hd hl hattempt
  obtain ⟨Q, hrestore⟩ := restore_of_conclude (wp_bind'.mp hconclude)
  have hcalls : (run_restore host cfg.toConfigFields target backup_id).Calls (AvoidsIn home) :=
    calls_mono (calls_of_wp hl' hrestore) fun o ho => (not_not.mp ho).2
  have hp := mem_of_env h.target_known
  exact restore_replaces hhome (restore_calls_files hp hcalls "")

/-- Data are restored only after a step that may have changed them, exactly where the step
that fails is not an early one of an attempt. -/
theorem restores_only_mutated_iff (host : Host) (cfg : OdooCtlConfig) (settings : PromoteSettings)
    (source target : String) (confirm : Bool) (c : PromoteStep) :
    RestoresOnlyMutated host cfg settings source target confirm c ↔
      ∀ src tgt, Undertaken cfg source target confirm src tgt → ¬ Early cfg settings src tgt c := by
  constructor
  · intro h src tgt hundertaken hearly
    exact early_restores hundertaken hearly h
  · intro hlate tgt _ home _ u o k hsteps
    exact wp_issued (restores_only_mutated hlate) hsteps

/-! ## A promotion that cannot fetch -/

def shop : EnvironmentConfig where
  branch := "main"
  domain := "example.com"
  db_name := "odoo_production"
  filestore_path := "filestore/odoo_production"
  db_name_safe := odoo_production_safe
  filestore_volume_safe := no_volume_safe
  filestore_path_safe := odoo_production_path_safe

def stagedShop : EnvironmentConfig :=
  { DatabaseIsolation.staging with promotes_to := some "production" }

def shopConfig : OdooCtlConfig where
  environments := [("production", shop), ("staging", stagedShop)]
  names_distinct := by decide
  names_safe := by decide +kernel
  suffix_safe := default_suffix_safe
  graph_valid := by decide +kernel

def shopHome : Location := (exampleHost.resolve_path "filestore/odoo_production").here

def shopCatalog : Catalog := fun n =>
  if n = "odoo_production" then some DatabaseIsolation.productionOid else none

/-- The remote cannot be reached; everything else succeeds. -/
def unreachableRemote : (c : PromoteStep) → Except StepError c.Answer
  | .git_fetch => .error ⟨"Command failed (128): git fetch --all", none⟩
  | .missing_env_vars => .ok []
  | .git_status => .ok ""
  | .run_backup _ => .ok "production_1"
  | .git_commit => .ok (some "4f2c1aa")
  | .begin_rollout workload strategy revision _ => .ok
      { strategy := strategy, workload := workload, command_workload := workload,
        revision := revision }
  | .validate_runtime_definition => .ok ()
  | .check_url _ => .ok ()
  | .git_checkout _ => .ok ()
  | .git_merge _ => .ok ()
  | .pull _ => .ok ()
  | .up _ => .ok ()
  | .update_modules _ _ _ => .ok ()
  | .promote_rollout _ => .ok ()
  | .finalize_rollout _ => .ok ()
  | .rollback_rollout _ => .ok ()
  | .git_reset _ => .ok ()
  | .save_deployment _ => .ok ()

def serveOffline (o : Promoting.Op) (s : Catalog × List FileCall) :
    Promoting.Reply o × Catalog × List FileCall :=
  match o with
  | .inl o => CloneProtection.serveNoting o s
  | .inr c => (unreachableRemote c, s)

def offlinePromotion : Except StepError String × Catalog × List FileCall :=
  (run_promote exampleHost shopConfig.toConfigFields {} "staging" "production" true).run
    serveOffline (shopCatalog, [])

/-- Nothing was fetched, merged or rolled out, and the data of production were replaced. -/
theorem failed_fetch_restores :
    FileCall.remove_tree shopHome ∈ offlinePromotion.2.2 ∧
    offlinePromotion.2.1 "odoo_production" ≠ shopCatalog "odoo_production" ∧
    ¬ RestoresOnlyMutated exampleHost shopConfig {} "staging" "production" true .git_fetch := by
  have hundertaken : Undertaken shopConfig "staging" "production" true stagedShop shop :=
    ⟨rfl, rfl, rfl, fun _ => rfl, _, rfl⟩
  refine ⟨by decide +kernel, by decide +kernel, ?_⟩
  exact early_restores hundertaken .fetch

end PromotionRecovery
