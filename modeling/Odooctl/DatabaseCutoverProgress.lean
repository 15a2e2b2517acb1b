import Odooctl.DatabaseCutoverSafety

/-!
# A cutover without faults comes to its end

From every phase one promotion and one finalization return, whatever earlier calls left
behind.
-/
namespace DatabaseCutoverProgress

open EffectPrograms PostgresCatalog DatabaseCutover DatabaseCutoverSafety

variable {sha256 : Sha256} {plan : DatabaseCutoverPlan sha256} {pg : Hooks} {ph : Phase}
  {s : Catalog × List AdapterCall}

/-- The calls of others still leave the three names alone. -/
abbrev calmServerOn (i t a : DbName) : World Adapter (Catalog × List AdapterCall) :=
  (faultless.under (SameOn i t a)).logged

abbrev calmServer (plan : DatabaseCutoverPlan sha256) :
    World Adapter (Catalog × List AdapterCall) :=
  calmServerOn plan.incoming_db plan.target_db plan.aside_db

abbrev Free : AdapterCall → Catalog × List AdapterCall → Prop := fun _ _ => True

def Hooks.LooksUp (pg : Hooks) : Prop := pg.psql_scalar = true ∨ pg.database_oid = true

/-- A plan whose three names differ, and an adapter that can look them up. -/
structure Workable (pg : Hooks) (plan : DatabaseCutoverPlan sha256) : Prop where
  captured : Captured plan
  aside_ne_target : plan.aside_db ≠ plan.target_db
  looks_up : Hooks.LooksUp pg

theorem rename_executes {c : Catalog} {old new : DbName} {o : Oid}
    (hold : serverName old = old) (hnew : serverName new = new) (ho : c old = some o)
    (hn : c new = none) : Executes c (.renameDatabase old new) (c.move old new o) := by
  have h : Executes c (.renameDatabase old new) (c.move (serverName old) (serverName new) o) :=
    .rename (by rw [hold]; exact ho) (by rw [hnew]; exact hn)
  rw [hold, hnew] at h
  exact h

theorem serve_executes {c d : Catalog} {sql : Statement} (fresh : Oid) (m : DbName)
    (h : Executes c sql d) : serve fresh (.psql m sql) c = (.ok (), d) := by
  cases h with
  | terminate => rfl
  | drop => rfl
  | rename ho hn => simp only [serve, ho, hn]
  | check => rfl

/-- A lookup returns the OID that the catalog has for the name. -/
theorem wp_lookup_ok {i t a n m : DbName} {Q : Except SwapError (Option Oid) → _ → Prop}
    (hpg : Hooks.LooksUp pg) (hn : nameFault n "db_name" = none)
    (hq : ∀ u, Quiet i t a s u → Q (.ok (s.1 n)) u) :
    wp (calmServerOn i t a) Free (database_oid pg n m) Q s := by
  have hreply : oidReply n (.ok (s.1.scalar n)) = .ok (s.1 n) := by
    have h := validated_oid_scalar s.1 n n
    rwa [serverName_of_nameFault hn] at h
  unfold database_oid
  split
  · simp only [wp_bind', wp_ofExcept, validate_database_name, hn]
    refine wp_perform.mpr ⟨trivial, ?_⟩
    rintro r u ⟨⟨c, ⟨fresh, hs⟩, hsame⟩, hlog⟩
    obtain ⟨rfl, rfl⟩ : Except.ok (s.1.scalar n) = r ∧ s.1 = c := Prod.mk.inj hs
    rw [hreply]
    exact hq u ⟨hsame, hlog ▸ List.prefix_append _ _⟩
  · next hscalar =>
    have hoid : pg.database_oid = true := hpg.resolve_left hscalar
    simp only [hoid, ↓reduceIte]
    refine wp_perform.mpr ⟨trivial, ?_⟩
    rintro r u ⟨⟨c, ⟨fresh, hs⟩, hsame⟩, hlog⟩
    obtain ⟨rfl, rfl⟩ : Except.ok (s.1.scalar n) = r ∧ s.1 = c := Prod.mk.inj hs
    rw [hreply]
    exact hq u ⟨hsame, hlog ▸ List.prefix_append _ _⟩

theorem lookup_cons_ne {α β : Type} [BEq α] [LawfulBEq α] {k a : α} {b : β}
    {l : List (α × β)} (h : k ≠ a) : ((a, b) :: l).lookup k = l.lookup k := by
  have hb : (k == a) = false := by simpa using h
  simp only [List.lookup_cons, hb]

/-- Every phase of a plan with distinct names is in the table of observations. -/
theorem states_lookup {c : Catalog} (ha : plan.aside_db ≠ plan.target_db)
    (h : ph.Holds plan c) :
    plan.states.lookup (c plan.incoming_db, c plan.target_db, c plan.aside_db) =
      some ph.state ∧ (ph = .promoted → c plan.aside_db = plan.target_oid) := by
  cases hto : plan.target_oid with
  | none =>
    cases ph <;> simp_all [DatabaseCutoverPlan.states, Phase.Holds, Phase.state,
      lookup_cons_ne]
  | some o =>
    have hne : o ≠ plan.incoming_oid := fun he => plan.oids_distinct (by rw [hto, he])
    cases ph <;> simp_all [DatabaseCutoverPlan.states, Phase.Holds, Phase.state,
      lookup_cons_ne]

theorem wp_reconcile_ok {Q : Except SwapError DatabaseCutoverStatus → _ → Prop}
    (hw : Workable pg plan) (h : At plan ph s)
    (hq : ∀ t status, Observed plan ph status t → Q (.ok status) t) :
    wp (calmServer plan) Free (reconcile_database_cutover pg plan) Q s := by
  obtain ⟨ht, hi, ha⟩ := plan_names plan "db_name"
  unfold reconcile_database_cutover
  simp only [wp_bind', wp_attempt, wp_pure']
  refine wp_lookup_ok hw.looks_up hi fun t₁ h₁ => ?_
  refine wp_lookup_ok hw.looks_up ht fun t₂ h₂ => ?_
  refine wp_lookup_ok hw.looks_up ha fun t₃ h₃ => ?_
  have hquiet := quiet_trans (quiet_trans h₁ h₂) h₃
  have hat : At plan ph t₃ := h.of_quiet hquiet
  have hi' : s.1 plan.incoming_db = t₃.1 plan.incoming_db := hquiet.1.1.symm
  have ht' : t₁.1 plan.target_db = t₃.1 plan.target_db := (quiet_trans h₂ h₃).1.2.1.symm
  have ha' : t₂.1 plan.aside_db = t₃.1 plan.aside_db := h₃.1.2.2.symm
  obtain ⟨hlook, hprom⟩ := states_lookup hw.aside_ne_target hat.1
  simp only [hi', ht', ha', hlook]
  exact hq _ _ ⟨hat, rfl, hprom⟩

/-- A statement that can take effect does so, and moves along the phase graph. -/
theorem wp_psql_ok {sql : Statement} {d : Catalog} {ph' : Phase}
    {Q : Except SwapError Unit → _ → Prop} (hp : Captured plan) (h : At plan ph s)
    (hx : Executes s.1 sql d) (hmove : d = s.1 ∧ ph' = ph ∨ ph.Next plan sql ph')
    (hq : ∀ t, At plan ph' t → Q (.ok ()) t) :
    wp (calmServer plan) Free (psql plan.maintenance_db sql) Q s := by
  refine wp_perform.mpr ⟨trivial, ?_⟩
  rintro r t ⟨⟨u, ⟨fresh, hserve⟩, hsame⟩, hlog⟩
  rw [serve_executes fresh _ hx] at hserve
  obtain ⟨rfl, rfl⟩ : Except.ok () = r ∧ d = u := Prod.mk.inj hserve
  refine hq t ?_
  rcases hmove with ⟨rfl, rfl⟩ | hn
  · exact h.of_quiet ⟨hsame, hlog ▸ List.prefix_append _ _⟩
  · refine ⟨(hn.refines hp h.1 hx).of_sameNames hsame, fun hf => ?_⟩
    subst hf
    cases hn
    rw [hlog]
    exact List.mem_append_right _ (by simp [dropCall])

theorem wp_terminate_ok {n : DbName} {Q : Except SwapError Unit → _ → Prop}
    (hp : Captured plan) (h : At plan ph s) (hq : ∀ t, At plan ph t → Q (.ok ()) t) :
    wp (calmServer plan) Free (terminate_connections n plan.maintenance_db) Q s :=
  wp_psql_ok hp h (.terminate _ _) (.inl ⟨rfl, rfl⟩) hq

theorem wp_rename_ok {old new f : DbName} {d : Catalog} {ph' : Phase}
    {Q : Except SwapError Unit → _ → Prop} (hp : Captured plan) (h : At plan ph s)
    (hold : nameFault old f = none) (hnew : nameFault new f = none)
    (hx : Executes s.1 (.renameDatabase old new) d)
    (hmove : ph.Next plan (.renameDatabase old new) ph')
    (hq : ∀ t, At plan ph' t → Q (.ok ()) t) :
    wp (calmServer plan) Free (rename_database old new plan.maintenance_db) Q s := by
  simp only [rename_database, quote_identifier, nameFault_no_nul hold, nameFault_no_nul hnew,
    Bool.false_eq_true, ↓reduceIte, wp_bind', wp_pure]
  exact wp_psql_ok hp h hx (.inr hmove) hq

/-- A call that returned with the incoming database live. -/
def Returned (plan : DatabaseCutoverPlan sha256) (phases : List Phase)
    (r : Except SwapError DatabaseCutoverStatus) (t : Catalog × List AdapterCall) : Prop :=
  ∃ status ph, r = .ok status ∧ status.isPromoted = true ∧ ph ∈ phases ∧ At plan ph t

theorem returned_promoted {status : DatabaseCutoverStatus} {t : Catalog × List AdapterCall}
    (h : Observed plan ph status t) (hph : ph = .promoted ∨ ph = .finalized) :
    Returned plan [.promoted, .finalized] (.ok status) t :=
  ⟨status, ph, rfl, (isPromoted_iff h.state).mpr hph, by simpa using hph, h.here⟩

theorem wp_promote_incoming_ok {status : DatabaseCutoverStatus} (hw : Workable pg plan)
    (h : Observed plan ph status s) (hready : ph = .ready → plan.target_oid = none) :
    wp (calmServer plan) Free (promote_incoming pg plan status)
      (Returned plan [.promoted, .finalized]) s := by
  obtain ⟨ht, hi, -⟩ := plan_names plan "db_name"
  obtain ⟨hst, hsi, -⟩ := plan_serverName plan
  have hs := h.state
  -- from both unpromoted phases the remaining rename can and does take effect
  have hrename : ∀ d, Executes s.1 (.renameDatabase plan.incoming_db plan.target_db) d →
      ph.Next plan (.renameDatabase plan.incoming_db plan.target_db) .promoted →
      ph = .ready ∨ ph = .movedAside →
      wp (calmServer plan) Free (promote_incoming pg plan status)
        (Returned plan [.promoted, .finalized]) s := by
    intro d hx hn hph
    have hst : ¬ (status.state ≠ .READY ∧ status.state ≠ .TARGET_MOVED_ASIDE) := by
      rw [hs]
      rcases hph with rfl | rfl <;> decide
    have hnp : status.isPromoted = false := by
      rw [DatabaseCutoverStatus.isPromoted, DatabaseCutoverStatus.promoted, hs]
      rcases hph with rfl | rfl <;> decide
    unfold promote_incoming
    simp only [hnp, Bool.false_eq_true, ↓reduceIte, hst, wp_bind', wp_attempt]
    refine wp_rename_ok hw.captured h.here hi ht hx hn fun t hat => ?_
    simp only [wp_bind', wp_attempt]
    refine wp_reconcile_ok hw hat fun u after hu => ?_
    have hpr : after.isPromoted = true := (isPromoted_iff hu.state).mpr (.inl rfl)
    simp only [hpr, ↓reduceIte]
    exact returned_promoted hu (.inl rfl)
  cases ph with
  | ready =>
    have hto := hready rfl
    have hfree : s.1 plan.target_db = none := h.here.1.2.1.trans hto
    exact hrename _ (rename_executes hsi hst h.here.1.1 hfree) (.promoteFirst hto) (.inl rfl)
  | movedAside =>
    exact hrename _ (rename_executes hsi hst h.here.1.2.1 h.here.1.2.2.1) .promote (.inr rfl)
  | promoted =>
    have hpr := (isPromoted_iff hs).mpr (.inl rfl)
    unfold promote_incoming
    simp only [hpr, ↓reduceIte]
    exact returned_promoted h (.inl rfl)
  | finalized =>
    have hpr := (isPromoted_iff hs).mpr (.inr rfl)
    unfold promote_incoming
    simp only [hpr, ↓reduceIte]
    exact returned_promoted h (.inr rfl)

/-- A promotion without faults returns promoted from every phase. -/
theorem wp_promote_ok (hw : Workable pg plan) (h : At plan ph s) :
    wp (calmServer plan) Free (promote_database_cutover pg plan)
      (Returned plan [.promoted, .finalized]) s := by
  obtain ⟨ht, -, ha⟩ := plan_names plan "db_name"
  unfold promote_database_cutover
  rw [wp_bind']
  refine wp_reconcile_ok hw h fun t status hobs => ?_
  simp only
  split
  · next hpr => exact returned_promoted hobs ((isPromoted_iff hobs.state).mp hpr)
  split
  case isFalse hfirst =>
    refine wp_promote_incoming_ok hw hobs fun hready => ?_
    subst hready
    exact not_not.mp fun hto => hfirst ⟨hobs.state, hto⟩
  next hfirst =>
  have hready : ph = .ready := by
    have hst := hfirst.1
    rw [hobs.state] at hst
    cases ph <;> simp_all [Phase.state]
  subst hready
  simp only [wp_bind', wp_attempt]
  refine wp_terminate_ok hw.captured hobs.here fun t hat => ?_
  simp only [wp_bind']
  refine wp_reconcile_ok hw hat fun t status hobs => ?_
  have hnp : status.isPromoted = false := by
    simp [DatabaseCutoverStatus.isPromoted, DatabaseCutoverStatus.promoted, hobs.state,
      Phase.state]
  have hst : status.state = .READY := hobs.state
  simp only [hnp, hst, Bool.false_eq_true, ↓reduceIte, wp_bind', wp_attempt]
  obtain ⟨o, ho⟩ := Option.ne_none_iff_exists'.mp hfirst.2
  obtain ⟨hst, -, hsa⟩ := plan_serverName plan
  have hx : Executes t.1 (.renameDatabase plan.target_db plan.aside_db) _ :=
    rename_executes hst hsa (hobs.here.1.2.1.trans ho) hobs.here.1.2.2
  refine wp_rename_ok hw.captured hobs.here ht ha hx (.moveAside hfirst.2) fun t hat => ?_
  simp only [wp_bind']
  refine wp_reconcile_ok hw hat fun t status hobs => ?_
  exact wp_promote_incoming_ok hw hobs (by intro hr; cases hr)

/-- A finalization without faults returns from every promoted phase. -/
theorem wp_finalize_ok (hw : Workable pg plan) (h : At plan ph s)
    (hph : ph = .promoted ∨ ph = .finalized) :
    wp (calmServer plan) Free (finalize_database_cutover pg plan true)
      (Returned plan [.promoted, .finalized]) s := by
  obtain ⟨-, -, ha⟩ := plan_names plan "db_name"
  unfold finalize_database_cutover
  simp only [Bool.true_eq_false, ↓reduceIte, wp_bind']
  refine wp_reconcile_ok hw h fun t status hobs => ?_
  have hpr := (isPromoted_iff hobs.state).mpr hph
  simp only [hpr, Bool.true_eq_false, ↓reduceIte]
  split
  · exact returned_promoted hobs hph
  next hnf =>
  have hprom : ph = .promoted := by
    rcases hph with rfl | rfl
    · rfl
    · exact absurd hobs.state hnf
  subst hprom
  split
  · exact ⟨_, _, rfl, rfl, by decide, hobs.here⟩
  next hto =>
  simp only [wp_bind', wp_attempt]
  refine wp_terminate_ok hw.captured hobs.here fun t hat => ?_
  simp only [wp_bind', wp_attempt]
  refine wp_reconcile_ok hw hat fun t status hobs => ?_
  have hst : status.state = .PROMOTED := hobs.state
  simp only [hst, reduceCtorEq, ne_eq, not_true_eq_false, ↓reduceIte, wp_bind', wp_attempt,
    drop_database, quote_identifier, nameFault_no_nul ha, Bool.false_eq_true, wp_pure]
  refine wp_psql_ok hw.captured hobs.here (.drop _ _) (.inr (.finalize hto)) fun t hat => ?_
  simp only [wp_bind', wp_attempt]
  refine wp_reconcile_ok hw hat fun t status hobs => ?_
  have hst : status.state = .FINALIZED := hobs.state
  simp only [hst, ↓reduceIte]
  exact returned_promoted hobs (.inr rfl)

/-! ## Planning -/

/-- The checks of a plan pass on its own fields. -/
theorem init_self (plan : DatabaseCutoverPlan sha256) :
    DatabaseCutoverPlan.init sha256 plan.cutover_id plan.incoming_db plan.target_db plan.aside_db
      plan.incoming_oid plan.target_oid plan.maintenance_db = .ok plan := by
  obtain ⟨cutover_id, incoming_db, target_db, aside_db, io, tgt, m, hv, hne, hsep, rfl, ho⟩ := plan
  have h := asideFault_none "target_db" hv.1
  have h₁ := nameFault_none (g := "incoming_db") h.incoming
  have h₃ := nameFault_none (g := "aside_db") h.aside
  unfold DatabaseCutoverPlan.init
  split
  · next hm =>
    rw [h₁, h.target, h₃] at hm
    cases hm
  split
  · next hm =>
    rw [hv.2] at hm
    cases hm
  simp only [h.id_ne, h.id_no_nul, hne, hsep, ho, ↓reduceIte, ↓reduceDIte, ne_eq,
    not_true_eq_false, Bool.false_eq_true]
  split
  · next hm =>
    rw [hv.1] at hm
    cases hm
  rfl

/-- Planning returns where the names pass its checks and the cluster is ready for it. -/
theorem wp_plan_ok {incoming_db target_db m : DbName} {cutover_id : String}
    (hpg : Hooks.LooksUp pg) (hnames : asideFault sha256 target_db incoming_db cutover_id = none)
    (hm : nameFault m "maintenance_db" = none) (hne : incoming_db ≠ target_db)
    (hsep : m ∉ [incoming_db, target_db, asideName sha256 target_db incoming_db cutover_id])
    (hi : s.1 incoming_db ≠ none)
    (ha : s.1 (asideName sha256 target_db incoming_db cutover_id) = none)
    (ho : s.1 target_db ≠ s.1 incoming_db) :
    wp (calmServerOn incoming_db target_db (asideName sha256 target_db incoming_db cutover_id))
      Free (plan_database_cutover sha256 pg incoming_db target_db cutover_id m)
      (fun r _ => ∃ p, r = .ok p) s := by
  have hpass := asideFault_none "db_name" hnames
  have hname : database_cutover_aside_name sha256 target_db incoming_db cutover_id =
      .ok (asideName sha256 target_db incoming_db cutover_id) := by
    simp only [database_cutover_aside_name, hnames]
  obtain ⟨io, hio⟩ := Option.ne_none_iff_exists'.mp hi
  unfold plan_database_cutover validate_database_name
  simp only [wp_bind', wp_ofExcept, nameFault_none hpass.incoming, nameFault_none hpass.target,
    nameFault_none hm, hne, ↓reduceIte, hname, hsep]
  refine wp_lookup_ok hpg hpass.incoming fun t₁ h₁ => ?_
  simp only [hio, wp_bind']
  refine wp_lookup_ok hpg hpass.target fun t₂ h₂ => ?_
  refine wp_lookup_ok hpg hpass.aside fun t₃ h₃ => ?_
  have haside : t₂.1 (asideName sha256 target_db incoming_db cutover_id) = none := by
    rw [h₂.1.2.2, h₁.1.2.2, ha]
  have htgt : t₁.1 target_db ≠ some io := by
    rw [h₁.1.2.1, ← hio]
    exact ho
  simp only [haside, ne_eq, not_true_eq_false, ↓reduceIte, htgt, wp_ofExcept]
  exact ⟨_, init_self ⟨cutover_id, incoming_db, target_db, _, io, t₁.1 target_db, m,
    ⟨hnames, hm⟩, hne, hsep, rfl, htgt⟩⟩

end DatabaseCutoverProgress
