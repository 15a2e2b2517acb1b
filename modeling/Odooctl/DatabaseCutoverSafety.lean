import Odooctl.DatabaseCutover

/-!
# No database is lost by a cutover

The cluster of a captured plan is always in one of four phases, whatever statements are
lost or half reported and wherever a call is killed. Every statement that the code
issues moves along the phase graph; the old database disappears on one edge only.
-/
namespace DatabaseCutoverSafety

open EffectPrograms PostgresCatalog DatabaseCutover

variable {sha256 : Sha256} {plan : DatabaseCutoverPlan sha256} {pg : Hooks}

/-- Where the two databases of a cutover are. -/
inductive Phase where
  | ready
  | movedAside
  | promoted
  | finalized
  deriving DecidableEq, Repr

def Phase.state : Phase → DatabaseCutoverState
  | .ready => .READY
  | .movedAside => .TARGET_MOVED_ASIDE
  | .promoted => .PROMOTED
  | .finalized => .FINALIZED

/-- The set-aside name is free for the plan; it may coincide with the target name only
where there is no old database to set aside. -/
structure Captured (plan : DatabaseCutoverPlan sha256) : Prop where
  aside_ne_incoming : plan.aside_db ≠ plan.incoming_db
  aside_ne_target : plan.target_oid ≠ none → plan.aside_db ≠ plan.target_db

def Phase.Holds (plan : DatabaseCutoverPlan sha256) (c : Catalog) : Phase → Prop
  | .ready => c plan.incoming_db = some plan.incoming_oid ∧ c plan.target_db = plan.target_oid ∧
      c plan.aside_db = none
  | .movedAside => plan.target_oid ≠ none ∧ c plan.incoming_db = some plan.incoming_oid ∧
      c plan.target_db = none ∧ c plan.aside_db = plan.target_oid
  | .promoted => c plan.incoming_db = none ∧ c plan.target_db = some plan.incoming_oid ∧
      (plan.aside_db ≠ plan.target_db → c plan.aside_db = plan.target_oid)
  | .finalized => plan.target_oid ≠ none ∧ c plan.incoming_db = none ∧
      c plan.target_db = some plan.incoming_oid ∧ c plan.aside_db = none

/-- Nobody else renames, creates or drops these three names. -/
def SameOn (incoming_db target_db aside_db : DbName) (c d : Catalog) : Prop :=
  d incoming_db = c incoming_db ∧ d target_db = c target_db ∧ d aside_db = c aside_db

theorem sameOn_refl {i t a : DbName} (c : Catalog) : SameOn i t a c c := ⟨rfl, rfl, rfl⟩

theorem sameOn_trans {i t a : DbName} {c d e : Catalog} (h : SameOn i t a c d)
    (k : SameOn i t a d e) : SameOn i t a c e :=
  ⟨k.1.trans h.1, k.2.1.trans h.2.1, k.2.2.trans h.2.2⟩

abbrev SameNames (plan : DatabaseCutoverPlan sha256) : Catalog → Catalog → Prop :=
  SameOn plan.incoming_db plan.target_db plan.aside_db

theorem Phase.Holds.of_sameNames {ph : Phase} {c d : Catalog} (h : ph.Holds plan c)
    (hd : SameNames plan c d) : ph.Holds plan d := by
  obtain ⟨hi, ht, ha⟩ := hd
  cases ph <;> simpa only [Phase.Holds, hi, ht, ha] using h

/-- The edges of the phase graph: what one statement of a cutover may do. -/
inductive Phase.Next (plan : DatabaseCutoverPlan sha256) : Phase → Statement → Phase → Prop where
  | moveAside : plan.target_oid ≠ none →
      Next plan .ready (.renameDatabase plan.target_db plan.aside_db) .movedAside
  | promoteFirst : plan.target_oid = none →
      Next plan .ready (.renameDatabase plan.incoming_db plan.target_db) .promoted
  | promote : Next plan .movedAside (.renameDatabase plan.incoming_db plan.target_db) .promoted
  | moveBack : Next plan .movedAside (.renameDatabase plan.aside_db plan.target_db) .ready
  | finalize : plan.target_oid ≠ none →
      Next plan .promoted (.dropDatabase plan.aside_db) .finalized

theorem nameFault_none {name f g : String} (h : nameFault name f = none) :
    nameFault name g = none := by
  unfold nameFault at h ⊢
  split at h
  · cases h
  split at h
  · cases h
  split at h
  · cases h
  next h₁ h₂ h₃ => simp only [h₁, h₂, h₃, ↓reduceIte, Bool.false_eq_true]

theorem nameFault_no_nul {name f : String} (h : nameFault name f = none) :
    name.toList.contains '\x00' = false := by
  unfold nameFault at h
  split at h
  · cases h
  split at h
  · cases h
  next hnul => simpa using hnul

theorem orElse_none {a b : Option String} (h : (a <|> b) = none) : a = none ∧ b = none := by
  cases a with
  | none => exact ⟨rfl, h⟩
  | some x => cases h

theorem ite_some_none {p : Prop} [Decidable p] {x : String}
    (h : (if p then some x else none) = none) : ¬ p := by
  split at h
  · cases h
  · assumption

/-- What passes the checks of `database_cutover_aside_name`. -/
structure NamesPass (target_db incoming_db aside_db cutover_id f : String) : Prop where
  target : nameFault target_db f = none
  incoming : nameFault incoming_db f = none
  aside : nameFault aside_db f = none
  id_ne : cutover_id.toList ≠ []
  id_no_nul : ¬ cutover_id.toList.contains '\x00' = true

theorem asideFault_none {t i k : String} (f : String) (h : asideFault sha256 t i k = none) :
    NamesPass t i (asideName sha256 t i k) k f := by
  unfold asideFault at h
  obtain ⟨ht, h⟩ := orElse_none h
  obtain ⟨hi, h⟩ := orElse_none h
  obtain ⟨hk, h⟩ := orElse_none h
  obtain ⟨hnul, ha⟩ := orElse_none h
  exact ⟨nameFault_none ht, nameFault_none hi, nameFault_none ha, ite_some_none hk,
    ite_some_none hnul⟩

theorem plan_names (plan : DatabaseCutoverPlan sha256) (f : String) :
    nameFault plan.target_db f = none ∧ nameFault plan.incoming_db f = none ∧
      nameFault plan.aside_db f = none := by
  have h := asideFault_none f plan.names_valid.1
  rw [← plan.aside_eq] at h
  exact ⟨h.target, h.incoming, h.aside⟩

theorem serverName_of_nameFault {n f : String} (h : nameFault n f = none) :
    serverName n = n := by
  unfold nameFault at h
  split at h
  · cases h
  split at h
  · cases h
  split at h
  · cases h
  next hle => exact serverName_of_le (Nat.not_lt.mp hle)

theorem plan_serverName (plan : DatabaseCutoverPlan sha256) :
    serverName plan.target_db = plan.target_db ∧
      serverName plan.incoming_db = plan.incoming_db ∧
      serverName plan.aside_db = plan.aside_db := by
  obtain ⟨ht, hi, ha⟩ := plan_names plan "db_name"
  exact ⟨serverName_of_nameFault ht, serverName_of_nameFault hi, serverName_of_nameFault ha⟩

theorem executes_rename {c d : Catalog} {old new : DbName} (hold : serverName old = old)
    (hnew : serverName new = new) (h : Executes c (.renameDatabase old new) d) :
    ∃ o, c old = some o ∧ c new = none ∧ d = c.move old new o := by
  cases h with
  | rename ho hn =>
    rw [hold] at ho
    rw [hnew] at hn
    exact ⟨_, ho, hn, by rw [hold, hnew]⟩

theorem moveAside_phase {c d : Catalog} (hp : Captured plan) (hn : plan.target_oid ≠ none)
    (h : Phase.ready.Holds plan c)
    (hx : Executes c (.renameDatabase plan.target_db plan.aside_db) d) :
    Phase.movedAside.Holds plan d := by
  obtain ⟨hi, ht, ha⟩ := h
  obtain ⟨hst, hsi, hsa⟩ := plan_serverName plan
  obtain ⟨o, ho, -, rfl⟩ := executes_rename hst hsa hx
  have hat := hp.aside_ne_target hn
  refine ⟨hn, ?_, Catalog.move_old _ _ (Ne.symm hat), ?_⟩
  · rw [Catalog.move_other _ _ plan.incoming_ne_target (Ne.symm hp.aside_ne_incoming)]
    exact hi
  · rw [Catalog.move_new, ← ho, ht]

theorem promote_phase {c d : Catalog} (hp : Captured plan)
    (h : Phase.movedAside.Holds plan c)
    (hx : Executes c (.renameDatabase plan.incoming_db plan.target_db) d) :
    Phase.promoted.Holds plan d := by
  obtain ⟨hn, hi, ht, ha⟩ := h
  obtain ⟨hst, hsi, -⟩ := plan_serverName plan
  obtain ⟨o, ho, -, rfl⟩ := executes_rename hsi hst hx
  refine ⟨Catalog.move_old _ _ plan.incoming_ne_target, ?_, fun hat => ?_⟩
  · rw [Catalog.move_new, ← ho, hi]
  · rw [Catalog.move_other _ _ hp.aside_ne_incoming hat]
    exact ha

theorem promoteFirst_phase {c d : Catalog} (hp : Captured plan) (hn : plan.target_oid = none)
    (h : Phase.ready.Holds plan c)
    (hx : Executes c (.renameDatabase plan.incoming_db plan.target_db) d) :
    Phase.promoted.Holds plan d := by
  obtain ⟨hi, ht, ha⟩ := h
  obtain ⟨hst, hsi, -⟩ := plan_serverName plan
  obtain ⟨o, ho, -, rfl⟩ := executes_rename hsi hst hx
  refine ⟨Catalog.move_old _ _ plan.incoming_ne_target, ?_, fun hat => ?_⟩
  · rw [Catalog.move_new, ← ho, hi]
  · rw [Catalog.move_other _ _ hp.aside_ne_incoming hat, ha, hn]

theorem moveBack_phase {c d : Catalog} (hp : Captured plan)
    (h : Phase.movedAside.Holds plan c)
    (hx : Executes c (.renameDatabase plan.aside_db plan.target_db) d) :
    Phase.ready.Holds plan d := by
  obtain ⟨hn, hi, ht, ha⟩ := h
  obtain ⟨hst, -, hsa⟩ := plan_serverName plan
  obtain ⟨o, ho, -, rfl⟩ := executes_rename hsa hst hx
  have hat := hp.aside_ne_target hn
  refine ⟨?_, ?_, Catalog.move_old _ _ hat⟩
  · rw [Catalog.move_other _ _ (Ne.symm hp.aside_ne_incoming) plan.incoming_ne_target]
    exact hi
  · rw [Catalog.move_new, ← ho, ha]

theorem finalize_phase {c d : Catalog} (hp : Captured plan) (hn : plan.target_oid ≠ none)
    (h : Phase.promoted.Holds plan c)
    (hx : Executes c (.dropDatabase plan.aside_db) d) :
    Phase.finalized.Holds plan d := by
  obtain ⟨hi, ht, ha⟩ := h
  have hat := hp.aside_ne_target hn
  cases hx with
  | drop =>
    rw [(plan_serverName plan).2.2]
    refine ⟨hn, ?_, ?_, Catalog.drop_self _ _⟩
    · rw [Catalog.drop_other _ (Ne.symm hp.aside_ne_incoming)]
      exact hi
    · rw [Catalog.drop_other _ (Ne.symm hat)]
      exact ht

/-- Statements refine the phase graph. -/
theorem Phase.Next.refines {ph ph' : Phase} {sql : Statement} {c d : Catalog}
    (hp : Captured plan) (hn : ph.Next plan sql ph') (h : ph.Holds plan c)
    (hx : Executes c sql d) : ph'.Holds plan d := by
  cases hn with
  | moveAside hn => exact moveAside_phase hp hn h hx
  | promoteFirst hn => exact promoteFirst_phase hp hn h hx
  | promote => exact promote_phase hp h hx
  | moveBack => exact moveBack_phase hp h hx
  | finalize hn => exact finalize_phase hp hn h hx

/-- While the old database still bears the target name, the incoming one cannot. -/
theorem promote_refused {c d : Catalog} (hn : plan.target_oid ≠ none)
    (h : Phase.ready.Holds plan c) :
    ¬ Executes c (.renameDatabase plan.incoming_db plan.target_db) d := by
  intro hx
  obtain ⟨hst, hsi, -⟩ := plan_serverName plan
  obtain ⟨o, -, hfree, -⟩ := executes_rename hsi hst hx
  exact hn (h.2.1.symm.trans hfree)

/-! ## The phases along a run -/

/-- Nobody else touches the three names, and every call is put on record. -/
abbrev lossyServerOn (i t a : DbName) : World Adapter (Catalog × List AdapterCall) :=
  (faulty.under (SameOn i t a)).logged

abbrev lossyServer (plan : DatabaseCutoverPlan sha256) :
    World Adapter (Catalog × List AdapterCall) :=
  lossyServerOn plan.incoming_db plan.target_db plan.aside_db

/-- Calls that left the three names alone. -/
def Quiet (i t a : DbName) (s u : Catalog × List AdapterCall) : Prop :=
  SameOn i t a s.1 u.1 ∧ s.2 <+: u.2

theorem quiet_refl {i t a : DbName} (s : Catalog × List AdapterCall) : Quiet i t a s s :=
  ⟨sameOn_refl _, List.prefix_refl _⟩

theorem quiet_trans {i t a : DbName} {s u v : Catalog × List AdapterCall}
    (h : Quiet i t a s u) (k : Quiet i t a u v) : Quiet i t a s v :=
  ⟨sameOn_trans h.1 k.1, h.2.trans k.2⟩

def dropCall (plan : DatabaseCutoverPlan sha256) : AdapterCall :=
  .psql plan.maintenance_db (.dropDatabase plan.aside_db)

/-- The cluster is in the phase, and the drop is on record if the old database is gone. -/
def At (plan : DatabaseCutoverPlan sha256) (ph : Phase) (s : Catalog × List AdapterCall) :
    Prop := ph.Holds plan s.1 ∧ (ph = .finalized → dropCall plan ∈ s.2)

/-- An effect of the call moves the cluster along an edge out of the phase. -/
def Moves (plan : DatabaseCutoverPlan sha256) (ph : Phase) (c : Catalog) (o : AdapterCall)
    (d : Catalog) : Prop :=
  ∃ m sql ph', o = .psql m sql ∧ Executes c sql d ∧ ph.Next plan sql ph'

/-- What holds whenever a cutover issues a call; `mayDrop` fences the only drop. -/
def Issued (plan : DatabaseCutoverPlan sha256) (mayDrop : Prop) (o : AdapterCall)
    (s : Catalog × List AdapterCall) : Prop :=
  (∃ ph, At plan ph s ∧ ∀ d, Affects s.1 o d → d = s.1 ∨ Moves plan ph s.1 o d) ∧
  ∀ m n, o = .psql m (.dropDatabase n) →
    mayDrop ∧ o = dropCall plan ∧ plan.target_oid ≠ none ∧ At plan .promoted s

theorem At.of_quiet {ph : Phase} {s u : Catalog × List AdapterCall} (h : At plan ph s)
    (hq : Quiet plan.incoming_db plan.target_db plan.aside_db s u) : At plan ph u :=
  ⟨h.1.of_sameNames hq.1, fun hf => hq.2.subset (h.2 hf)⟩

theorem validated_oid_scalar (c : Catalog) (n name : DbName) :
    validated_oid (c.scalar n) name = .ok (c (serverName n)) := by
  unfold Catalog.scalar
  cases hc : c (serverName n) with
  | none => rfl
  | some o =>
    have hr : 1 ≤ o.val ∧ o.val ≤ 0xFFFFFFFF := ⟨o.pos, o.le⟩
    simp only [validated_oid, Int.toNat_natCast, hr, and_self, ↓reduceDIte]

theorem oidReply_truthful {c : Catalog} {n : DbName} {r : Except AdapterError Scalar}
    {v : Option Oid} (hr : ∀ value, r = .ok value → value = c.scalar n)
    (hv : oidReply n r = .ok v) : v = c (serverName n) := by
  cases r with
  | error e => cases hv
  | ok value =>
    rw [hr value rfl] at hv
    exact Except.ok.inj (hv.symm.trans (validated_oid_scalar c n n))

variable {mayDrop : Prop} {ph : Phase} {s : Catalog × List AdapterCall}

theorem issued_of_unaffected {o : AdapterCall} (h : At plan ph s)
    (ho : ∀ d, ¬ Affects s.1 o d) : Issued plan mayDrop o s := by
  refine ⟨⟨ph, h, fun d hd => absurd hd (ho d)⟩, ?_⟩
  rintro m n rfl
  exact absurd (.psql (.drop _ _)) (ho _)

theorem quiet_of_unaffected {i t a : DbName} {s u : Catalog × List AdapterCall} {c : Catalog}
    {o : AdapterCall} (hc : c = s.1 ∨ Affects s.1 o c) (ho : ∀ d, ¬ Affects s.1 o d)
    (hs : SameOn i t a c u.1) (hl : u.2 = s.2 ++ [o]) : Quiet i t a s u := by
  have heq : c = s.1 := hc.resolve_right (ho c)
  exact ⟨heq ▸ hs, hl ▸ List.prefix_append _ _⟩

/-- A call that leaves the cluster as it is. -/
def Inert (c : Catalog) (o : AdapterCall) : Prop :=
  (∀ d, Affects c o d → d = c) ∧ ∀ m n, o ≠ .psql m (.dropDatabase n)

theorem inert_of_unaffected {c : Catalog} {o : AdapterCall} (ho : ∀ d, ¬ Affects c o d) :
    Inert c o := by
  refine ⟨fun d hd => absurd hd (ho d), ?_⟩
  rintro m n rfl
  exact ho _ (.psql (.drop c n))

theorem quiet_step {i t a : DbName} {u : Catalog × List AdapterCall} {o : AdapterCall}
    {r : Except AdapterError o.Answer} (ho : Inert s.1 o) (h : lossyServerOn i t a o s r u) :
    Quiet i t a s u := by
  obtain ⟨⟨c, ⟨-, hc⟩, hs⟩, hl⟩ := h
  have heq : c = s.1 := hc.elim id (ho.1 c)
  exact ⟨heq ▸ hs, hl ▸ List.prefix_append _ _⟩

/-- A lookup returns the OID that the catalog has for the name, or raises. -/
theorem wp_lookup {i t a n m : DbName} {I : AdapterCall → Catalog × List AdapterCall → Prop}
    {Q : Except SwapError (Option Oid) → _ → Prop} (hfit : serverName n = n)
    (hI : ∀ o, (∀ d, ¬ Affects s.1 o d) → I o s)
    (hq : ∀ u r, Quiet i t a s u → (∀ v, r = .ok v → v = s.1 n) → Q r u) :
    wp (lossyServerOn i t a) I (database_oid pg n m) Q s := by
  have hfail : ∀ e : SwapError, Q (.error e) s := fun e =>
    hq s _ (quiet_refl s) (by rintro v hv; cases hv)
  rw [← hfit] at hq
  unfold database_oid
  split
  · rw [wp_bind', wp_ofExcept]
    split
    · refine wp_perform.mpr ⟨hI _ (by rintro d ⟨⟩), ?_⟩
      rintro r u ⟨⟨c, ⟨htrue, hc⟩, hs⟩, hl⟩
      refine hq u _ (quiet_of_unaffected hc (by rintro d ⟨⟩) hs hl) fun v hv =>
        oidReply_truthful (fun value hr => ?_) hv
      subst hr
      exact htrue
    · exact hfail _
  · split
    · refine wp_perform.mpr ⟨hI _ (by rintro d ⟨⟩), ?_⟩
      rintro r u ⟨⟨c, ⟨htrue, hc⟩, hs⟩, hl⟩
      refine hq u _ (quiet_of_unaffected hc (by rintro d ⟨⟩) hs hl) fun v hv =>
        oidReply_truthful (fun value hr => ?_) hv
      subst hr
      exact htrue
    · exact hfail _

/-- During a cutover a lookup leaves the phase as it is. -/
theorem wp_database_oid {n m : DbName} {Q : Except SwapError (Option Oid) → _ → Prop}
    (h : At plan ph s) (hfit : serverName n = n)
    (hq : ∀ t r, At plan ph t → SameNames plan s.1 t.1 → (∀ v, r = .ok v → v = s.1 n) → Q r t) :
    wp (lossyServer plan) (Issued plan mayDrop) (database_oid pg n m) Q s :=
  wp_lookup hfit (fun _ ho => issued_of_unaffected h ho) fun u r hu hv =>
    hq u r (h.of_quiet hu) hu.1 hv

/-- A classified observation names the phase that the cluster is in. -/
theorem states_phase {c : Catalog} {st : DatabaseCutoverState} (h : ph.Holds plan c)
    (hl : plan.states.lookup (c plan.incoming_db, c plan.target_db, c plan.aside_db) = some st) :
    st = ph.state ∧ (ph = .promoted → c plan.aside_db = plan.target_oid) := by
  have hmem : ((c plan.incoming_db, c plan.target_db, c plan.aside_db), st) ∈ plan.states := by
    obtain ⟨l₁, l₂, he, -⟩ := List.lookup_eq_some_iff.mp hl
    simp [he]
  cases hto : plan.target_oid with
  | none => cases ph <;> simp_all [DatabaseCutoverPlan.states, Phase.Holds, Phase.state]
  | some o =>
    have hne : o ≠ plan.incoming_oid := fun he => plan.oids_distinct (by rw [hto, he])
    cases ph <;> simp_all [DatabaseCutoverPlan.states, Phase.Holds, Phase.state]
    grind

/-- A reconciliation that fails reports a state that proves nothing. -/
def Unsettled (e : SwapError) : Prop :=
  ∃ kind message status, e = .cutover kind message status ∧ kind ≠ .cleanup ∧
    (status.state = .UNKNOWN ∨ status.state = .CONFLICT)

/-- A status that a reconciliation returned, and the phase that it describes. -/
structure Observed (plan : DatabaseCutoverPlan sha256) (ph : Phase)
    (status : DatabaseCutoverStatus) (t : Catalog × List AdapterCall) : Prop where
  here : At plan ph t
  state : status.state = ph.state
  aside : ph = .promoted → t.1 plan.aside_db = plan.target_oid

theorem wp_reconcile {Q : Except SwapError DatabaseCutoverStatus → _ → Prop}
    (h : At plan ph s)
    (hok : ∀ t status, Observed plan ph status t → Q (.ok status) t)
    (herr : ∀ t e, At plan ph t → Unsettled e → Q (.error e) t) :
    wp (lossyServer plan) (Issued plan mayDrop) (reconcile_database_cutover pg plan) Q s := by
  have hunknown : ∀ t, At plan ph t → Q (.error (.cutover .error
      "Could not determine the database cutover state" unknown_cutover_status)) t :=
    fun t ht => herr t _ ht ⟨_, _, _, rfl, by decide, .inl rfl⟩
  unfold reconcile_database_cutover
  simp only [wp_bind', wp_attempt, wp_pure']
  obtain ⟨hst, hsi, hsa⟩ := plan_serverName plan
  refine wp_database_oid h hsi fun t₁ r₁ h₁ hs₁ hv₁ => ?_
  cases r₁ with
  | error e => exact hunknown t₁ h₁
  | ok incoming_oid =>
  refine wp_database_oid h₁ hst fun t₂ r₂ h₂ hs₂ hv₂ => ?_
  cases r₂ with
  | error e => exact hunknown t₂ h₂
  | ok target_oid =>
  refine wp_database_oid h₂ hsa fun t₃ r₃ h₃ hs₃ hv₃ => ?_
  cases r₃ with
  | error e => exact hunknown t₃ h₃
  | ok aside_oid =>
  -- the three lookups happen at different moments, yet the names did not move between them
  have hi : incoming_oid = t₃.1 plan.incoming_db := by rw [hv₁ _ rfl, hs₃.1, hs₂.1, hs₁.1]
  have ht : target_oid = t₃.1 plan.target_db := by rw [hv₂ _ rfl, hs₃.2.1, hs₂.2.1]
  have ha : aside_oid = t₃.1 plan.aside_db := by rw [hv₃ _ rfl, hs₃.2.2]
  simp only
  split
  · exact herr t₃ _ h₃ ⟨_, _, _, rfl, by decide, .inr rfl⟩
  · next st hst =>
    rw [hi, ht, ha] at hst
    obtain ⟨hstate, haside⟩ := states_phase h₃.1 hst
    exact hok t₃ _ ⟨h₃, hstate, haside⟩

/-- A statement either leaves the phase alone or moves along an edge; its report says
nothing. -/
theorem wp_psql {sql : Statement} {Q : Except SwapError Unit → _ → Prop} (hp : Captured plan)
    (h : At plan ph s)
    (hmay : ∀ n, sql = .dropDatabase n →
      mayDrop ∧ .psql plan.maintenance_db sql = dropCall plan ∧ plan.target_oid ≠ none ∧
        ph = .promoted)
    (hmove : ∀ d, Executes s.1 sql d → d = s.1 ∨ ∃ ph', ph.Next plan sql ph')
    (hq : ∀ t r ph', ph' = ph ∨ ph.Next plan sql ph' → At plan ph' t → Q r t) :
    wp (lossyServer plan) (Issued plan mayDrop) (psql plan.maintenance_db sql) Q s := by
  refine wp_perform.mpr ⟨⟨⟨ph, h, ?_⟩, ?_⟩, ?_⟩
  · rintro d ⟨hx⟩
    rcases hmove d hx with hd | ⟨ph', hn⟩
    · exact .inl hd
    · exact .inr ⟨_, sql, ph', rfl, hx, hn⟩
  · rintro m n heq
    obtain ⟨rfl, rfl⟩ : plan.maintenance_db = m ∧ sql = .dropDatabase n := by simpa using heq
    obtain ⟨hd, hcall, hto, rfl⟩ := hmay n rfl
    exact ⟨hd, hcall, hto, h⟩
  · rintro r t ⟨⟨u, ⟨-, hu⟩, hc⟩, hl⟩
    have hstill : u = s.1 → ∀ x, Q x t := fun he x =>
      hq t x ph (.inl rfl) (h.of_quiet ⟨he ▸ hc, hl ▸ List.prefix_append _ _⟩)
    rcases hu with hu | hu
    · exact hstill hu _
    · cases hu with
      | psql hx =>
        rcases hmove u hx with hd | ⟨ph', hn⟩
        · exact hstill hd _
        · refine hq t _ ph' (.inr hn) ⟨(hn.refines hp h.1 hx).of_sameNames hc, fun hf => ?_⟩
          subst hf
          cases hn
          rw [hl]
          exact List.mem_append_right _ (by simp [dropCall])

theorem wp_terminate {n : DbName} {Q : Except SwapError Unit → _ → Prop} (hp : Captured plan)
    (h : At plan ph s) (hq : ∀ t r, At plan ph t → Q r t) :
    wp (lossyServer plan) (Issued plan mayDrop)
      (terminate_connections n plan.maintenance_db) Q s := by
  refine wp_psql hp h (by simp) (fun d hx => .inl ?_) ?_
  · cases hx
    rfl
  · rintro t r ph' (rfl | ⟨⟨⟩⟩) ht
    exact hq t r ht

theorem wp_rename {old new : DbName} {Q : Except SwapError Unit → _ → Prop}
    (hp : Captured plan) (h : At plan ph s)
    (hmove : ∀ d, Executes s.1 (.renameDatabase old new) d →
      ∃ ph', ph.Next plan (.renameDatabase old new) ph')
    (hq : ∀ t r ph', ph' = ph ∨ ph.Next plan (.renameDatabase old new) ph' →
      At plan ph' t → Q r t) :
    wp (lossyServer plan) (Issued plan mayDrop)
      (rename_database old new plan.maintenance_db) Q s := by
  unfold rename_database quote_identifier
  rw [wp_bind']
  split
  · exact hq s _ ph (.inl rfl) h
  · simp only [wp_pure, wp_bind']
    split
    · exact hq s _ ph (.inl rfl) h
    · exact wp_psql hp h (by simp) (fun d hx => .inr (hmove d hx)) hq

/-- What promotion guarantees: some phase always, and a promoted one when it returns. -/
def PromotePost (plan : DatabaseCutoverPlan sha256) (r : Except SwapError DatabaseCutoverStatus)
    (t : Catalog × List AdapterCall) : Prop :=
  (∃ ph, At plan ph t) ∧ ∀ status, r = .ok status → status.isPromoted = true ∧
    (At plan .promoted t ∨ At plan .finalized t)

theorem promotePost_error {e : SwapError} {t : Catalog × List AdapterCall}
    (h : At plan ph t) : PromotePost plan (.error e) t :=
  ⟨⟨ph, h⟩, by rintro status hs; cases hs⟩

theorem isPromoted_iff {status : DatabaseCutoverStatus} (hs : status.state = ph.state) :
    status.isPromoted = true ↔ ph = .promoted ∨ ph = .finalized := by
  cases ph <;> simp [DatabaseCutoverStatus.isPromoted, DatabaseCutoverStatus.promoted, hs,
    Phase.state]

theorem promotePost_ok {status : DatabaseCutoverStatus} {t : Catalog × List AdapterCall}
    (h : Observed plan ph status t) (hpr : status.isPromoted = true) :
    PromotePost plan (.ok status) t := by
  refine ⟨⟨ph, h.here⟩, fun st hst => ?_⟩
  cases hst
  rcases (isPromoted_iff h.state).mp hpr with rfl | rfl
  · exact ⟨hpr, .inl h.here⟩
  · exact ⟨hpr, .inr h.here⟩

theorem wp_cutover_failure {message : String}
    {Q : Except SwapError (SwapError × DatabaseCutoverStatus) → _ → Prop} (h : At plan ph s)
    (hok : ∀ t status, Observed plan ph status t →
      Q (.ok (.cutover .error message status, status)) t)
    (herr : ∀ t m status, At plan ph t → status.state = .UNKNOWN ∨ status.state = .CONFLICT →
      Q (.ok (.cutover .error m status, status)) t) :
    wp (lossyServer plan) (Issued plan mayDrop) (cutover_failure pg plan message) Q s := by
  unfold cutover_failure
  simp only [wp_bind', wp_attempt]
  refine wp_reconcile h hok ?_
  rintro t e ht ⟨kind, m, status, rfl, -, hst⟩
  exact herr t _ status ht hst

theorem Unsettled.not_promoted {e : SwapError} (h : Unsettled e) : e.promoted = none := by
  obtain ⟨kind, m, status, rfl, hk, hs⟩ := h
  cases kind <;> rcases hs with hs | hs <;>
    simp_all [SwapError.promoted, DatabaseCutoverStatus.promoted]

theorem wp_reraise {kind : CutoverErrorKind} {m : String} {e : SwapError}
    (h : At plan ph s) (he : Unsettled e) :
    wp (lossyServer plan) (Issued plan mayDrop) (reraise kind m e) (PromotePost plan) s := by
  obtain ⟨k, m', status, rfl, -, -⟩ := he
  exact promotePost_error h

theorem wp_restore_old_target (hp : Captured plan) (h : At plan .movedAside s) :
    wp (lossyServer plan) (Issued plan mayDrop)
      (restore_old_target_after_failed_promotion pg plan) (PromotePost plan) s := by
  unfold restore_old_target_after_failed_promotion
  simp only [wp_bind', wp_attempt]
  refine wp_rename hp h (fun d _ => ⟨.ready, .moveBack⟩) ?_
  rintro t (e | ⟨⟩) ph' - ht
  · simp only [wp_bind']
    refine wp_cutover_failure ht (fun u status hu => ?_) (fun u m status hu hst => ?_)
    · simp only
      split
      · exact promotePost_error hu.here
      · split
        · next hpr =>
          have hpr' : status.isPromoted = true := by
            simpa [DatabaseCutoverStatus.isPromoted, SwapError.promoted] using hpr
          exact promotePost_ok hu hpr'
        · exact promotePost_error hu.here
    · rcases hst with hst | hst <;>
        simpa [hst, SwapError.promoted, DatabaseCutoverStatus.promoted] using
          promotePost_error hu
  · simp only [wp_bind', wp_attempt]
    refine wp_reconcile ht (fun u status hu => ?_) fun u e hu he => wp_reraise hu he
    simp only
    split <;> exact promotePost_error hu.here

/-- From any phase that the status describes, the last leg of a promotion keeps both
databases and returns only with the incoming one live. -/
theorem wp_promote_incoming {status : DatabaseCutoverStatus} (hp : Captured plan)
    (h : Observed plan ph status s) :
    wp (lossyServer plan) (Issued plan mayDrop) (promote_incoming pg plan status)
      (PromotePost plan) s := by
  unfold promote_incoming
  split
  · next hpr => exact promotePost_ok h hpr
  split
  · exact promotePost_error h.here
  next hnp hst =>
  have hs := h.state
  have hmove : ∀ d, Executes s.1 (.renameDatabase plan.incoming_db plan.target_db) d →
      ∃ ph', ph.Next plan (.renameDatabase plan.incoming_db plan.target_db) ph' := by
    intro d hx
    have hph : ph = .ready ∨ ph = .movedAside := by
      cases ph <;> simp_all [Phase.state, DatabaseCutoverStatus.isPromoted,
        DatabaseCutoverStatus.promoted]
    rcases hph with rfl | rfl
    · by_cases hto : plan.target_oid = none
      · exact ⟨_, .promoteFirst hto⟩
      · exact absurd hx (promote_refused hto h.here.1)
    · exact ⟨_, .promote⟩
  simp only [wp_bind', wp_attempt]
  refine wp_rename hp h.here hmove ?_
  rintro t (e | ⟨⟩) ph' - ht
  · simp only [wp_bind', wp_attempt]
    refine wp_reconcile ht (fun u after hu => ?_) fun u e hu he => wp_reraise hu he
    simp only
    split
    · next hpr => exact promotePost_ok hu hpr
    split
    · next haside =>
      rw [hu.state] at haside
      have hph : ph' = .movedAside := by cases ph' <;> simp_all [Phase.state]
      subst hph
      rw [wp_bind']
      refine wp_post (wp_restore_old_target hp hu.here) fun r v hv => ?_
      obtain ⟨⟨q, hq⟩, hret⟩ := hv
      cases r with
      | error e => exact promotePost_error hq
      | ok result =>
        have hres := hret result rfl
        simp only [hres.1, ↓reduceIte]
        exact ⟨⟨q, hq⟩, hret⟩
    · exact promotePost_error hu.here
  · simp only [wp_bind', wp_attempt]
    refine wp_reconcile ht (fun u promoted hu => ?_) fun u e hu he => wp_reraise hu he
    simp only
    split
    · next hpr => exact promotePost_ok hu hpr
    · exact promotePost_error hu.here

theorem wp_promote (hp : Captured plan) (h : At plan ph s) :
    wp (lossyServer plan) (Issued plan mayDrop) (promote_database_cutover pg plan)
      (PromotePost plan) s := by
  have hunsettled : ∀ t e, (∃ q, At plan q t) → Unsettled e →
      PromotePost plan (.error e) t := fun t e ⟨q, hq⟩ _ => promotePost_error hq
  unfold promote_database_cutover
  rw [wp_bind']
  refine wp_reconcile h (fun t status ht => ?_) fun t e ht he => hunsettled t e ⟨_, ht⟩ he
  simp only
  split
  · next hpr => exact promotePost_ok ht hpr
  split
  case isFalse => exact wp_promote_incoming hp ht
  next hfirst =>
  simp only [wp_bind', wp_attempt]
  refine wp_terminate hp ht.here fun t r ht => ?_
  rcases r with e | ⟨⟩
  · simp only [wp_bind']
    refine wp_cutover_failure ht (fun u status hu => ?_) (fun u m status hu hst => ?_)
    · simp only
      split
      · next hpr =>
        have hpr' : status.isPromoted = true := by
          simpa [DatabaseCutoverStatus.isPromoted, SwapError.promoted] using hpr
        exact promotePost_ok hu hpr'
      · exact promotePost_error hu.here
    · rcases hst with hst | hst <;>
        simpa [hst, SwapError.promoted, DatabaseCutoverStatus.promoted] using
          promotePost_error hu
  simp only [wp_bind']
  refine wp_reconcile ht (fun t status ht => ?_) fun t e ht he => hunsettled t e ⟨_, ht⟩ he
  simp only
  split
  · next hpr => exact promotePost_ok ht hpr
  split
  case isFalse =>
    split
    · exact promotePost_error ht.here
    · exact wp_promote_incoming hp ht
  next hready =>
  have hph : ph = .ready := by
    rw [ht.state] at hready
    cases ph <;> simp_all [Phase.state]
  subst hph
  simp only [wp_bind', wp_attempt]
  refine wp_rename hp ht.here (fun d _ => ⟨_, .moveAside hfirst.2⟩) ?_
  rintro t (e | ⟨⟩) ph' - ht
  · simp only [wp_bind']
    refine wp_cutover_failure ht (fun u status hu => ?_) (fun u m status hu hst => ?_)
    · simp only
      split
      · exact wp_promote_incoming hp hu
      split
      · next hpr =>
        have hpr' : status.isPromoted = true := by
          simpa [DatabaseCutoverStatus.isPromoted, SwapError.promoted] using hpr
        exact promotePost_ok hu hpr'
      · exact promotePost_error hu.here
    · rcases hst with hst | hst <;>
        simpa [hst, SwapError.promoted, DatabaseCutoverStatus.promoted] using
          promotePost_error hu
  · simp only [wp_bind']
    refine wp_reconcile ht (fun t status ht => ?_) fun t e ht he =>
      hunsettled t e ⟨_, ht⟩ he
    exact wp_promote_incoming hp ht

/-- What finalization guarantees: some phase always, and no old database when it returns. -/
def FinalizePost (plan : DatabaseCutoverPlan sha256)
    (r : Except SwapError DatabaseCutoverStatus) (t : Catalog × List AdapterCall) : Prop :=
  (∃ ph, At plan ph t) ∧ ∀ status, r = .ok status → status.isPromoted = true ∧
    (At plan .finalized t ∨ plan.target_oid = none ∧ At plan .promoted t ∧
      t.1 plan.aside_db = none)

theorem finalizePost_error {e : SwapError} {t : Catalog × List AdapterCall}
    (h : At plan ph t) : FinalizePost plan (.error e) t :=
  ⟨⟨ph, h⟩, by rintro status hs; cases hs⟩

theorem finalizePost_ok {status : DatabaseCutoverStatus} {t : Catalog × List AdapterCall}
    (h : Observed plan ph status t) (hf : status.state = .FINALIZED) :
    FinalizePost plan (.ok status) t := by
  refine ⟨⟨ph, h.here⟩, fun st hst => ?_⟩
  cases hst
  have hs := h.state
  have hph : ph = .finalized := by
    rw [hs] at hf
    cases ph <;> simp_all [Phase.state]
  subst hph
  exact ⟨(isPromoted_iff hs).mpr (.inr rfl), .inl h.here⟩

theorem wp_finalize {durable : Bool} (hp : Captured plan) (h : At plan ph s)
    (hmay : durable = true → mayDrop) :
    wp (lossyServer plan) (Issued plan mayDrop) (finalize_database_cutover pg plan durable)
      (FinalizePost plan) s := by
  have hreraise : ∀ {kind m e t q}, At plan q t → Unsettled e →
      wp (lossyServer plan) (Issued plan mayDrop) (reraise kind m e) (FinalizePost plan) t := by
    rintro kind m e t q ht ⟨k, m', status, rfl, -, -⟩
    exact finalizePost_error ht
  unfold finalize_database_cutover
  split
  · exact finalizePost_error h
  next hdurable =>
  have hmay' : mayDrop := hmay (by simpa using hdurable)
  rw [wp_bind']
  refine wp_reconcile h (fun t status ht => ?_) fun t e ht he => finalizePost_error ht
  simp only
  split
  · exact finalizePost_error ht.here
  next hpr =>
  split
  · next hf => exact finalizePost_ok ht hf
  next hnf =>
  have hph : ph = .promoted := by
    rcases (isPromoted_iff ht.state).mp (by simpa using hpr) with rfl | rfl
    · rfl
    · exact absurd ht.state hnf
  subst hph
  split
  · next hto =>
    refine ⟨⟨_, ht.here⟩, fun st hst => ?_⟩
    cases hst
    exact ⟨rfl, .inr ⟨hto, ht.here, hto ▸ ht.aside rfl⟩⟩
  next hto =>
  simp only [wp_bind', wp_attempt]
  refine wp_terminate hp ht.here fun t r ht => ?_
  rcases r with e | ⟨⟩
  · exact finalizePost_error ht
  simp only [wp_bind', wp_attempt]
  refine wp_reconcile ht (fun t status ht => ?_) fun t e ht he => hreraise ht he
  simp only
  split
  · next hf => exact finalizePost_ok ht hf
  split
  · exact finalizePost_error ht.here
  simp only [wp_bind', wp_attempt]
  unfold drop_database quote_identifier
  rw [wp_bind']
  split
  · simp only [wp_raise, wp_bind', wp_attempt]
    refine wp_reconcile ht.here (fun t status ht => ?_) fun t e ht he => hreraise ht he
    simp only
    split
    · next hf => exact finalizePost_ok ht hf
    · exact finalizePost_error ht.here
  simp only [wp_pure]
  refine wp_psql hp ht.here (fun n hn => ⟨hmay', rfl, hto, rfl⟩)
    (fun d _ => .inr ⟨_, .finalize hto⟩) ?_
  rintro t (e | ⟨⟩) q - ht <;> simp only [wp_bind', wp_attempt] <;>
    refine wp_reconcile ht (fun t status ht => ?_) fun t e ht he => hreraise ht he
  all_goals
    simp only
    split
    · next hf => exact finalizePost_ok ht hf
    · exact finalizePost_error ht.here

/-! ## Promotion is never undone -/

def Live (plan : DatabaseCutoverPlan sha256) (s : Catalog × List AdapterCall) : Prop :=
  At plan .promoted s ∨ At plan .finalized s

theorem live_phase (h : At plan ph s) (hl : Live plan s) :
    ph = .promoted ∨ ph = .finalized := by
  have hgone : s.1 plan.incoming_db = none := by
    rcases hl with hl | hl
    · exact hl.1.1
    · exact hl.1.2.1
  cases ph with
  | ready => exact absurd (h.1.1.symm.trans hgone) (by simp)
  | movedAside => exact absurd (h.1.2.1.symm.trans hgone) (by simp)
  | promoted => exact .inl rfl
  | finalized => exact .inr rfl

theorem live_step {o : AdapterCall} {r : Except AdapterError o.Answer}
    {t : Catalog × List AdapterCall} (hp : Captured plan) (hi : Issued plan mayDrop o s)
    (hl : Live plan s) (h : lossyServer plan o s r t) : Live plan t := by
  obtain ⟨ph, hat, hmoves⟩ := hi.1
  obtain ⟨⟨u, ⟨-, hu⟩, hsame⟩, hlog⟩ := h
  have hstill : u = s.1 → Live plan t := by
    rintro rfl
    have hq : Quiet plan.incoming_db plan.target_db plan.aside_db s t :=
      ⟨hsame, hlog ▸ List.prefix_append _ _⟩
    exact hl.imp (fun h => h.of_quiet hq) (fun h => h.of_quiet hq)
  rcases hu with hu | hu
  · exact hstill hu
  rcases hmoves u hu with hu | ⟨m, sql, ph', rfl, hx, hn⟩
  · exact hstill hu
  have hnext := (hn.refines hp hat.1 hx).of_sameNames hsame
  rcases live_phase hat hl with rfl | rfl
  · cases hn with
    | finalize hto =>
      refine .inr ⟨hnext, fun _ => ?_⟩
      have hdrop := (hi.2 m plan.aside_db rfl).2.1
      rw [hlog, hdrop]
      exact List.mem_append_right _ (List.mem_singleton.mpr rfl)
  · cases hn

/-! ## Captured plans -/

theorem init_fields {cutover_id : String} {incoming_db target_db aside_db m : DbName}
    {io : Oid} {tgt : Option Oid} {p : DatabaseCutoverPlan sha256}
    (h : DatabaseCutoverPlan.init sha256 cutover_id incoming_db target_db aside_db io tgt m =
      .ok p) :
    p.cutover_id = cutover_id ∧ p.incoming_db = incoming_db ∧ p.target_db = target_db ∧
    p.aside_db = aside_db ∧ p.incoming_oid = io ∧ p.target_oid = tgt ∧
    p.maintenance_db = m := by
  unfold DatabaseCutoverPlan.init at h
  repeat' split at h
  all_goals first
    | cases h; done
    | (cases h; exact ⟨rfl, rfl, rfl, rfl, rfl, rfl, rfl⟩)

theorem database_cutover_aside_name_ok {incoming_db target_db : DbName} {cutover_id : String}
    {n : DbName}
    (h : database_cutover_aside_name sha256 target_db incoming_db cutover_id = .ok n) :
    n = asideName sha256 target_db incoming_db cutover_id ∧
      NamesPass target_db incoming_db n cutover_id "db_name" := by
  unfold database_cutover_aside_name at h
  split at h
  · cases h
  · next hfault =>
    cases h
    exact ⟨rfl, asideFault_none _ hfault⟩

/-- A captured plan finds the cluster ready, its set-aside name free. -/
structure Fresh (sha256 : Sha256) (incoming_db target_db m : DbName) (cutover_id : String)
    (p : DatabaseCutoverPlan sha256) (c : Catalog) : Prop where
  captured : Captured p
  ready : Phase.ready.Holds p c
  incoming : p.incoming_db = incoming_db
  target : p.target_db = target_db
  id : p.cutover_id = cutover_id
  maintenance : p.maintenance_db = m

theorem wp_plan {incoming_db target_db m : DbName} {cutover_id : String} :
    wp (lossyServerOn incoming_db target_db (asideName sha256 target_db incoming_db cutover_id))
      (fun o u => Inert u.1 o)
      (plan_database_cutover sha256 pg incoming_db target_db cutover_id m)
      (fun r t => ∀ p, r = .ok p → Fresh sha256 incoming_db target_db m cutover_id p t.1) s := by
  have hfail : ∀ (e : SwapError) (t : Catalog × List AdapterCall)
      (p : DatabaseCutoverPlan sha256), Except.error e = .ok p →
        Fresh sha256 incoming_db target_db m cutover_id p t.1 := by
    intro e t p hp
    cases hp
  unfold plan_database_cutover
  simp only [wp_bind', wp_ofExcept]
  split
  swap
  · exact hfail _ _
  split
  swap
  · exact hfail _ _
  split
  swap
  · exact hfail _ _
  split
  · exact hfail _ _
  rw [wp_bind', wp_ofExcept]
  split
  swap
  · exact hfail _ _
  next aside_db haside =>
  obtain ⟨ha, hpass⟩ := database_cutover_aside_name_ok haside
  split
  · exact hfail _ _
  rw [wp_bind']
  refine wp_lookup (serverName_of_nameFault hpass.incoming)
    (fun _ ho => inert_of_unaffected ho) fun t₁ r₁ h₁ hv₁ => ?_
  cases r₁ with
  | error e => exact hfail _ _
  | ok incoming_oid =>
  cases incoming_oid with
  | none => exact hfail _ _
  | some io =>
  simp only [wp_bind']
  refine wp_lookup (serverName_of_nameFault hpass.target)
    (fun _ ho => inert_of_unaffected ho) fun t₂ r₂ h₂ hv₂ => ?_
  cases r₂ with
  | error e => exact hfail _ _
  | ok target_oid =>
  simp only
  refine wp_lookup (serverName_of_nameFault hpass.aside)
    (fun _ ho => inert_of_unaffected ho) fun t₃ r₃ h₃ hv₃ => ?_
  cases r₃ with
  | error e => exact hfail _ _
  | ok aside_oid =>
  simp only
  split
  · exact hfail _ _
  next hfree =>
  split
  · exact hfail _ _
  rw [wp_ofExcept]
  intro p hp
  obtain ⟨hid, hi, ht, haf, hio, hto, hm⟩ := init_fields hp
  have hin : t₃.1 incoming_db = some io := by
    rw [h₃.1.1, h₂.1.1, h₁.1.1]
    exact (hv₁ _ rfl).symm
  have htg : t₃.1 target_db = target_oid := by
    rw [h₃.1.2.1, h₂.1.2.1]
    exact (hv₂ _ rfl).symm
  have has : t₂.1 aside_db = none := by
    rw [← hv₃ _ rfl]
    exact not_not.mp hfree
  have has' : t₃.1 aside_db = none := by
    rw [ha] at has ⊢
    rw [h₃.1.2.2, has]
  refine ⟨⟨?_, ?_⟩, ?_, hi, ht, hid, hm⟩
  · intro he
    rw [haf, hi] at he
    rw [he, hin] at has'
    cases has'
  · intro hold he
    rw [haf, ht] at he
    rw [hto, ← htg, ← he] at hold
    exact hold has'
  · refine ⟨?_, ?_, ?_⟩
    · rw [hi, hio, hin]
    · rw [ht, hto, htg]
    · rw [haf, has']

/-! ## Runs of calls -/

inductive CutoverCall where
  | promote
  | finalize (cutover_durably_recorded : Bool)
  deriving DecidableEq, Repr

def body (pg : Hooks) (plan : DatabaseCutoverPlan sha256) :
    CutoverCall → SwapM DatabaseCutoverStatus
  | .promote => promote_database_cutover pg plan
  | .finalize durable => finalize_database_cutover pg plan durable

/-- What others may do between two calls. -/
def Elsewhere (plan : DatabaseCutoverPlan sha256) (s u : Catalog × List AdapterCall) : Prop :=
  SameNames plan s.1 u.1 ∧ u.2 = s.2

/-- The calls of a captured plan, each run to its end or killed at any statement. -/
abbrev CutoverRun (pg : Hooks) (plan : DatabaseCutoverPlan sha256) :
    Catalog × List AdapterCall → Catalog × List AdapterCall → Prop :=
  Session (lossyServer plan) (Elsewhere plan) (fun _ _ => True) (body pg plan)

theorem wp_body (hp : Captured plan) (h : At plan ph s) (call : CutoverCall) :
    wp (lossyServer plan) (Issued plan (call = .finalize true)) (body pg plan call)
      (fun _ t => ∃ ph, At plan ph t) s := by
  cases call with
  | promote => exact wp_post (wp_promote hp h) fun r t ht => ht.1
  | finalize durable =>
    refine wp_post (wp_finalize hp h ?_) fun r t ht => ht.1
    intro hd
    rw [hd]

theorem cutoverRun_phase {t : Catalog × List AdapterCall} (hp : Captured plan)
    (hs : ∃ ph, At plan ph s) (h : CutoverRun pg plan s t) : ∃ ph, At plan ph t := by
  refine h.invariant (P := fun u => ∃ ph, At plan ph u) hs ?_ ?_
  · rintro u v ⟨ph, hu⟩ ⟨hsame, hlog⟩
    exact ⟨ph, hu.of_quiet ⟨hsame, hlog ▸ List.prefix_refl _⟩⟩
  · rintro call u ⟨ph, hu⟩ -
    exact wp_mono (wp_body hp hu call) (fun o v hv => hv.1.imp fun q hq => hq.1)
      fun r v hv => hv

theorem At.incoming_present (h : At plan ph s) :
    s.1 plan.incoming_db = some plan.incoming_oid ∨
      s.1 plan.target_db = some plan.incoming_oid := by
  cases ph with
  | ready => exact .inl h.1.1
  | movedAside => exact .inl h.1.2.1
  | promoted => exact .inr h.1.2.1
  | finalized => exact .inr h.1.2.2.1

theorem At.old_present (hp : Captured plan) (h : At plan ph s) {o : Oid}
    (ho : plan.target_oid = some o) :
    s.1 plan.target_db = some o ∨ s.1 plan.aside_db = some o ∨ dropCall plan ∈ s.2 := by
  cases ph with
  | ready => exact .inl (h.1.2.1.trans ho)
  | movedAside => exact .inr (.inl (h.1.2.2.2.trans ho))
  | promoted =>
    have hne : plan.aside_db ≠ plan.target_db := hp.aside_ne_target (by simp [ho])
    exact .inr (.inl ((h.1.2.2 hne).trans ho))
  | finalized => exact .inr (.inr (h.2 rfl))

/-- Crash and lost-response safety of a cutover. -/
theorem cutover_never_loses_a_database {pg₀ : Hooks} {incoming_db target_db m : DbName}
    {cutover_id : String} {s₀ s₁ s : Catalog × List AdapterCall}
    (hplan : Ends
      (lossyServerOn incoming_db target_db (asideName sha256 target_db incoming_db cutover_id))
      s₀ (plan_database_cutover sha256 pg₀ incoming_db target_db cutover_id m) (.ok plan) s₁)
    (hrun : CutoverRun pg plan (s₁.1, []) s) :
    (s.1 incoming_db = some plan.incoming_oid ∨ s.1 target_db = some plan.incoming_oid) ∧
    (∀ o, plan.target_oid = some o →
      s.1 target_db = some o ∨ s.1 plan.aside_db = some o ∨ dropCall plan ∈ s.2) ∧
    (∀ call t d n k, Steps (lossyServer plan) s (body pg plan call) t
        (.call (.psql d (.dropDatabase n)) k) →
      call = .finalize true ∧ n = plan.aside_db ∧ t.1 target_db = some plan.incoming_oid) ∧
    (∀ status t, Ends (lossyServer plan) s (promote_database_cutover pg plan) (.ok status) t →
      t.1 target_db = some plan.incoming_oid) ∧
    (∀ durable status t,
      Ends (lossyServer plan) s (finalize_database_cutover pg plan durable) (.ok status) t →
      durable = true ∧ t.1 target_db = some plan.incoming_oid ∧ t.1 incoming_db = none ∧
        t.1 plan.aside_db = none) := by
  have hfresh := wp_ends wp_plan hplan plan rfl
  have hp := hfresh.captured
  have hstart : At plan .ready (s₁.1, []) := ⟨hfresh.ready, fun hf => by cases hf⟩
  obtain ⟨ph, hat⟩ := cutoverRun_phase hp ⟨.ready, hstart⟩ hrun
  rw [← hfresh.incoming, ← hfresh.target]
  refine ⟨hat.incoming_present, fun o ho => hat.old_present hp ho, ?_, ?_, ?_⟩
  · intro call t d n k hsteps
    obtain ⟨hcall, hdrop, -, hprom⟩ := (wp_issued (wp_body hp hat call) hsteps).2 d n rfl
    have hn : n = plan.aside_db := by
      simp only [dropCall, AdapterCall.psql.injEq, Statement.dropDatabase.injEq] at hdrop
      exact hdrop.2
    exact ⟨hcall, hn, hprom.1.2.1⟩
  · intro status t hends
    have hw : wp (lossyServer plan) (Issued plan True) (promote_database_cutover pg plan)
        (PromotePost plan) s := wp_promote hp hat
    have hpost := wp_ends hw hends
    rcases (hpost.2 status rfl).2 with ht | ht
    · exact ht.1.2.1
    · exact ht.1.2.2.1
  · intro durable status t hends
    have hd : durable = true := by
      cases durable with
      | true => rfl
      | false => cases hends
    have hw : wp (lossyServer plan) (Issued plan True)
        (finalize_database_cutover pg plan durable) (FinalizePost plan) s :=
      wp_finalize hp hat fun _ => trivial
    have hpost := wp_ends hw hends
    rcases (hpost.2 status rfl).2 with ht | ⟨-, ht, haside⟩
    · exact ⟨hd, ht.1.2.2.1, ht.1.2.1, ht.1.2.2.2⟩
    · exact ⟨hd, ht.1.2.1, ht.1.1, haside⟩

/-! ## A cutover on a server without faults -/

def loggedServe (fresh : Oid) (o : AdapterCall) (s : Catalog × List AdapterCall) :
    Except AdapterError o.Answer × (Catalog × List AdapterCall) :=
  ((serve fresh o s.1).1, (serve fresh o s.1).2, s.2 ++ [o])

theorem loggedServe_lossy {i t a : DbName} (fresh : Oid) (o : AdapterCall)
    (s : Catalog × List AdapterCall) :
    lossyServerOn i t a o s (loggedServe fresh o s).1 (loggedServe fresh o s).2 :=
  ⟨⟨_, serve_faulty fresh o s.1, sameOn_refl _⟩, rfl⟩

def liveOid : Oid := ⟨16401, by decide, by decide⟩
def restoredOid : Oid := ⟨16777, by decide, by decide⟩
def zeroDigest : Sha256 := fun _ _ => PythonText.zeroDigit
def scalarHooks : Hooks := ⟨true, false, false⟩

/-- `odoo` is live and `odoo_pitr` was restored beside it. -/
def restoredCluster : Catalog := fun n =>
  if n = "odoo" then some liveOid else if n = "odoo_pitr" then some restoredOid else none

def examplePlan : DatabaseCutoverPlan zeroDigest where
  cutover_id := "r1"
  incoming_db := "odoo_pitr"
  target_db := "odoo"
  aside_db := asideName zeroDigest "odoo" "odoo_pitr" "r1"
  incoming_oid := restoredOid
  target_oid := some liveOid
  maintenance_db := "postgres"
  names_valid := by decide +kernel
  incoming_ne_target := by decide
  maintenance_separate := by decide +kernel
  aside_eq := rfl
  oids_distinct := by decide

theorem cutover_never_loses_a_database_after_promotion :
    let s := ((promote_database_cutover scalarHooks examplePlan).run (loggedServe liveOid)
      (restoredCluster, [])).2
    (s.1 "odoo_pitr" = some restoredOid ∨ s.1 "odoo" = some restoredOid) ∧
    ∀ o, some liveOid = some o → s.1 "odoo" = some o ∨ s.1 examplePlan.aside_db = some o ∨
      dropCall examplePlan ∈ s.2 := by
  have hplan := ends_run (loggedServe_lossy (i := "odoo_pitr") (t := "odoo")
    (a := asideName zeroDigest "odoo" "odoo_pitr" "r1") liveOid)
    (plan_database_cutover zeroDigest scalarHooks "odoo_pitr" "odoo" "r1") (restoredCluster, [])
  have hcall := ends_run (W := lossyServer examplePlan) (loggedServe_lossy liveOid)
    (body scalarHooks examplePlan .promote) (restoredCluster, [])
  have hrun : CutoverRun scalarHooks examplePlan (restoredCluster, []) _ :=
    .call (.refl _) trivial hcall
  have h := cutover_never_loses_a_database hplan hrun
  exact ⟨h.1, h.2.1⟩

end DatabaseCutoverSafety
