import Odooctl.CutoverRestoreSafety

/-!
# One attempt without faults finishes a cutover

Every reachable state of the record and the cluster is a good start: the attempt picks up
at the stage that the record has reached.
-/
namespace CutoverRestoreProgress

open EffectPrograms PostgresCatalog DatabaseCutover DatabaseCutoverSafety
  DatabaseCutoverProgress PitrRestoreRecord CutoverRestore CutoverRestoreSafety

variable {sha256 : Sha256} {redact : String → String} {pg : Hooks} {m₀ : PitrRestoreMetadata}
  {c₀ : Catalog} {m : PitrRestoreMetadata} {plan : DatabaseCutoverPlan sha256} {α β : Type}
  {a : Catalog × List AdapterCall} {v : Restores}

def hostFaultless : World Host Restores
  | .timestamp, v, _, v' => v' = v
  | .get_pitr_restore restore_id, v, r, v' => v' = v ∧ r = v.get_pitr_restore restore_id
  | .save_pitr_restore m, v, r, v' =>
    match v.save_pitr_restore m with
    | .ok w => r = .ok () ∧ v' = w
    | .error e => r = .error e ∧ v' = v
  | .release_restore_pin _ _, v, _, v' => v' = v

theorem hostFaultless_faulty {o : HostCall} {v v' : Restores} {r : o.Answer}
    (h : hostFaultless o v r v') : hostFaulty o v r v' := by
  cases o with
  | timestamp => exact h
  | get_pitr_restore id =>
    obtain ⟨rfl, rfl⟩ := h
    exact ⟨rfl, fun m hm => hm⟩
  | save_pitr_restore m =>
    unfold hostFaultless at h
    unfold hostFaulty
    cases hs : v.save_pitr_restore m with
    | ok w =>
      simp only [hs] at h
      exact .inl ⟨h.1, h.2 ▸ hs⟩
    | error e =>
      simp only [hs] at h
      exact .inr ⟨⟨e, h.1⟩, .inl h.2⟩
  | release_restore_pin _ _ => exact h

theorem hostFaultless_total : hostFaultless.Total := by
  intro o v
  cases o with
  | timestamp => exact ⟨(0 : ℕ), v, rfl⟩
  | get_pitr_restore id => exact ⟨v.get_pitr_restore id, v, rfl, rfl⟩
  | save_pitr_restore m =>
    cases hs : v.save_pitr_restore m with
    | ok w => exact ⟨(.ok () : Except String Unit), w, by simp [hostFaultless, hs]⟩
    | error e => exact ⟨(.error e : Except String Unit), v, by simp [hostFaultless, hs]⟩
  | release_restore_pin _ _ => exact ⟨(none : Option String), v, rfl⟩

/-- Every call works, and others still leave the record and the three names alone. -/
abbrev calmWorld (sha256 : Sha256) (m₀ : PitrRestoreFields) : World (Adapter.sum Host) Joint :=
  (calmServerOn m₀.new_database m₀.database (asideOf sha256 m₀)).sum
    (hostFaultless.under fun v v' => v' m₀.restore_id = v m₀.restore_id)

theorem calmWorld_faulty {m₀ : PitrRestoreFields} {o : (Adapter.sum Host).Op} {s t : Joint}
    {r : (Adapter.sum Host).Reply o} (h : calmWorld sha256 m₀ o s r t) :
    restoreWorld sha256 m₀ o s r t := by
  cases o with
  | inl o =>
    obtain ⟨⟨⟨u, hu, hsame⟩, hlog⟩, hrest⟩ := h
    exact ⟨⟨⟨u, faultless_faulty hu, hsame⟩, hlog⟩, hrest⟩
  | inr o =>
    obtain ⟨⟨u, hu, hsame⟩, hrest⟩ := h
    exact ⟨⟨u, hostFaultless_faulty hu, hsame⟩, hrest⟩

theorem calmWorld_total (m₀ : PitrRestoreFields) : (calmWorld sha256 m₀).Total := by
  have hserver : faultless.Total := fun o c =>
    ⟨_, _, ⟨1, by decide, by decide⟩, rfl⟩
  apply World.sum_total
  · exact World.logged_total (World.under_total hserver sameOn_refl)
  · exact World.under_total hostFaultless_total fun _ => rfl

/-- A part of an attempt that works: only its own updates could still be refused. -/
abbrev Works (sha256 : Sha256) (m₀ : PitrRestoreFields) (p : CutoverM α)
    (ok : α → Joint → Prop) (s : Joint) : Prop :=
  wp (calmWorld sha256 m₀) (fun _ _ => True) p (fun r t => match r with
    | .ok x => ok x t
    | .error e => ∃ f, e = .validation f) s

theorem works_bind {m₀ : PitrRestoreFields} {p : CutoverM α} {f : α → CutoverM β}
    {mid : α → Joint → Prop} {ok : β → Joint → Prop} {s : Joint}
    (h : Works sha256 m₀ p mid s) (hf : ∀ x t, mid x t → Works sha256 m₀ (f x) ok t) :
    Works sha256 m₀ (p >>= f) ok s := by
  refine wp_bind'.mpr (wp_post h fun r t ht => ?_)
  cases r with
  | ok x => exact hf x t ht
  | error e => exact ht

/-- What works and is sound returns. -/
theorem works_sound {m₀ : PitrRestoreFields} {p : CutoverM α} {ok : α → Joint → Prop}
    {s : Joint} (h : Works sha256 m₀ p (fun _ _ => True) s)
    (hs : Sound sha256 m₀ c₀ p ok s) : Works sha256 m₀ p ok s := by
  have hcalm := wp_world hs fun o u r t hw => calmWorld_faulty hw
  refine wp_mono (wp_and h hcalm) (fun _ _ _ => trivial) fun r t ht => ?_
  cases r with
  | ok x => exact ht.2
  | error e => exact ht.1

/-! ## The calls -/

variable {ok : α → Joint → Prop}

theorem works_onDatabase {p : SwapM α} {Q : α → Catalog × List AdapterCall → Prop}
    (hp : wp (calmServerOn m₀.new_database m₀.database
      (asideOf sha256 m₀.toPitrRestoreFields)) Free p (fun r u => ∃ x, r = .ok x ∧ Q x u) a)
    (hok : ∀ x u, Q x u → ok x (u, v)) :
    Works sha256 m₀.toPitrRestoreFields (onDatabase p) ok (a, v) := by
  unfold onDatabase
  rw [Works, wp_left, wp_mapError]
  refine wp_post hp ?_
  rintro - u ⟨x, rfl, hx⟩
  exact hok x u hx

theorem works_recordingError {p : SwapM α} {Q : α → Catalog × List AdapterCall → Prop}
    (hp : wp (calmServerOn m₀.new_database m₀.database
      (asideOf sha256 m₀.toPitrRestoreFields)) Free p (fun r u => ∃ x, r = .ok x ∧ Q x u) a)
    (hok : ∀ x u, Q x u → ok x (u, v)) :
    Works sha256 m₀.toPitrRestoreFields (recordingError redact m (onDatabase p)) ok (a, v) := by
  unfold recordingError onDatabase
  rw [Works, wp_bind', wp_attempt, wp_left, wp_mapError]
  refine wp_post hp ?_
  rintro - u ⟨x, rfl, hx⟩
  exact hok x u hx

theorem works_timestamp {ok : Timestamp → Joint → Prop}
    (hok : ∀ x v', v' m₀.restore_id = v m₀.restore_id → ok x (a, v')) :
    Works sha256 m₀.toPitrRestoreFields timestamp ok (a, v) := by
  unfold timestamp
  rw [Works, wp_right]
  refine wp_perform.mpr ⟨trivial, ?_⟩
  rintro x v' ⟨u, rfl, hv⟩
  exact hok x v' hv

theorem works_release {environment : String} {ok : Option String → Joint → Prop}
    (hok : ∀ x v', v' m₀.restore_id = v m₀.restore_id → ok x (a, v')) :
    Works sha256 m₀.toPitrRestoreFields (release_restore_pin environment m) ok (a, v) := by
  unfold release_restore_pin
  rw [Works, wp_right]
  refine wp_perform.mpr ⟨trivial, ?_⟩
  rintro x v' ⟨u, rfl, hv⟩
  exact hok x v' hv

theorem works_update {updates : PitrRestoreFields → PitrRestoreFields}
    {ok : PitrRestoreMetadata → Joint → Prop} {s : Joint}
    (hok : ∀ m', m'.toPitrRestoreFields = updates m.toPitrRestoreFields → ok m' s) :
    Works sha256 m₀.toPitrRestoreFields (update m updates) ok s := by
  unfold update validated_update model_validate
  rw [Works, wp_ofExcept]
  by_cases h : (updates m.toPitrRestoreFields).faults = []
  · simp only [h, ↓reduceDIte, Except.mapError]
    exact hok ⟨_, h⟩ rfl
  · simp only [h, ↓reduceDIte, Except.mapError]
    exact ⟨_, rfl⟩

theorem safe_restore_id (m : PitrRestoreMetadata) :
    is_safe_pitr_component m.restore_id = true := by
  have hsafe : is_safe_component m.restore_id = true := by
    have hf := m.fields_sound
    simp only [PitrRestoreFields.fieldFaults, List.reduceOption, List.filterMap_eq_nil_iff,
      List.mem_cons, List.not_mem_nil, or_false, forall_eq_or_imp, forall_eq, id] at hf
    exact componentFault_none.mp hf.1
  exact is_safe_pitr_component_of_safe hsafe

theorem works_save {m' : PitrRestoreMetadata} {ok : Unit → Joint → Prop}
    (hm : v m₀.restore_id = some m) (hid : m.identity = m₀.identity)
    (hid' : m'.identity = m₀.identity)
    (hok : ∀ v', v' m₀.restore_id = some m' → ok () (a, v')) :
    Works sha256 m₀.toPitrRestoreFields (CutoverRestore.save_pitr_restore m') ok (a, v) := by
  have hrid : m'.restore_id = m₀.restore_id := (List.cons.inj hid').1
  have hsave : v.save_pitr_restore m' =
      .ok (Function.update v m'.restore_id (some m')) := by
    have hcur : v m'.restore_id = some m := by rw [hrid, hm]
    have hsame : m.identity = m'.identity := hid.trans hid'.symm
    simp only [Restores.save_pitr_restore, safe_restore_id, hcur, hsame, ne_eq,
      not_true_eq_false, ↓reduceIte, Bool.true_eq_false]
  unfold CutoverRestore.save_pitr_restore
  rw [Works, wp_right]
  refine wp_perform.mpr ⟨trivial, ?_⟩
  rintro r v' ⟨u, hu, hv⟩
  simp only [hostFaultless, hsave] at hu
  obtain ⟨rfl, rfl⟩ := hu
  refine hok v' (hv.trans ?_)
  rw [hrid]
  exact Function.update_self _ _ _

theorem works_get (hm : v m₀.restore_id = some m) (hid : m.identity = m₀.identity) :
    Works sha256 m₀.toPitrRestoreFields (get_pitr_restore m₀.restore_id)
      (fun m' t => m' = m ∧ t.1 = a ∧ t.2 m₀.restore_id = some m) (a, v) := by
  have hrid : m.restore_id = m₀.restore_id := (List.cons.inj hid).1
  have hget : v.get_pitr_restore m₀.restore_id = .ok m := by
    simp only [Restores.get_pitr_restore, safe_restore_id, hm, hrid, ne_eq, not_true_eq_false,
      ↓reduceIte, Bool.true_eq_false]
  unfold CutoverRestore.get_pitr_restore
  rw [Works, wp_right]
  refine wp_perform.mpr ⟨trivial, ?_⟩
  rintro r v' ⟨u, ⟨rfl, rfl⟩, hv⟩
  rw [hget]
  exact ⟨rfl, rfl, hv.trans hm⟩

/-! ## The stages -/

theorem wp_verify_ok {i t x n : DbName} {Q : Unit → Catalog × List AdapterCall → Prop}
    (hq : ∀ u, SameOn i t x a.1 u.1 → Q () u) :
    wp (calmServerOn i t x) Free (verify_recovered_database n)
      (fun r u => ∃ x, r = .ok x ∧ Q x u) a := by
  unfold verify_recovered_database ping psql
  rw [wp_bind']
  refine wp_perform.mpr ⟨trivial, ?_⟩
  rintro r u ⟨⟨c, ⟨fresh, hserve⟩, hsame⟩, -⟩
  obtain ⟨rfl, rfl⟩ : Except.ok () = r ∧ a.1 = c := Prod.mk.inj hserve
  refine wp_perform.mpr ⟨trivial, ?_⟩
  rintro r w ⟨⟨c, ⟨fresh, hserve⟩, hsame'⟩, -⟩
  obtain ⟨rfl, rfl⟩ : Except.ok () = r ∧ u.1 = c := Prod.mk.inj hserve
  exact ⟨(), rfl, hq w (sameOn_trans hsame hsame')⟩

theorem works_record_cutover_plan (h₀ : Promotable sha256 m₀ c₀) (hpg : Hooks.LooksUp pg)
    (hm : v m₀.restore_id = some m)
    (hs : SameRestore m₀.toPitrRestoreFields m.toPitrRestoreFields)
    (hc : SameCluster sha256 m₀.toPitrRestoreFields c₀ a.1) :
    Works sha256 m₀.toPitrRestoreFields (record_cutover_plan sha256 pg m)
      (fun _ _ => True) (a, v) := by
  unfold record_cutover_plan
  have hverify : Works sha256 m₀.toPitrRestoreFields
      (onDatabase (verify_recovered_database m.new_database))
      (fun _ t => t.2 = v ∧ SameCluster sha256 m₀.toPitrRestoreFields c₀ t.1.1) (a, v) :=
    works_onDatabase (wp_verify_ok fun u hu => sameOn_trans hc hu) fun _ u hu => ⟨rfl, hu⟩
  refine works_bind hverify ?_
  rintro - ⟨u, v₁⟩ ⟨rfl, hc₁⟩
  have hplan : wp (calmServerOn m₀.new_database m₀.database
      (asideOf sha256 m₀.toPitrRestoreFields)) Free
      (plan_database_cutover sha256 pg m.new_database m.database m.restore_id)
      (fun r u => ∃ x, r = .ok x ∧ True) u := by
    rw [hs.new_database, hs.database, hs.restore_id]
    refine wp_post (wp_plan_ok hpg h₀.names (by decide) m₀.lifecycle.databases_differ
      h₀.maintenance ?_ ?_ ?_) fun r t ⟨p, hp⟩ => ⟨p, hp, trivial⟩
    · rw [hc₁.1]
      exact h₀.incoming
    · exact hc₁.2.2.trans h₀.aside_free
    · rw [hc₁.1, hc₁.2.1]
      exact h₀.oids_distinct
  have hplanned : Works sha256 m₀.toPitrRestoreFields
      (onDatabase (plan_database_cutover sha256 pg m.new_database m.database m.restore_id))
      (fun _ t => t.2 = v₁) (u, v₁) := works_onDatabase hplan fun _ _ _ => rfl
  refine works_bind hplanned ?_
  rintro p ⟨w, v₂⟩ rfl
  refine works_bind (works_timestamp fun x v₃ hv₃ => ?_) fun x t ht => ht
  refine works_bind (works_update fun m' hm' => ?_) fun m' t ht => ht
  have hid' : m'.identity = m₀.identity := by rw [hm']; exact hs.identity
  exact works_bind (works_save (hv₃.trans hm) hs.identity hid' fun v₄ hv₄ => trivial)
    fun x t ht => ht

theorem workable_of_planned {t : Joint} (h₀ : Promotable sha256 m₀ c₀)
    (hpg : Hooks.LooksUp pg) (h : Planned m₀.toPitrRestoreFields c₀ m plan t) :
    Workable pg plan := by
  obtain ⟨-, ht, ha⟩ := carried_aside h.same h.carries
  refine ⟨h.captured, ?_, hpg⟩
  rw [ht, ha]
  exact h₀.three_names

theorem works_record_promotion (h₀ : Promotable sha256 m₀ c₀) (hpg : Hooks.LooksUp pg)
    (h : Planned m₀.toPitrRestoreFields c₀ m plan (a, v)) (hcut : m.cutover = false) :
    Works sha256 m₀.toPitrRestoreFields (record_promotion redact pg m plan)
      (fun _ _ => True) (a, v) := by
  obtain ⟨-, -, ph, hat⟩ := h.progress.resolve_right (by rw [hcut]; rintro ⟨⟨⟩, -⟩)
  have hw := workable_of_planned h₀ hpg h
  have hpromote : wp (calmServerOn m₀.new_database m₀.database
      (asideOf sha256 m₀.toPitrRestoreFields)) Free (promote_database_cutover pg plan)
      (fun r u => ∃ status, r = .ok status ∧ status.isPromoted = true) a := by
    obtain ⟨hi, ht, ha⟩ := carried_aside h.same h.carries
    rw [← hi, ← ht, ← ha]
    refine wp_post (wp_promote_ok hw hat) ?_
    rintro - u ⟨status, q, rfl, hpr, -, -⟩
    exact ⟨status, rfl, hpr⟩
  have hpromoted : Works sha256 m₀.toPitrRestoreFields
      (recordingError redact m (onDatabase (promote_database_cutover pg plan)))
      (fun status t => t.2 = v ∧ status.isPromoted = true) (a, v) :=
    works_recordingError hpromote fun status u hpr => ⟨rfl, hpr⟩
  unfold record_promotion
  refine works_bind hpromoted ?_
  rintro status ⟨u, v₁⟩ ⟨rfl, hpr⟩
  simp only [hpr, Bool.true_eq_false, ↓reduceIte]
  refine works_bind (works_timestamp fun x v₂ hv₂ => ?_) fun x t ht => ht
  refine works_bind (works_update fun m' hm' => ?_) fun m' t ht => ht
  have hid' : m'.identity = m₀.identity := by rw [hm']; exact h.same.identity
  exact works_bind (works_save (hv₂.trans h.stored) h.same.identity hid' fun v₃ hv₃ => trivial)
    fun x t ht => ht

theorem works_record_finalization {environment : String} (h₀ : Promotable sha256 m₀ c₀)
    (hpg : Hooks.LooksUp pg) (h : Planned m₀.toPitrRestoreFields c₀ m plan (a, v))
    (hcut : m.cutover = true) :
    Works sha256 m₀.toPitrRestoreFields (record_finalization redact pg environment m plan)
      (fun _ _ => True) (a, v) := by
  obtain ⟨-, hlive⟩ := h.progress.resolve_left (by rw [hcut]; rintro ⟨⟨⟩, -⟩)
  have hw := workable_of_planned h₀ hpg h
  have hfinalize : wp (calmServerOn m₀.new_database m₀.database
      (asideOf sha256 m₀.toPitrRestoreFields)) Free (finalize_database_cutover pg plan true)
      (fun r u => ∃ status, r = .ok status ∧ status.isPromoted = true) a := by
    obtain ⟨hi, ht, ha⟩ := carried_aside h.same h.carries
    rw [← hi, ← ht, ← ha]
    have hreturned : wp (calmServer plan) Free (finalize_database_cutover pg plan true)
        (Returned plan [.promoted, .finalized]) a := by
      rcases hlive with hl | hl
      · exact wp_finalize_ok hw hl (.inl rfl)
      · exact wp_finalize_ok hw hl (.inr rfl)
    refine wp_post hreturned ?_
    rintro - u ⟨status, q, rfl, hpr, -, -⟩
    exact ⟨status, rfl, hpr⟩
  have hfinalized : Works sha256 m₀.toPitrRestoreFields
      (recordingError redact m (onDatabase (finalize_database_cutover pg plan true)))
      (fun status t => t.2 = v ∧ status.isPromoted = true) (a, v) :=
    works_recordingError hfinalize fun status u hpr => ⟨rfl, hpr⟩
  unfold record_finalization
  refine works_bind hfinalized ?_
  rintro status ⟨u, v₁⟩ ⟨rfl, hpr⟩
  simp only [hpr, Bool.true_eq_false, ↓reduceIte]
  refine works_bind (works_update fun m' hm' => ?_) fun m' t ht => ht
  have hid' : m'.identity = m₀.identity := by rw [hm']; exact h.same.identity
  refine works_bind (works_save h.stored h.same.identity hid' fun v₂ hv₂ => ?_) fun x t ht => ht
  refine works_bind (works_release fun x v₃ hv₃ => ?_) fun x t ht => ht
  cases x with
  | none => trivial
  | some pin_warning =>
  simp only
  split
  · trivial
  refine works_bind (works_update fun m'' hm'' => ?_) fun m'' t ht => ht
  have hid'' : m''.identity = m₀.identity := by rw [hm'']; exact hid'
  exact works_bind (works_save (hv₃.trans hv₂) hid' hid'' fun v₄ hv₄ => trivial)
    fun x t ht => ht

/-! ## The attempt -/

/-- An attempt with the operator's exact confirmations, on the target that owns the record. -/
structure Addressed (ctx : ServiceContext) (call : Confirmation) (m₀ : PitrRestoreMetadata) :
    Prop where
  config : pitr_config ctx call.environment = .ok ()
  project : m₀.project = ctx.project_name
  environment : m₀.environment = call.environment
  database : ctx.env call.environment = .ok m₀.database
  confirm_environment : call.confirm_environment = call.environment
  confirm_database : call.confirm_database = m₀.database
  accepted : call.accept_database_only = true

theorem not_ownership_invalid {ctx : ServiceContext} {call : Confirmation}
    (hcall : Addressed ctx call m₀)
    (hs : SameRestore m₀.toPitrRestoreFields m.toPitrRestoreFields) :
    ownership_invalid ctx call.environment m₀.database m = false := by
  have hid := hs.identity
  simp only [PitrRestoreFields.identity, List.cons.injEq] at hid
  obtain ⟨-, -, -, hproject, henv, -⟩ := hid
  simp [ownership_invalid, hproject, henv, hcall.project, hcall.environment, hs.database,
    hs.verified]

theorem works_promote_and_finalize {environment : String} (h₀ : Promotable sha256 m₀ c₀)
    (hpg : Hooks.LooksUp pg) (h : Planned m₀.toPitrRestoreFields c₀ m plan (a, v))
    (hfin : m.cutover_finalized = false) :
    Works sha256 m₀.toPitrRestoreFields (promote_and_finalize redact pg environment m plan)
      (fun m' _ => m'.cutover_finalized = true) (a, v) := by
  have hlast : ∀ (m' : PitrRestoreMetadata) (t : Joint), m'.cutover = true ∧
      m'.cutover_finalized = false ∧ Planned m₀.toPitrRestoreFields c₀ m' plan t →
      Works sha256 m₀.toPitrRestoreFields (record_finalization redact pg environment m' plan)
        (fun m'' _ => m''.cutover_finalized = true) t := by
    rintro m' ⟨u, w⟩ ⟨hcut, hfin, hp⟩
    refine wp_post (works_sound (works_record_finalization h₀ hpg hp hcut)
      (sound_record_finalization hp hcut hfin)) fun r t ht => ?_
    cases r with
    | ok x => exact ht.1
    | error e => exact ht
  unfold promote_and_finalize
  split
  · next hcut => exact hlast m _ ⟨hcut, hfin, h⟩
  · next hcut =>
    have hcut : m.cutover = false := by simpa using hcut
    exact works_bind (works_sound (works_record_promotion h₀ hpg h hcut)
      (sound_record_promotion h hcut)) hlast

/-- From every consistent state an attempt without faults finishes the cutover. -/
theorem works_cutover_restore {ctx : ServiceContext} {call : Confirmation}
    (h₀ : Promotable sha256 m₀ c₀) (hpg : Hooks.LooksUp pg) (hcall : Addressed ctx call m₀)
    (hc : Consistent sha256 m₀.toPitrRestoreFields c₀ (a, v)) :
    Works sha256 m₀.toPitrRestoreFields
      (cutover_restore sha256 redact pg ctx m₀.restore_id call)
      (fun m' _ => m'.cutover_finalized = true) (a, v) := by
  obtain ⟨m, hm, hs, hcoh⟩ := hc
  have howned := not_ownership_invalid hcall hs
  have hconfirmed : ¬ (call.confirm_environment ≠ call.environment ∨
      call.confirm_database ≠ m₀.database ∨ call.accept_database_only = false) := by
    simp [hcall.confirm_environment, hcall.confirm_database, hcall.accepted]
  unfold cutover_restore
  rw [Works, hcall.config, wp_bind', wp_ofExcept]
  refine works_bind (works_get hm hs.identity) ?_
  rintro m' ⟨u, w⟩ ⟨rfl, rfl, hm'⟩
  rw [Works, hcall.database, wp_bind', Except.mapError, wp_ofExcept]
  simp only [hconfirmed, ↓reduceIte, howned, Bool.false_eq_true, false_or, true_and]
  by_cases hfin : m'.cutover_finalized = true
  · have hcut := m'.lifecycle.finalized hfin
    have hstatus := m'.lifecycle.status.mp hcut
    have hact : actionable m' = false := by simp [actionable, hfin, hcut, hstatus]
    simp only [hact, ↓reduceIte, hstatus, hcut, hfin, and_self]
    exact hfin
  simp only [Bool.not_eq_true] at hfin
  have hact : actionable m' = true := by
    have hstatus := m'.lifecycle.status
    rcases hs.status with hv | hc
    · have hcut : m'.cutover = false := by
        by_contra hcut
        have hc := hstatus.mp (by simpa using hcut)
        rw [hv] at hc
        cases hc
      simp [actionable, hv, hcut]
    · simp [actionable, hc, hstatus.mpr hc, hfin]
  simp only [hact, Bool.true_eq_false, ↓reduceIte]
  cases hcoh with
  | unplanned hun hcluster hlog =>
    have hnone : cutover_plan_from_metadata sha256 m' = .ok none := by
      simp only [cutover_plan_from_metadata, hun]
    rw [hnone, wp_bind', wp_ofExcept]
    refine works_bind (works_sound (works_record_cutover_plan h₀ hpg hm' hs hcluster)
      (sound_record_cutover_plan hm' hs hun hcluster hlog)) ?_
    rintro ⟨m'', plan⟩ ⟨u', w'⟩ ⟨hfin', hplanned⟩
    exact works_promote_and_finalize h₀ hpg hplanned hfin'
  | unpromoted plan ph hcarries hp hfence hcut hat hlog =>
    rw [cutover_plan_carried hcarries, wp_bind', wp_ofExcept]
    exact works_promote_and_finalize h₀ hpg
      ⟨hm', hs, hcarries, hp, hfence, .inl ⟨hcut, hlog, ph, hat⟩⟩ hfin
  | promoted plan hcarries hp hfence hcut hlive =>
    rw [cutover_plan_carried hcarries, wp_bind', wp_ofExcept]
    exact works_promote_and_finalize h₀ hpg
      ⟨hm', hs, hcarries, hp, hfence, .inr ⟨hcut, hlive⟩⟩ hfin

/-! ## Runs of attempts -/

/-- One attempt: the configuration it runs under and what the operator passes. -/
structure Attempt where
  ctx : ServiceContext
  call : Confirmation

def attempt (sha256 : Sha256) (redact : String → String) (pg : Hooks) (restore_id : String)
    (x : Attempt) : CutoverM PitrRestoreMetadata :=
  cutover_restore sha256 redact pg x.ctx restore_id x.call

/-- What others may do between two attempts. -/
def Aside (sha256 : Sha256) (m₀ : PitrRestoreFields) (s t : Joint) : Prop :=
  SameCluster sha256 m₀ s.1.1 t.1.1 ∧ t.1.2 = s.1.2 ∧ t.2 m₀.restore_id = s.2 m₀.restore_id

/-- The attempts on one record, each run to its end or cut at any call. -/
abbrev RestoreRun (sha256 : Sha256) (redact : String → String) (pg : Hooks)
    (m₀ : PitrRestoreFields) : Joint → Joint → Prop :=
  Session (restoreWorld sha256 m₀) (Aside sha256 m₀) (fun _ _ => True)
    (attempt sha256 redact pg m₀.restore_id)

theorem coherent_of_aside {m₀ m : PitrRestoreFields} {s t : Catalog × List AdapterCall}
    (h : Coherent sha256 m₀ c₀ m s) (hs : SameRestore m₀ m)
    (hsame : SameCluster sha256 m₀ s.1 t.1) (hlog : t.2 = s.2) :
    Coherent sha256 m₀ c₀ m t := by
  have hquiet : ∀ (plan : DatabaseCutoverPlan sha256), Carries m plan →
      Quiet plan.incoming_db plan.target_db plan.aside_db s t := by
    intro plan hm
    obtain ⟨hi, ht, ha⟩ := carried_aside hs hm
    rw [hi, ht, ha]
    exact ⟨hsame, hlog ▸ List.prefix_refl _⟩
  cases h with
  | unplanned hm hc hl => exact .unplanned hm (sameOn_trans hc hsame) (hlog ▸ hl)
  | unpromoted plan ph hm hp ho hcut hat hl =>
    exact .unpromoted plan ph hm hp ho hcut (hat.of_quiet (hquiet plan hm)) (hlog ▸ hl)
  | promoted plan hm hp ho hcut hlive =>
    exact .promoted plan hm hp ho hcut (hlive.imp (fun h => h.of_quiet (hquiet plan hm))
      fun h => h.of_quiet (hquiet plan hm))

theorem restoreRun_consistent {m₀ : PitrRestoreFields} {s t : Joint}
    (hc : Consistent sha256 m₀ c₀ s) (h : RestoreRun sha256 redact pg m₀ s t) :
    Consistent sha256 m₀ c₀ t := by
  refine h.invariant hc ?_ ?_
  · rintro u w ⟨m, hm, hs, hcoh⟩ ⟨hsame, hlog, hrest⟩
    exact ⟨m, hrest.trans hm, hs, coherent_of_aside hcoh hs hsame hlog⟩
  · rintro x ⟨u, w⟩ hc -
    refine wp_mono (sound_cutover_restore hc) (fun o t ho => ho.1) fun r t ht => ?_
    cases r with
    | ok x => exact ht
    | error e => exact ht.1

def Finalized (m₀ : PitrRestoreFields) (t : Joint) : Prop :=
  ∃ m, t.2 m₀.restore_id = some m ∧ m.cutover_finalized = true

/-- Once finalized, an attempt only reads the record. -/
theorem wp_finalized {m₀ : PitrRestoreFields} {s : Joint} (hf : Finalized m₀ s) (x : Attempt) :
    wp (restoreWorld sha256 m₀) (fun o t => Finalized m₀ t ∧ ∀ d, o ≠ .inl d)
      (attempt sha256 redact pg m₀.restore_id x) (fun _ t => Finalized m₀ t) s := by
  obtain ⟨a, v⟩ := s
  unfold attempt cutover_restore
  rw [wp_bind', wp_ofExcept]
  split
  swap
  · exact hf
  rw [wp_bind', CutoverRestore.get_pitr_restore, wp_right]
  refine wp_perform.mpr ⟨⟨hf, by intro d hd; cases hd⟩, ?_⟩
  obtain ⟨m, hm, hfin⟩ := hf
  rintro r v' ⟨u, ⟨rfl, hr⟩, hv⟩
  have hf' : Finalized m₀ (a, v') := ⟨m, hv.trans hm, hfin⟩
  cases r with
  | error e => exact hf'
  | ok m' =>
  obtain rfl : m' = m := Option.some.inj ((get_stored (hr m' rfl)).symm.trans hm)
  have hcut := m'.lifecycle.finalized hfin
  have hact : actionable m' = false := by
    simp [actionable, hfin, hcut, m'.lifecycle.status.mp hcut]
  simp only [Except.mapError]
  rw [wp_bind', wp_ofExcept]
  split
  swap
  · exact hf'
  split
  · exact hf'
  simp only [hact, or_true, ↓reduceIte]
  split <;> exact hf'

theorem restoreRun_finalized {m₀ : PitrRestoreFields} {s t : Joint} (hf : Finalized m₀ s)
    (h : RestoreRun sha256 redact pg m₀ s t) : Finalized m₀ t := by
  refine h.invariant hf ?_ ?_
  · rintro u w ⟨m, hm, hfin⟩ ⟨-, -, hrest⟩
    exact ⟨m, hrest.trans hm, hfin⟩
  · intro x u hu _
    exact wp_mono (wp_finalized hu x) (fun o t ho => ho.1) fun r t ht => ht

theorem start_consistent (h₀ : Promotable sha256 m₀ c₀) (hm : v m₀.restore_id = some m₀) :
    Consistent sha256 m₀.toPitrRestoreFields c₀ ((c₀, []), v) := by
  refine ⟨m₀, hm, ⟨rfl, rfl, rfl, m₀.lifecycle.verified (.inl h₀.status), .inl h₀.status⟩, ?_⟩
  exact .unplanned h₀.unplanned (sameOn_refl _) (by intro d n hmem; cases hmem)

/-- No database is lost, and the record never claims more than the cluster shows. -/
theorem fits_databases {m₀ : PitrRestoreFields} {s : Catalog × List AdapterCall}
    (h : Fits sha256 m₀ c₀ m.toPitrRestoreFields s) :
    (∀ o, c₀ m₀.new_database = some o →
      s.1 m₀.new_database = some o ∨ s.1 m₀.database = some o) ∧
    (∀ o, c₀ m₀.database = some o → m.cutover = true ∨ s.1 m₀.database = some o ∨
      s.1 (asideOf sha256 m₀) = some o) ∧
    (m.cutover = true → ∃ o, m.cutover_incoming_oid = some o ∧ s.1 m₀.database = some o) := by
  obtain ⟨hs, hcoh⟩ := h
  have hunplanned : m.cutover = false → (m.cutover = true → ∃ o, m.cutover_incoming_oid = some o ∧
      s.1 m₀.database = some o) := by
    intro hcut hcut'
    rw [hcut] at hcut'
    cases hcut'
  have hincoming : ∀ (plan : DatabaseCutoverPlan sha256) ph, Carries m.toPitrRestoreFields plan →
      Fences plan m₀ c₀ → At plan ph s → ∀ o, c₀ m₀.new_database = some o →
      s.1 m₀.new_database = some o ∨ s.1 m₀.database = some o := by
    intro plan ph hm ho hat o hnew
    obtain ⟨hi, ht, -⟩ := carried_aside hs hm
    have hpresent := hat.incoming_present
    rw [hi, ht, ho.2, hnew] at hpresent
    exact hpresent
  cases hcoh with
  | unplanned hm hc hlog =>
    refine ⟨fun o hnew => .inl (hc.1.trans hnew), fun o hold => .inr (.inl ?_), ?_⟩
    · exact hc.2.1.trans hold
    · exact hunplanned (not_cutover hm)
  | unpromoted plan ph hm hp ho hcut hat hlog =>
    refine ⟨hincoming plan ph hm ho hat, fun o hold => .inr ?_, hunplanned hcut⟩
    obtain ⟨-, ht, ha⟩ := carried_aside hs hm
    have hpresent := hat.old_present hp (ho.1.trans hold)
    rw [ht, ha] at hpresent
    rcases hpresent with h | h | h
    · exact .inl h
    · exact .inr h
    · exact absurd h (hlog _ _)
  | promoted plan hm hp ho hcut hlive =>
    obtain ⟨-, ht, -⟩ := carried_aside hs hm
    have hlive' : s.1 m₀.database = some plan.incoming_oid := by
      rw [← ht]
      rcases hlive with h | h
      · exact h.1.2.1
      · exact h.1.2.2.1
    refine ⟨?_, fun o _ => .inl hcut, fun _ => ⟨_, hm.incoming_oid, hlive'⟩⟩
    intro o hnew
    rw [← ho.2] at hnew
    exact .inr (hnew ▸ hlive')

/-- `cutover_restore` is resumable and loses no database. -/
theorem cutover_restore_resumable {s : Joint} (h₀ : Promotable sha256 m₀ c₀)
    (hm : v m₀.restore_id = some m₀)
    (hrun : RestoreRun sha256 redact pg m₀.toPitrRestoreFields ((c₀, []), v) s) :
    ∃ m, s.2 m₀.restore_id = some m ∧
    (m.cutover = true →
      ∃ o, m.cutover_incoming_oid = some o ∧ s.1.1 m₀.database = some o) ∧
    (∀ o, c₀ m₀.database = some o → m.cutover = true ∨ s.1.1 m₀.database = some o ∨
      s.1.1 (asideOf sha256 m₀.toPitrRestoreFields) = some o) ∧
    (∀ o, c₀ m₀.new_database = some o →
      s.1.1 m₀.new_database = some o ∨ s.1.1 m₀.database = some o) ∧
    (∀ x d n t k, Steps (restoreWorld sha256 m₀.toPitrRestoreFields) s
        (attempt sha256 redact pg m₀.restore_id x) t (.call (.inl (.psql d (.dropDatabase n))) k) →
      n = asideOf sha256 m₀.toPitrRestoreFields ∧
        ∃ m', t.2 m₀.restore_id = some m' ∧ m'.cutover = true) ∧
    (∀ x e t, Ends (restoreWorld sha256 m₀.toPitrRestoreFields) s
        (attempt sha256 redact pg m₀.restore_id x) (.error e) t → ∀ f, e ≠ .validation f) ∧
    (∀ x, Addressed x.ctx x.call m₀ → Hooks.LooksUp pg →
      (∃ r t, Ends (calmWorld sha256 m₀.toPitrRestoreFields) s
        (attempt sha256 redact pg m₀.restore_id x) r t) ∧
      ∀ r t, Ends (calmWorld sha256 m₀.toPitrRestoreFields) s
        (attempt sha256 redact pg m₀.restore_id x) r t →
        ∃ m', r = .ok m' ∧ m'.cutover_finalized = true) ∧
    (m.cutover_finalized = true → ∀ s', RestoreRun sha256 redact pg m₀.toPitrRestoreFields s s' →
      ∀ x o t k, ¬ Steps (restoreWorld sha256 m₀.toPitrRestoreFields) s'
        (attempt sha256 redact pg m₀.restore_id x) t (.call (.inl o) k)) := by
  have hc := restoreRun_consistent (start_consistent h₀ hm) hrun
  obtain ⟨m, hstored, hfit⟩ := id hc
  obtain ⟨hnew, hold, hlive⟩ := fits_databases hfit
  refine ⟨m, hstored, hlive, hold, hnew, ?_, ?_, ?_, ?_⟩
  · intro x d n t k hsteps
    obtain ⟨-, hmove⟩ := wp_issued (sound_cutover_restore hc) hsteps
    obtain ⟨m', hm', -, hdrop⟩ := hmove d _ rfl rfl
    exact ⟨(hdrop n rfl).2, m', hm', (hdrop n rfl).1⟩
  · intro x e t hends
    exact (wp_ends (sound_cutover_restore hc) hends).2
  · intro x hcall hpg
    refine ⟨exists_ending (calmWorld_total _) _ _, fun r t hends => ?_⟩
    have hworks := wp_ends (works_cutover_restore h₀ hpg hcall hc) hends
    have hsound := wp_ends (wp_world (sound_cutover_restore hc)
      fun o u r t hw => calmWorld_faulty hw) hends
    cases r with
    | ok m' => exact ⟨m', rfl, hworks⟩
    | error e =>
      obtain ⟨f, hf⟩ := hworks
      exact absurd hf (hsound.2 f)
  · intro hfin s' hrun' x o t k hsteps
    have hf := restoreRun_finalized ⟨m, hstored, hfin⟩ hrun'
    exact (wp_issued (wp_finalized hf x) hsteps).2 o rfl

/-! ## An attempt on a server without faults -/

def hostServe : (o : HostCall) → Restores → o.Answer × Restores
  | .timestamp, v => ((0 : ℕ), v)
  | .get_pitr_restore restore_id, v => (v.get_pitr_restore restore_id, v)
  | .save_pitr_restore m, v =>
    match v.save_pitr_restore m with
    | .ok w => (.ok (), w)
    | .error e => (.error e, v)
  | .release_restore_pin _ _, v => ((none : Option String), v)

def jointServe : (o : (Adapter.sum Host).Op) → Joint → (Adapter.sum Host).Reply o × Joint
  | .inl o, s => ((loggedServe liveOid o s.1).1, (loggedServe liveOid o s.1).2, s.2)
  | .inr o, s => ((hostServe o s.2).1, s.1, (hostServe o s.2).2)

theorem hostServe_faultless (o : HostCall) (v : Restores) :
    hostFaultless o v (hostServe o v).1 (hostServe o v).2 := by
  cases o with
  | timestamp => rfl
  | get_pitr_restore id => exact ⟨rfl, rfl⟩
  | save_pitr_restore m =>
    cases hs : v.save_pitr_restore m with
    | ok w => simp [hostFaultless, hostServe, hs]
    | error e => simp [hostFaultless, hostServe, hs]
  | release_restore_pin _ _ => rfl

theorem jointServe_faulty (m₀ : PitrRestoreFields) (o : (Adapter.sum Host).Op) (s : Joint) :
    restoreWorld sha256 m₀ o s (jointServe o s).1 (jointServe o s).2 := by
  cases o with
  | inl o => exact ⟨loggedServe_lossy liveOid o s.1, rfl⟩
  | inr o => exact ⟨⟨_, hostFaultless_faulty (hostServe_faultless o s.2), rfl⟩, rfl⟩

def exampleRecord : PitrRestoreMetadata where
  restore_id := "r1"
  plan_id := "p1"
  base_backup_id := "b1"
  project := "demo"
  environment := "prod"
  cluster_id := "main"
  system_identifier := "7300000000000000001"
  database := "odoo"
  new_database := "odoo_pitr"
  target_time := 1
  target_timeline := 1
  timestamp := 2
  verified := true
  status := .verified
  valid := by decide +kernel

def exampleContext : ServiceContext where
  project_name := "demo"
  pitr := ⟨true, "prod", true, "main", "database_only"⟩
  env := fun _ => .ok "odoo"

def exampleAttempt : Attempt := ⟨exampleContext, ⟨"prod", "prod", "odoo", true⟩⟩

theorem exampleRecord_promotable : Promotable zeroDigest exampleRecord restoredCluster where
  status := rfl
  unplanned := rfl
  names := by decide +kernel
  maintenance := by decide +kernel
  incoming := by decide
  aside_free := by decide +kernel
  oids_distinct := by decide
  aside_ne_target := by decide +kernel

theorem cutover_restore_resumable_after_one_attempt :
    let s := ((attempt zeroDigest id scalarHooks "r1" exampleAttempt).run jointServe
      ((restoredCluster, []), fun id => if id = "r1" then some exampleRecord else none)).2
    ∃ m, s.2 "r1" = some m ∧ (m.cutover = true →
      ∃ o, m.cutover_incoming_oid = some o ∧ s.1.1 "odoo" = some o) := by
  have hserve : ∀ o s, restoreWorld zeroDigest exampleRecord.toPitrRestoreFields o s
      (jointServe o s).1 (jointServe o s).2 := jointServe_faulty _
  have hcall := ends_run hserve (attempt zeroDigest id scalarHooks "r1" exampleAttempt)
    ((restoredCluster, []), fun id => if id = "r1" then some exampleRecord else none)
  have hrun : RestoreRun zeroDigest id scalarHooks exampleRecord.toPitrRestoreFields _ _ :=
    .call (.refl _) trivial hcall
  obtain ⟨m, hm, hlive, -⟩ := cutover_restore_resumable exampleRecord_promotable rfl hrun
  exact ⟨m, hm, hlive⟩

end CutoverRestoreProgress
