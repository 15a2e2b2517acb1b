import Odooctl.CutoverRestore
import Odooctl.DatabaseCutoverProgress

/-!
# A cutover of a restore can always be resumed

The durable record and the cluster are coherent at every moment: the record claims no
more than the cluster shows, and its plan fits the phase the cluster is in. From every
coherent state one attempt without faults comes to its end.
-/
namespace CutoverRestoreSafety

open EffectPrograms PostgresCatalog DatabaseCutover DatabaseCutoverSafety
  DatabaseCutoverProgress PitrRestoreRecord CutoverRestore PythonText

variable {sha256 : Sha256}

/-! ## The set-aside name is a safe component -/

theorem isComponentChar_hexDigit (n : Fin 16) :
    isComponentChar (hexDigit n) = true ∧ hexDigit n ≠ '.' := by
  revert n
  decide

theorem is_safe_component_asideName {target_db incoming_db cutover_id : String}
    (h : is_safe_component target_db = true) :
    is_safe_component (asideName sha256 target_db incoming_db cutover_id) = true := by
  unfold asideName
  extract_lets digest_input suffix prefix_bytes
  have hsuffix : ∀ c ∈ suffix, isComponentChar c = true ∧ c ≠ '.' := by
    intro c hc
    rcases List.mem_append.mp hc with hc | hc
    · have hmarker : CUTOVER_ASIDE_MARKER.toList.all
          (fun c => isComponentChar c && c != '.') = true := by decide +kernel
      simpa using List.all_eq_true.mp hmarker c hc
    · obtain ⟨n, -, rfl⟩ := List.mem_map.mp (List.mem_of_mem_take hc)
      exact isComponentChar_hexDigit n
  have hbytes : utf8Length suffix = 50 := by
    simp only [suffix, utf8Length_append, hexdigest, ← List.map_take, utf8Length_hexDigits]
    rfl
  have hcs : is_safe_component (String.ofList target_db.toList) = true := by
    rw [String.ofList_toList]
    exact h
  refine is_safe_component_append hcs (truncateUtf8_isPrefix _ _) ?_ hsuffix ?_
  · intro hnil
    cases hlist : target_db.toList with
    | nil => simp [is_safe_component, hlist, matchesComponent] at h
    | cons c cs =>
      simp only [is_safe_component, hlist, matchesComponent, Bool.and_eq_true] at h
      have hc := utf8Size_of_isAlphanum h.2.1.1
      simp [hlist, truncateUtf8, hc, prefix_bytes, hbytes, POSTGRES_IDENTIFIER_MAX_BYTES] at hnil
  · have hprefix := Nat.le_trans (length_le_utf8Length _)
      (utf8Length_truncateUtf8 target_db.toList prefix_bytes)
    have hsize := length_le_utf8Length suffix
    have hcut : prefix_bytes = 13 := by simp [prefix_bytes, hbytes, POSTGRES_IDENTIFIER_MAX_BYTES]
    rw [hcut] at hprefix
    rw [List.length_append, hcut]
    omega

/-! ## The plan that a record carries -/

structure Carries (m : PitrRestoreFields) (plan : DatabaseCutoverPlan sha256) : Prop where
  id : plan.cutover_id = m.restore_id
  incoming : plan.incoming_db = m.new_database
  target : plan.target_db = m.database
  aside : m.cutover_aside_database = some plan.aside_db
  incoming_oid : m.cutover_incoming_oid = some plan.incoming_oid
  target_oid : m.cutover_target_oid = plan.target_oid
  maintenance : plan.maintenance_db = "postgres"

theorem cutover_plan_carried {m : PitrRestoreMetadata} {plan : DatabaseCutoverPlan sha256}
    (h : Carries m.toPitrRestoreFields plan) :
    cutover_plan_from_metadata sha256 m = .ok (some plan) := by
  unfold cutover_plan_from_metadata
  have hself := init_self plan
  rw [h.id, h.incoming, h.target, h.maintenance, ← h.target_oid] at hself
  simp only [h.aside, h.incoming_oid]
  rw [hself]
  rfl

/-! ## Coherence of the record and the cluster -/

/-- The cluster with the calls made on it, and the files of the records. -/
abbrev Joint := (Catalog × List AdapterCall) × Restores

def asideOf (sha256 : Sha256) (m : PitrRestoreFields) : DbName :=
  asideName sha256 m.database m.new_database m.restore_id

/-- A verified record whose three names pass the checks of planning. The last field only
speaks of a target that is absent: its set-aside name must be a third name. -/
structure Promotable (sha256 : Sha256) (m : PitrRestoreMetadata) (c : Catalog) : Prop where
  status : m.status = .verified
  unplanned : m.cutover_aside_database = none
  names : asideFault sha256 m.database m.new_database m.restore_id = none
  maintenance : "postgres" ∉ [m.new_database, m.database, asideOf sha256 m.toPitrRestoreFields]
  incoming : c m.new_database ≠ none
  aside_free : c (asideOf sha256 m.toPitrRestoreFields) = none
  oids_distinct : c m.database ≠ c m.new_database
  aside_ne_target : c m.database = none → asideOf sha256 m.toPitrRestoreFields ≠ m.database

theorem Promotable.three_names {m : PitrRestoreMetadata} {c : Catalog}
    (h : Promotable sha256 m c) : asideOf sha256 m.toPitrRestoreFields ≠ m.database := by
  intro he
  have hfree := h.aside_free
  rw [he] at hfree
  exact h.aside_ne_target hfree he

/-- What no attempt changes of a record. -/
structure SameRestore (m₀ m : PitrRestoreFields) : Prop where
  identity : m.identity = m₀.identity
  database : m.database = m₀.database
  new_database : m.new_database = m₀.new_database
  verified : m.verified = true
  status : m.status = .verified ∨ m.status = .cutover

def NoDrop (l : List AdapterCall) : Prop := ∀ d n, .psql d (.dropDatabase n) ∉ l

def SameCluster (sha256 : Sha256) (m₀ : PitrRestoreFields) : Catalog → Catalog → Prop :=
  SameOn m₀.new_database m₀.database (asideOf sha256 m₀)

/-- The fence of the plan: the two databases as the first attempt found them. -/
def Fences (plan : DatabaseCutoverPlan sha256) (m₀ : PitrRestoreFields) (c₀ : Catalog) : Prop :=
  plan.target_oid = c₀ m₀.database ∧ some plan.incoming_oid = c₀ m₀.new_database

/-- How far the cluster is, by what the record says. -/
inductive Coherent (sha256 : Sha256) (m₀ : PitrRestoreFields) (c₀ : Catalog)
    (m : PitrRestoreFields) (s : Catalog × List AdapterCall) : Prop where
  | unplanned (hm : m.cutover_aside_database = none) (hs : SameCluster sha256 m₀ c₀ s.1)
      (hlog : NoDrop s.2)
  | unpromoted (plan : DatabaseCutoverPlan sha256) (ph : Phase) (hm : Carries m plan)
      (hp : Captured plan) (ho : Fences plan m₀ c₀) (hcut : m.cutover = false)
      (hat : At plan ph s) (hlog : NoDrop s.2)
  | promoted (plan : DatabaseCutoverPlan sha256) (hm : Carries m plan) (hp : Captured plan)
      (ho : Fences plan m₀ c₀) (hcut : m.cutover = true) (hlive : Live plan s)

/-- A record of the restore that fits the cluster. -/
def Fits (sha256 : Sha256) (m₀ : PitrRestoreFields) (c₀ : Catalog) (m : PitrRestoreFields)
    (s : Catalog × List AdapterCall) : Prop :=
  SameRestore m₀ m ∧ Coherent sha256 m₀ c₀ m s

def Consistent (sha256 : Sha256) (m₀ : PitrRestoreFields) (c₀ : Catalog) (s : Joint) : Prop :=
  ∃ m, s.2 m₀.restore_id = some m ∧ Fits sha256 m₀ c₀ m.toPitrRestoreFields s.1

/-! ## The worlds -/

/-- Reads tell the truth or raise; a write that raises may have taken effect or not. -/
def hostFaulty : World Host Restores
  | .timestamp, v, _, v' => v' = v
  | .get_pitr_restore restore_id, v, r, v' =>
    v' = v ∧ ∀ m, r = .ok m → v.get_pitr_restore restore_id = .ok m
  | .save_pitr_restore m, v, r, v' =>
    (r = .ok () ∧ v.save_pitr_restore m = .ok v') ∨
      (∃ e, r = .error e) ∧ (v' = v ∨ v.save_pitr_restore m = .ok v')
  | .release_restore_pin _ _, v, _, v' => v' = v

/-- Others write neither the record nor the three names. -/
abbrev restoreWorld (sha256 : Sha256) (m₀ : PitrRestoreFields) :
    World (Adapter.sum Host) Joint :=
  (lossyServerOn m₀.new_database m₀.database (asideOf sha256 m₀)).sum
    (hostFaulty.under fun v v' => v' m₀.restore_id = v m₀.restore_id)

def isMove : Statement → Bool
  | .dropDatabase _ => true
  | .renameDatabase _ _ => true
  | _ => false

variable {m₀ : PitrRestoreFields} {c₀ : Catalog} {m : PitrRestoreMetadata} {pg : Hooks}
  {redact : String → String} {plan : DatabaseCutoverPlan sha256} {ph : Phase} {α β : Type}
  {a : Catalog × List AdapterCall} {v : Restores}

/-- What holds whenever an attempt issues a call. -/
def MayIssue (sha256 : Sha256) (m₀ : PitrRestoreFields) (c₀ : Catalog)
    (o : (Adapter.sum Host).Op) (s : Joint) : Prop :=
  Consistent sha256 m₀ c₀ s ∧ ∀ d sql, o = .inl (.psql d sql) → isMove sql = true →
    ∃ m, s.2 m₀.restore_id = some m ∧ m.cutover_finalized = false ∧
      ∀ n, sql = .dropDatabase n → m.cutover = true ∧ n = asideOf sha256 m₀

/-- How a part of an attempt may end. -/
def Ended (sha256 : Sha256) (m₀ : PitrRestoreFields) (c₀ : Catalog) (ok : α → Joint → Prop) :
    Except CutoverError α → Joint → Prop
  | .ok x, t => ok x t
  | .error e, t => Consistent sha256 m₀ c₀ t ∧ ∀ f, e ≠ .validation f

abbrev Sound (sha256 : Sha256) (m₀ : PitrRestoreFields) (c₀ : Catalog) (p : CutoverM α)
    (ok : α → Joint → Prop) (s : Joint) : Prop :=
  wp (restoreWorld sha256 m₀) (MayIssue sha256 m₀ c₀) p (Ended sha256 m₀ c₀ ok) s

theorem sound_bind {p : CutoverM α} {f : α → CutoverM β} {mid : α → Joint → Prop}
    {ok : β → Joint → Prop} {s : Joint} (h : Sound sha256 m₀ c₀ p mid s)
    (hf : ∀ x t, mid x t → Sound sha256 m₀ c₀ (f x) ok t) :
    Sound sha256 m₀ c₀ (p >>= f) ok s := by
  refine wp_bind'.mpr (wp_post h fun r t ht => ?_)
  cases r with
  | ok x => exact hf x t ht
  | error e => exact ht

theorem SameRestore.restore_id {m : PitrRestoreFields} (h : SameRestore m₀ m) :
    m.restore_id = m₀.restore_id := (List.cons.inj h.identity).1

theorem sound_onDatabase {p : SwapM α} {ok : α → Joint → Prop} {I : AdapterCall → _ → Prop}
    {Q : Except SwapError α → _ → Prop}
    (hp : wp (lossyServerOn m₀.new_database m₀.database (asideOf sha256 m₀)) I p Q a)
    (hI : ∀ o u, I o u → MayIssue sha256 m₀ c₀ (.inl o) (u, v))
    (hok : ∀ x u, Q (.ok x) u → ok x (u, v))
    (herr : ∀ e u, Q (.error e) u → Consistent sha256 m₀ c₀ (u, v)) :
    Sound sha256 m₀ c₀ (onDatabase p) ok (a, v) := by
  unfold onDatabase
  rw [Sound, wp_left, wp_mapError]
  refine wp_mono hp hI fun r u hr => ?_
  cases r with
  | ok x => exact hok x u hr
  | error e => exact ⟨herr e u hr, by intro f hf; cases hf⟩

theorem sound_timestamp {ok : Timestamp → Joint → Prop}
    (hc : Consistent sha256 m₀ c₀ (a, v))
    (hok : ∀ x v', v' m₀.restore_id = v m₀.restore_id → ok x (a, v')) :
    Sound sha256 m₀ c₀ timestamp ok (a, v) := by
  unfold timestamp
  rw [Sound, wp_right]
  refine wp_perform.mpr ⟨⟨hc, by intro d sql he; cases he⟩, ?_⟩
  rintro x v' ⟨u, rfl, hv⟩
  exact hok x v' hv

theorem sound_release {environment : String} {ok : Option String → Joint → Prop}
    (hc : Consistent sha256 m₀ c₀ (a, v))
    (hok : ∀ x v', v' m₀.restore_id = v m₀.restore_id → ok x (a, v')) :
    Sound sha256 m₀ c₀ (release_restore_pin environment m) ok (a, v) := by
  unfold release_restore_pin
  rw [Sound, wp_right]
  refine wp_perform.mpr ⟨⟨hc, by intro d sql he; cases he⟩, ?_⟩
  rintro x v' ⟨u, rfl, hv⟩
  exact hok x v' hv

theorem get_stored {restore_id : String} (h : v.get_pitr_restore restore_id = .ok m) :
    v restore_id = some m := by
  unfold Restores.get_pitr_restore at h
  split at h
  · cases h
  split at h
  · cases h
  next current hcurrent =>
  split at h
  · cases h
  · rw [hcurrent, Except.ok.inj h]

theorem sound_get (hc : Consistent sha256 m₀ c₀ (a, v)) :
    Sound sha256 m₀ c₀ (get_pitr_restore m₀.restore_id)
      (fun m t => t.1 = a ∧ t.2 m₀.restore_id = some m ∧
        Fits sha256 m₀ c₀ m.toPitrRestoreFields a) (a, v) := by
  unfold CutoverRestore.get_pitr_restore
  rw [Sound, wp_right]
  refine wp_perform.mpr ⟨⟨hc, by intro d sql he; cases he⟩, ?_⟩
  obtain ⟨m, hm, hfit⟩ := hc
  rintro r v' ⟨u, ⟨rfl, hr⟩, hv⟩
  have hstored : v' m₀.restore_id = some m := hv.trans hm
  cases r with
  | error e => exact ⟨⟨m, hstored, hfit⟩, by intro f hf; cases hf⟩
  | ok m' =>
    have hget : some m' = some m := (get_stored (hr m' rfl)).symm.trans hm
    cases hget
    exact ⟨rfl, hstored, hfit⟩

theorem save_stored {m' : PitrRestoreMetadata} {v' : Restores}
    (h : v.save_pitr_restore m' = .ok v') : v' m'.restore_id = some m' := by
  unfold Restores.save_pitr_restore at h
  split at h
  · cases h
  split at h
  · cases h
    simp
  split at h
  · cases h
  · cases h
    simp

/-- A write keeps the joint state consistent if both the old and the new record fit. -/
theorem sound_save {m' : PitrRestoreMetadata} {ok : Unit → Joint → Prop}
    (hm : v m₀.restore_id = some m) (hfit : Fits sha256 m₀ c₀ m.toPitrRestoreFields a)
    (hfit' : Fits sha256 m₀ c₀ m'.toPitrRestoreFields a)
    (hok : ∀ v', v' m₀.restore_id = some m' → ok () (a, v')) :
    Sound sha256 m₀ c₀ (CutoverRestore.save_pitr_restore m') ok (a, v) := by
  have hid := hfit'.1.restore_id
  have hstored : ∀ u, v.save_pitr_restore m' = .ok u → u m₀.restore_id = some m' := by
    intro u hu
    rw [← hid]
    exact save_stored hu
  unfold CutoverRestore.save_pitr_restore
  rw [Sound, wp_right]
  refine wp_perform.mpr ⟨⟨⟨m, hm, hfit⟩, by intro d sql he; cases he⟩, ?_⟩
  rintro r v' ⟨u, hu, hv⟩
  rcases hu with ⟨rfl, hsave⟩ | ⟨⟨e, rfl⟩, rfl | hsave⟩
  · exact hok v' (hv.trans (hstored u hsave))
  · exact ⟨⟨m, hv.trans hm, hfit⟩, by intro f hf; cases hf⟩
  · exact ⟨⟨m', hv.trans (hstored u hsave), hfit'⟩, by intro f hf; cases hf⟩

/-- Every update that an attempt makes passes the validators. -/
theorem sound_update {updates : PitrRestoreFields → PitrRestoreFields}
    {ok : PitrRestoreMetadata → Joint → Prop} {s : Joint}
    (hf : (updates m.toPitrRestoreFields).fieldFaults = [])
    (hl : Lifecycle (updates m.toPitrRestoreFields))
    (hok : ∀ m', m'.toPitrRestoreFields = updates m.toPitrRestoreFields → ok m' s) :
    Sound sha256 m₀ c₀ (update m updates) ok s := by
  obtain ⟨m', hm', hfields⟩ := validated_update_ok hf hl
  unfold update
  rw [hm', Sound, wp_ofExcept]
  exact hok m' hfields

theorem lifecycle_last_error {m : PitrRestoreFields} {x : Option String} (h : Lifecycle m) :
    Lifecycle { m with last_error := x } := by
  obtain ⟨h₁, h₂, h₃, h₄, h₅, h₆, h₇, h₈⟩ := h
  exact ⟨h₁, h₂, h₃, h₄, h₅, h₆, h₇, h₈⟩

theorem Carries.last_error {m : PitrRestoreFields} {x : Option String} (h : Carries m plan) :
    Carries { m with last_error := x } plan := by
  obtain ⟨h₁, h₂, h₃, h₄, h₅, h₆, h₇⟩ := h
  exact ⟨h₁, h₂, h₃, h₄, h₅, h₆, h₇⟩

theorem SameRestore.last_error {m : PitrRestoreFields} {x : Option String}
    (h : SameRestore m₀ m) : SameRestore m₀ { m with last_error := x } := by
  obtain ⟨h₁, h₂, h₃, h₄, h₅⟩ := h
  exact ⟨h₁, h₂, h₃, h₄, h₅⟩

theorem Fits.last_error {m : PitrRestoreFields} {x : Option String}
    (h : Fits sha256 m₀ c₀ m a) : Fits sha256 m₀ c₀ { m with last_error := x } a := by
  refine ⟨h.1.last_error, ?_⟩
  cases h.2 with
  | unplanned hm hs hlog => exact .unplanned hm hs hlog
  | unpromoted plan ph hm hp ho hcut hat hlog =>
    exact .unpromoted plan ph hm.last_error hp ho hcut hat hlog
  | promoted plan hm hp ho hcut hlive => exact .promoted plan hm.last_error hp ho hcut hlive

/-- A part that fails on the cluster leaves a fitting record, its error noted or not. -/
theorem sound_recordingError {p : SwapM α} {ok : α → Joint → Prop} {I : AdapterCall → _ → Prop}
    {Q : Except SwapError α → _ → Prop} (hm : v m₀.restore_id = some m)
    (hp : wp (lossyServerOn m₀.new_database m₀.database (asideOf sha256 m₀)) I p Q a)
    (hI : ∀ o u, I o u → MayIssue sha256 m₀ c₀ (.inl o) (u, v))
    (hok : ∀ x u, Q (.ok x) u → ok x (u, v))
    (herr : ∀ e u, Q (.error e) u → Fits sha256 m₀ c₀ m.toPitrRestoreFields u) :
    Sound sha256 m₀ c₀ (recordingError redact m (onDatabase p)) ok (a, v) := by
  unfold recordingError onDatabase
  rw [Sound, wp_bind', wp_attempt, wp_left, wp_mapError]
  refine wp_mono hp hI fun r u hr => ?_
  cases r with
  | ok x => exact hok x u hr
  | error e =>
  have hfit := herr e u hr
  simp only [Except.mapError]
  split
  · exact ⟨⟨m, hm, hfit⟩, by intro f hf; cases hf⟩
  · refine sound_bind (sound_update m.fields_sound (lifecycle_last_error m.lifecycle) ?_)
      fun m' t ht => ht
    intro m' hm'
    have hfit' : Fits sha256 m₀ c₀ m'.toPitrRestoreFields u := by
      rw [hm']
      exact hfit.last_error
    refine sound_bind (sound_save hm hfit hfit' fun v' hv' => ?_) fun x t ht => ht
    exact ⟨⟨m', hv', hfit'⟩, by intro f hf; cases hf⟩

/-! ## The stages of an attempt -/

theorem noDrop_append {l : List AdapterCall} {o : AdapterCall} (h : NoDrop l)
    (ho : ∀ d n, o ≠ .psql d (.dropDatabase n)) : NoDrop (l ++ [o]) := by
  intro d n hmem
  rcases List.mem_append.mp hmem with hmem | hmem
  · exact h d n hmem
  · exact ho d n (List.mem_singleton.mp hmem).symm

theorem carried_aside {m : PitrRestoreFields} (hs : SameRestore m₀ m) (h : Carries m plan) :
    plan.incoming_db = m₀.new_database ∧ plan.target_db = m₀.database ∧
      plan.aside_db = asideOf sha256 m₀ := by
  have hi := h.incoming.trans hs.new_database
  have ht := h.target.trans hs.database
  refine ⟨hi, ht, ?_⟩
  rw [plan.aside_eq, asideOf, hi, ht, h.id, hs.restore_id]

theorem not_cutover (hun : m.cutover_aside_database = none) : m.cutover = false := by
  by_contra hcut
  have hplanned := m.lifecycle.planned (by simpa using hcut)
  rw [hun] at hplanned
  cases hplanned

theorem not_finalized (hcut : m.cutover = false) : m.cutover_finalized = false := by
  by_contra hf
  have hcut' := m.lifecycle.finalized (by simpa using hf)
  rw [hcut] at hcut'
  cases hcut'

/-- Before its plan is durable an attempt only looks at the cluster. -/
theorem sound_looking {p : SwapM α} {ok : α → Joint → Prop}
    {Q : Except SwapError α → _ → Prop} (hm : v m₀.restore_id = some m)
    (hs : SameRestore m₀ m.toPitrRestoreFields) (hun : m.cutover_aside_database = none)
    (hc : SameCluster sha256 m₀ c₀ a.1) (hlog : NoDrop a.2)
    (hp : wp (lossyServerOn m₀.new_database m₀.database (asideOf sha256 m₀))
      (fun o u => Inert u.1 o) p Q a)
    (hok : ∀ x u, Q (.ok x) u → SameCluster sha256 m₀ c₀ u.1 → NoDrop u.2 → ok x (u, v)) :
    Sound sha256 m₀ c₀ (onDatabase p) ok (a, v) := by
  have hstable := wp_stable (P := fun u => SameCluster sha256 m₀ c₀ u.1 ∧ NoDrop u.2) hp
    ⟨hc, hlog⟩ (by
      rintro o u r t ho ⟨hc, hlog⟩ hstep
      exact ⟨sameOn_trans hc (quiet_step ho hstep).1, hstep.2 ▸ noDrop_append hlog ho.2⟩)
  have hcut : m.cutover = false := not_cutover hun
  refine sound_onDatabase hstable ?_ (fun x u hu => hok x u hu.1 hu.2.1 hu.2.2) ?_
  · rintro o u ⟨hinert, hc, hlog⟩
    refine ⟨⟨m, hm, hs, .unplanned hun hc hlog⟩, fun d sql he _ => ?_⟩
    refine ⟨m, hm, not_finalized hcut, ?_⟩
    rintro n rfl
    exact absurd (Sum.inl.inj he) (hinert.2 d n)
  · rintro e u ⟨-, hc, hlog⟩
    exact ⟨m, hm, hs, .unplanned hun hc hlog⟩

theorem wp_verify {i t x n : DbName} :
    wp (lossyServerOn i t x) (fun o u => Inert u.1 o) (verify_recovered_database n)
      (fun _ _ => True) a := by
  unfold verify_recovered_database ping psql
  rw [wp_bind']
  refine wp_perform.mpr ⟨inert_of_unaffected (by rintro d ⟨⟩), ?_⟩
  rintro (e | ⟨⟩) u -
  · trivial
  · refine wp_perform.mpr ⟨⟨?_, by intro m n he; cases he⟩, fun _ _ _ => trivial⟩
    rintro d ⟨⟨⟩⟩
    rfl

/-- A durable plan: where an attempt stands between two of its stages. -/
structure Planned (m₀ : PitrRestoreFields) (c₀ : Catalog) (m : PitrRestoreMetadata)
    (plan : DatabaseCutoverPlan sha256) (t : Joint) : Prop where
  stored : t.2 m₀.restore_id = some m
  same : SameRestore m₀ m.toPitrRestoreFields
  carries : Carries m.toPitrRestoreFields plan
  captured : Captured plan
  fences : Fences plan m₀ c₀
  progress : (m.cutover = false ∧ NoDrop t.1.2 ∧ ∃ ph, At plan ph t.1) ∨
    (m.cutover = true ∧ Live plan t.1)

theorem Planned.consistent {t : Joint} (h : Planned m₀ c₀ m plan t) :
    Consistent sha256 m₀ c₀ t := by
  refine ⟨m, h.stored, h.same, ?_⟩
  rcases h.progress with ⟨hcut, hlog, ph, hat⟩ | ⟨hcut, hlive⟩
  · exact .unpromoted plan ph h.carries h.captured h.fences hcut hat hlog
  · exact .promoted plan h.carries h.captured h.fences hcut hlive

theorem componentFault_none {label value : String} :
    componentFault label value = none ↔ is_safe_component value = true := by
  unfold componentFault
  split <;> simp_all

/-- A plan whose set-aside name is a safe component is a sound part of a record. -/
theorem fieldFaults_planned {m u : PitrRestoreFields} (hm : m.fieldFaults = [])
    (hu : u = { m with
      cutover_aside_database := u.cutover_aside_database
      cutover_incoming_oid := u.cutover_incoming_oid
      cutover_target_oid := u.cutover_target_oid
      cutover_started_at := u.cutover_started_at
      last_error := u.last_error })
    (ha : u.cutover_aside_database = some (asideOf sha256 m)) : u.fieldFaults = [] := by
  simp only [PitrRestoreFields.fieldFaults, List.reduceOption, List.filterMap_eq_nil_iff,
    List.mem_cons, List.not_mem_nil, or_false, forall_eq_or_imp, forall_eq, id] at hm ⊢
  obtain ⟨h₁, h₂, h₃, h₄, h₅, h₆, h₇, hdb, h₉, h₁₀, -⟩ := hm
  have haside : componentFault "cutover_aside_database" (asideOf sha256 m) = none :=
    componentFault_none.mpr (is_safe_component_asideName (componentFault_none.mp hdb))
  rw [hu, ha]
  exact ⟨h₁, h₂, h₃, h₄, h₅, h₆, h₇, hdb, h₉, h₁₀, haside⟩

theorem sound_record_cutover_plan (hm : v m₀.restore_id = some m)
    (hs : SameRestore m₀ m.toPitrRestoreFields) (hun : m.cutover_aside_database = none)
    (hc : SameCluster sha256 m₀ c₀ a.1) (hlog : NoDrop a.2) :
    Sound sha256 m₀ c₀ (record_cutover_plan sha256 pg m)
      (fun x t => x.1.cutover_finalized = false ∧ Planned m₀ c₀ x.1 x.2 t) (a, v) := by
  have hverify : Sound sha256 m₀ c₀ (onDatabase (verify_recovered_database m.new_database))
      (fun _ t => t.2 = v ∧ SameCluster sha256 m₀ c₀ t.1.1 ∧ NoDrop t.1.2) (a, v) :=
    sound_looking hm hs hun hc hlog wp_verify fun _ u _ hc hlog => ⟨rfl, hc, hlog⟩
  unfold record_cutover_plan
  refine sound_bind hverify ?_
  rintro - ⟨u, v₁⟩ ⟨rfl, hc₁, hlog₁⟩
  have hwp : wp (lossyServerOn m₀.new_database m₀.database (asideOf sha256 m₀))
      (fun o u => Inert u.1 o)
      (plan_database_cutover sha256 pg m.new_database m.database m.restore_id)
      (fun r t => ∀ p, r = .ok p →
        Fresh sha256 m.new_database m.database "postgres" m.restore_id p t.1) u := by
    rw [asideOf, ← hs.new_database, ← hs.database, ← hs.restore_id]
    exact wp_plan
  have hplan : Sound sha256 m₀ c₀
      (onDatabase (plan_database_cutover sha256 pg m.new_database m.database m.restore_id))
      (fun p t => t.2 = v₁ ∧ SameCluster sha256 m₀ c₀ t.1.1 ∧ NoDrop t.1.2 ∧
        Fresh sha256 m.new_database m.database "postgres" m.restore_id p t.1.1) (u, v₁) :=
    sound_looking hm hs hun hc₁ hlog₁ hwp fun p u hp hc hlog => ⟨rfl, hc, hlog, hp p rfl⟩
  refine sound_bind hplan ?_
  rintro p ⟨w, v₂⟩ ⟨rfl, hc₂, hlog₂, hp⟩
  have hfits : Fits sha256 m₀ c₀ m.toPitrRestoreFields w := ⟨hs, .unplanned hun hc₂ hlog₂⟩
  refine sound_bind (sound_timestamp ⟨m, hm, hfits⟩ fun x v₃ hv₃ => ?_) fun x t ht => ht
  have hm₃ : v₃ m₀.restore_id = some m := hv₃.trans hm
  have haside : p.aside_db = asideOf sha256 m.toPitrRestoreFields := by
    rw [p.aside_eq, asideOf, hp.target, hp.incoming, hp.id]
  refine sound_bind (sound_update ?_ ?_ fun m' hm' => ?_) fun m' t ht => ht
  · exact fieldFaults_planned m.fields_sound rfl (congrArg some haside)
  · obtain ⟨h₁, h₂, h₃, h₄, h₅, h₆, h₇, h₈⟩ := m.lifecycle
    exact ⟨h₁, rfl, rfl, h₄, h₅, fun _ => rfl, h₇, h₈⟩
  have hcut : m.cutover = false := not_cutover hun
  have hs' : SameRestore m₀ m'.toPitrRestoreFields := by
    rw [hm']
    exact ⟨hs.identity, hs.database, hs.new_database, hs.verified, hs.status⟩
  have hcarries : Carries m'.toPitrRestoreFields p := by
    rw [hm']
    exact ⟨hp.id, hp.incoming, hp.target, rfl, rfl, rfl, hp.maintenance⟩
  have hcut' : m'.cutover = false := by rw [hm', hcut]
  have hfence : Fences p m₀ c₀ := by
    constructor
    · rw [← hc₂.2.1, ← hs.database, ← hp.target, hp.ready.2.1]
    · rw [← hc₂.1, ← hs.new_database, ← hp.incoming, hp.ready.1]
  have hat : At p .ready w := ⟨hp.ready, fun hf => by cases hf⟩
  have hfits' : Fits sha256 m₀ c₀ m'.toPitrRestoreFields w :=
    ⟨hs', .unpromoted p .ready hcarries hp.captured hfence hcut' hat hlog₂⟩
  refine sound_bind (sound_save hm₃ hfits hfits' fun v₄ hv₄ => ?_) fun x t ht => ht
  exact ⟨not_finalized hcut', hv₄, hs', hcarries, hp.captured, hfence,
    .inl ⟨hcut', hlog₂, _, hat⟩⟩

/-- While the record does not claim the cutover, promotion drops nothing. -/
theorem wp_promote_fits (hs : SameRestore m₀ m.toPitrRestoreFields)
    (hm : Carries m.toPitrRestoreFields plan) (hp : Captured plan) (hat : At plan ph a)
    (hlog : NoDrop a.2) :
    wp (lossyServerOn m₀.new_database m₀.database (asideOf sha256 m₀))
      (fun o u => Issued plan False o u ∧ NoDrop u.2) (promote_database_cutover pg plan)
      (fun r u => PromotePost plan r u ∧ NoDrop u.2) a := by
  obtain ⟨hi, ht, ha⟩ := carried_aside hs hm
  rw [← hi, ← ht, ← ha]
  refine wp_stable (wp_promote hp hat) hlog ?_
  intro o u r t hissued hlog hstep
  rw [hstep.2]
  exact noDrop_append hlog fun d n he => (hissued.2 d n he).1

theorem sound_record_promotion (h : Planned m₀ c₀ m plan (a, v)) (hcut : m.cutover = false) :
    Sound sha256 m₀ c₀ (record_promotion redact pg m plan)
      (fun m' t => m'.cutover = true ∧ m'.cutover_finalized = false ∧ Planned m₀ c₀ m' plan t)
      (a, v) := by
  obtain ⟨hm, hs, hcarries, hp, hfence, hprogress⟩ := h
  obtain ⟨-, hlog, ph, hat⟩ := hprogress.resolve_right (by rw [hcut]; rintro ⟨⟨⟩, -⟩)
  have hunpromoted : ∀ u q, At plan q u → NoDrop u.2 →
      Fits sha256 m₀ c₀ m.toPitrRestoreFields u := fun u q hq hlog =>
    ⟨hs, .unpromoted plan q hcarries hp hfence hcut hq hlog⟩
  have hpromote : Sound sha256 m₀ c₀
      (recordingError redact m (onDatabase (promote_database_cutover pg plan)))
      (fun status t => t.2 = v ∧ status.isPromoted = true ∧ NoDrop t.1.2 ∧ Live plan t.1)
      (a, v) := by
    refine sound_recordingError hm (wp_promote_fits hs hcarries hp hat hlog) ?_ ?_ ?_
    · rintro o u ⟨hissued, hlog⟩
      obtain ⟨q, hq, -⟩ := hissued.1
      refine ⟨⟨m, hm, hunpromoted u q hq hlog⟩, fun d sql he _ => ?_⟩
      refine ⟨m, hm, not_finalized hcut, ?_⟩
      rintro n rfl
      exact (hissued.2 d n (Sum.inl.inj he)).1.elim
    · rintro status u ⟨⟨-, hpost⟩, hlog⟩
      obtain ⟨hpr, hlive⟩ := hpost status rfl
      exact ⟨rfl, hpr, hlog, hlive⟩
    · rintro e u ⟨⟨⟨q, hq⟩, -⟩, hlog⟩
      exact hunpromoted u q hq hlog
  unfold record_promotion
  refine sound_bind hpromote ?_
  rintro status ⟨u, v₁⟩ ⟨rfl, hpr, hlog, hlive⟩
  have hfits : Fits sha256 m₀ c₀ m.toPitrRestoreFields u :=
    hlive.elim (fun h => hunpromoted u _ h hlog) (fun h => hunpromoted u _ h hlog)
  simp only [hpr, Bool.true_eq_false, ↓reduceIte]
  refine sound_bind (sound_timestamp ⟨m, hm, hfits⟩ fun x v₂ hv₂ => ?_) fun x t ht => ht
  have hm₂ : v₂ m₀.restore_id = some m := hv₂.trans hm
  refine sound_bind (sound_update m.fields_sound ?_ fun m' hm' => ?_) fun m' t ht => ht
  · obtain ⟨h₁, h₂, h₃, h₄, h₅, h₆, h₇, h₈⟩ := m.lifecycle
    exact ⟨h₁, h₂, h₃, fun _ => hs.verified, by simp, fun _ => by simp [hcarries.aside], rfl,
      fun _ => rfl⟩
  have hs' : SameRestore m₀ m'.toPitrRestoreFields := by
    rw [hm']
    exact ⟨hs.identity, hs.database, hs.new_database, hs.verified, .inr rfl⟩
  have hcarries' : Carries m'.toPitrRestoreFields plan := by
    rw [hm']
    obtain ⟨h₁, h₂, h₃, h₄, h₅, h₆, h₇⟩ := hcarries
    exact ⟨h₁, h₂, h₃, h₄, h₅, h₆, h₇⟩
  have hcut' : m'.cutover = true := by rw [hm']
  have hfin' : m'.cutover_finalized = false := by
    rw [hm']
    exact not_finalized hcut
  have hfits' : Fits sha256 m₀ c₀ m'.toPitrRestoreFields u :=
    ⟨hs', .promoted plan hcarries' hp hfence hcut' hlive⟩
  refine sound_bind (sound_save hm₂ hfits hfits' fun v₃ hv₃ => ?_) fun x t ht => ht
  exact ⟨hcut', hfin', hv₃, hs', hcarries', hp, hfence, .inr ⟨hcut', hlive⟩⟩

/-- Once the record claims the cutover, the incoming database stays live. -/
theorem wp_finalize_fits (hs : SameRestore m₀ m.toPitrRestoreFields)
    (hm : Carries m.toPitrRestoreFields plan) (hp : Captured plan) (hlive : Live plan a) :
    wp (lossyServerOn m₀.new_database m₀.database (asideOf sha256 m₀))
      (fun o u => Issued plan True o u ∧ Live plan u) (finalize_database_cutover pg plan true)
      (fun r u => FinalizePost plan r u ∧ Live plan u) a := by
  obtain ⟨hi, ht, ha⟩ := carried_aside hs hm
  rw [← hi, ← ht, ← ha]
  have hfinalize : wp (lossyServer plan) (Issued plan True)
      (finalize_database_cutover pg plan true) (FinalizePost plan) a := by
    rcases hlive with h | h
    · exact wp_finalize hp h fun _ => trivial
    · exact wp_finalize hp h fun _ => trivial
  exact wp_stable hfinalize hlive fun o u r t hissued hlive hstep =>
    live_step hp hissued hlive hstep

theorem sound_record_finalization {environment : String} (h : Planned m₀ c₀ m plan (a, v))
    (hcut : m.cutover = true) (hfin : m.cutover_finalized = false) :
    Sound sha256 m₀ c₀ (record_finalization redact pg environment m plan)
      (fun m' t => m'.cutover_finalized = true ∧ Planned m₀ c₀ m' plan t) (a, v) := by
  obtain ⟨hm, hs, hcarries, hp, hfence, hprogress⟩ := h
  obtain ⟨-, hlive⟩ := hprogress.resolve_left (by rw [hcut]; rintro ⟨⟨⟩, -⟩)
  have hpromoted : ∀ u, Live plan u → Fits sha256 m₀ c₀ m.toPitrRestoreFields u := fun u hu =>
    ⟨hs, .promoted plan hcarries hp hfence hcut hu⟩
  have haside := (carried_aside hs hcarries).2.2
  have hfinalize : Sound sha256 m₀ c₀
      (recordingError redact m (onDatabase (finalize_database_cutover pg plan true)))
      (fun status t => t.2 = v ∧ status.isPromoted = true ∧ Live plan t.1) (a, v) := by
    refine sound_recordingError hm (wp_finalize_fits hs hcarries hp hlive) ?_ ?_ ?_
    · rintro o u ⟨hissued, hlive⟩
      refine ⟨⟨m, hm, hpromoted u hlive⟩, fun d sql he _ => ⟨m, hm, hfin, ?_⟩⟩
      rintro n rfl
      obtain rfl := Sum.inl.inj he
      have hdrop := (hissued.2 d n rfl).2.1
      simp only [dropCall, AdapterCall.psql.injEq, Statement.dropDatabase.injEq] at hdrop
      exact ⟨hcut, hdrop.2.trans haside⟩
    · rintro status u ⟨⟨-, hpost⟩, hlive⟩
      exact ⟨rfl, (hpost status rfl).1, hlive⟩
    · rintro e u ⟨-, hlive⟩
      exact hpromoted u hlive
  unfold record_finalization
  refine sound_bind hfinalize ?_
  rintro status ⟨u, v₁⟩ ⟨rfl, hpr, hlive⟩
  simp only [hpr, Bool.true_eq_false, ↓reduceIte]
  refine sound_bind (sound_update m.fields_sound ?_ fun m' hm' => ?_) fun m' t ht => ht
  · obtain ⟨h₁, h₂, h₃, h₄, h₅, h₆, h₇, h₈⟩ := m.lifecycle
    exact ⟨h₁, h₂, h₃, h₄, h₅, h₆, h₇, fun _ => hcut⟩
  have hs' : SameRestore m₀ m'.toPitrRestoreFields := by
    rw [hm']
    exact ⟨hs.identity, hs.database, hs.new_database, hs.verified, hs.status⟩
  have hcarries' : Carries m'.toPitrRestoreFields plan := by
    rw [hm']
    obtain ⟨h₁, h₂, h₃, h₄, h₅, h₆, h₇⟩ := hcarries
    exact ⟨h₁, h₂, h₃, h₄, h₅, h₆, h₇⟩
  have hcut' : m'.cutover = true := by rw [hm', hcut]
  have hfin' : m'.cutover_finalized = true := by rw [hm']
  have hfits' : Fits sha256 m₀ c₀ m'.toPitrRestoreFields u :=
    ⟨hs', .promoted plan hcarries' hp hfence hcut' hlive⟩
  refine sound_bind (sound_save hm (hpromoted u hlive) hfits' fun v₂ hv₂ => ?_) fun x t ht => ht
  refine sound_bind (sound_release ⟨m', hv₂, hfits'⟩ fun x v₃ hv₃ => ?_) fun x t ht => ht
  have hm₃ : v₃ m₀.restore_id = some m' := hv₃.trans hv₂
  have hdone : m'.cutover_finalized = true ∧ Planned m₀ c₀ m' plan (u, v₃) :=
    ⟨hfin', hm₃, hs', hcarries', hp, hfence, .inr ⟨hcut', hlive⟩⟩
  cases x with
  | none => exact hdone
  | some pin_warning =>
  simp only
  split
  · exact hdone
  refine sound_bind (sound_update m'.fields_sound (lifecycle_last_error m'.lifecycle)
    fun m'' hm'' => ?_) fun m'' t ht => ht
  have hfits'' : Fits sha256 m₀ c₀ m''.toPitrRestoreFields u := by
    rw [hm'']
    exact hfits'.last_error
  have hcarries'' : Carries m''.toPitrRestoreFields plan := by
    rw [hm'']
    exact hcarries'.last_error
  refine sound_bind (sound_save hm₃ hfits' hfits'' fun v₄ hv₄ => ?_) fun x t ht => ht
  refine ⟨by rw [hm'', hfin'], hv₄, hfits''.1, hcarries'', hp, hfence, .inr ⟨?_, hlive⟩⟩
  rw [hm'', hcut']

theorem sound_ofExcept {r : Except CutoverError α} {f : α → CutoverM β}
    {ok : β → Joint → Prop} {s : Joint} (hc : Consistent sha256 m₀ c₀ s)
    (hv : ∀ faults, r ≠ .error (.validation faults))
    (hf : ∀ x, r = .ok x → Sound sha256 m₀ c₀ (f x) ok s) :
    Sound sha256 m₀ c₀ (Prog.ofExcept r >>= f) ok s := by
  rw [Sound, wp_bind', wp_ofExcept]
  cases r with
  | ok x => exact hf x rfl
  | error e => exact ⟨hc, fun faults he => hv faults (by rw [he])⟩

theorem pitr_config_error (ctx : ServiceContext) (environment : String) (f : List String) :
    pitr_config ctx environment ≠ .error (.validation f) := by
  intro h
  unfold pitr_config at h
  repeat' split at h
  all_goals cases h

theorem sound_promote_and_finalize {environment : String}
    (h : Planned m₀ c₀ m plan (a, v)) (hfin : m.cutover_finalized = false) :
    Sound sha256 m₀ c₀ (promote_and_finalize redact pg environment m plan)
      (fun _ t => Consistent sha256 m₀ c₀ t) (a, v) := by
  have hlast : ∀ (m' : PitrRestoreMetadata) (t : Joint), m'.cutover = true ∧
      m'.cutover_finalized = false ∧ Planned m₀ c₀ m' plan t →
      Sound sha256 m₀ c₀ (record_finalization redact pg environment m' plan)
        (fun _ t => Consistent sha256 m₀ c₀ t) t := by
    rintro m' ⟨u, w⟩ ⟨hcut, hfin, hp⟩
    refine wp_post (sound_record_finalization hp hcut hfin) fun r t ht => ?_
    cases r with
    | ok x => exact ht.2.consistent
    | error e => exact ht
  unfold promote_and_finalize
  split
  · next hcut => exact hlast m _ ⟨hcut, hfin, h⟩
  · next hcut => exact sound_bind (sound_record_promotion h (by simpa using hcut)) hlast

/-- From every consistent state an attempt keeps the record and the cluster consistent. -/
theorem sound_cutover_restore {ctx : ServiceContext} {call : Confirmation}
    (hc : Consistent sha256 m₀ c₀ (a, v)) :
    Sound sha256 m₀ c₀ (cutover_restore sha256 redact pg ctx m₀.restore_id call)
      (fun _ t => Consistent sha256 m₀ c₀ t) (a, v) := by
  have hreject : ∀ {t : Joint} {message : String}, Consistent sha256 m₀ c₀ t →
      Sound sha256 m₀ c₀ (.raise (.pitrError message) : CutoverM PitrRestoreMetadata)
        (fun _ t => Consistent sha256 m₀ c₀ t) t :=
    fun ht => ⟨ht, by intro f hf; cases hf⟩
  unfold cutover_restore
  refine sound_ofExcept hc (pitr_config_error _ _) fun _ _ => ?_
  refine sound_bind (sound_get hc) ?_
  rintro m ⟨u, w⟩ ⟨rfl, hm, hfit⟩
  have hc : Consistent sha256 m₀ c₀ (u, w) := ⟨m, hm, hfit⟩
  refine sound_ofExcept hc ?_ fun expected_database henv => ?_
  · intro f he
    cases henv : ctx.env call.environment <;> simp [henv, Except.mapError] at he
  split
  · exact hreject hc
  split
  · split
    · exact hc
    · exact hreject hc
  next hact =>
  have hfin : m.cutover_finalized = false := by
    by_contra hfin
    simp only [Bool.not_eq_false] at hfin
    have hcut := m.lifecycle.finalized hfin
    have hstatus := m.lifecycle.status.mp hcut
    simp [actionable, hfin, hcut, hstatus] at hact
  obtain ⟨hs, hcoh⟩ := hfit
  cases hcoh with
  | unplanned hun hcluster hlog =>
    have hnone : cutover_plan_from_metadata sha256 m = .ok none := by
      simp only [cutover_plan_from_metadata, hun]
    refine sound_ofExcept hc (by rw [hnone]; intro f he; cases he) fun x hx => ?_
    obtain rfl : none = x := Except.ok.inj (hnone.symm.trans hx)
    refine sound_bind (sound_record_cutover_plan hm hs hun hcluster hlog) ?_
    rintro ⟨m', plan⟩ ⟨u', w'⟩ ⟨hfin', hplanned⟩
    exact sound_promote_and_finalize hplanned hfin'
  | unpromoted plan ph hcarries hp hfence hcut hat hlog =>
    have hsome := cutover_plan_carried hcarries
    refine sound_ofExcept hc (by rw [hsome]; intro f he; cases he) fun x hx => ?_
    obtain rfl : some plan = x := Except.ok.inj (hsome.symm.trans hx)
    exact sound_promote_and_finalize
      ⟨hm, hs, hcarries, hp, hfence, .inl ⟨hcut, hlog, ph, hat⟩⟩ hfin
  | promoted plan hcarries hp hfence hcut hlive =>
    have hsome := cutover_plan_carried hcarries
    refine sound_ofExcept hc (by rw [hsome]; intro f he; cases he) fun x hx => ?_
    obtain rfl : some plan = x := Except.ok.inj (hsome.symm.trans hx)
    exact sound_promote_and_finalize
      ⟨hm, hs, hcarries, hp, hfence, .inr ⟨hcut, hlive⟩⟩ hfin

end CutoverRestoreSafety
