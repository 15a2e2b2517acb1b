import Odooctl.PitrRetentionSafety
import Odooctl.ProgramRules
import Odooctl.RecoveryPlanning
import Odooctl.WalSegmentOrder

/-!
# Recovery stages what was planned

A plan is derived from the inventory of the archive, and executed from the boundaries it
records. The plan is sound for the archive it was made from, and both derivations agree on
the segments for as long as what the plan rests on is there.
-/
namespace RecoveryAgreement

open EffectPrograms ProgramRules CheckedLists PitrRestoreRecord WalSegments WalSegmentOrder
  PitrArchive PitrRetention PitrRetentionSafety RecoveryPlanning

/-! ## What a plan rests on -/

section Statements

variable (ctx : PitrContext) (r : PlanRequest) (s t u : Archive) (plan : PitrRecoveryPlan)
  (base : PitrBaseBackupManifest) (selected : List WalReceipt)

/-- The base of a plan: of those that precede the target the last to be completed. -/
structure LatestBase : Prop where
  listed : Listed s base
  eligible : is_eligible r.target r.base_backup_id base = true
  latest : ∀ (id : String) b, s.bases[id]? = some b →
    is_eligible r.target r.base_backup_id b.manifest = true →
    (compareKey (b.manifest.ended, b.manifest.base_backup_id)
      (base.ended, base.base_backup_id)).isLE = true

/-- The WAL of a plan: the segments of one timeline from the end of the base to the newest. -/
structure CompleteWal (start stop : ℕ) : Prop where
  ordered : start ≤ stop
  starts : wal_sequence base.end_wal base.wal_segment_size = .ok start
  run : SegmentRun base.timeline base.wal_segment_size start stop (selected.map (·.filename))
  archived : ∀ x ∈ selected, ∃ w, s.wal[x.filename]? = some w ∧ w.sha256 = x.sha256 ∧
    w.size = x.size
  newest : ∀ (name : String) w, s.wal[name]? = some w → isSegmentName name.toList = true →
    timelineOf name = base.timeline →
    ∃ q, wal_sequence name base.wal_segment_size = .ok q ∧ q ≤ stop

/-- What a plan records of its target, its base and its WAL. -/
structure Describes : Prop where
  scope : (plan.project, plan.environment, plan.cluster_id, plan.database) =
    (ctx.project, ctx.environment, ctx.cluster_id, r.database)
  target : plan.target_time = r.target
  timeline : plan.target_timeline = base.timeline
  base_id : plan.base_backup_id = base.base_backup_id
  system : plan.system_identifier = base.system_identifier
  image : plan.recovery_image = base.postgres_image
  first : selected.head?.map (·.filename) = some plan.first_wal
  last : selected.getLast?.map (·.filename) = some plan.last_wal
  count : plan.wal_count = selected.length
  bytes : plan.wal_bytes = (selected.map (·.size)).sum
  bounded : selected.length ≤ MAX_PITR_WAL_SEGMENTS
  status : plan.status = .planned

/-- A local receipt of the same object. -/
def Recorded (x : WalReceipt) : Prop :=
  ∃ y, t.receipts[x.filename]? = some y ∧ y.filename = x.filename ∧ y.sha256 = x.sha256 ∧
    y.size = x.size

/-- What planning leaves behind: a pin and a plan, and the local records they rest on. -/
structure Published : Prop where
  bases : t.bases = s.bases
  wal : t.wal = s.wal
  plans : t.plans = s.plans.insert plan.plan_id plan
  pins : ∀ key, key ≠ pin_key .plan plan.plan_id → t.pins[key]? = s.pins[key]?
  pinned : ∃ pin, t.pins[pin_key .plan plan.plan_id]? = some pin ∧ pin.kind = .plan ∧
    pin.pin_id = plan.plan_id ∧ pin.environment = ctx.environment ∧
    pin.base_backup_id = base.base_backup_id ∧ pin.wal_segments = pin_segments selected
  manifest : t.manifests[base.base_backup_id]? = some base
  receipts : ∀ x ∈ selected, Recorded t x

/-- What a plan rests on is as it was. -/
structure Unchanged : Prop where
  record : u.plans[plan.plan_id]? = t.plans[plan.plan_id]?
  manifest : u.manifests[plan.base_backup_id]? = t.manifests[plan.base_backup_id]?
  marker : u.bases[plan.base_backup_id]? = t.bases[plan.base_backup_id]?
  pin : u.pins[pin_key .plan plan.plan_id]? = t.pins[pin_key .plan plan.plan_id]?
  wal : ∀ x ∈ selected, u.wal[x.filename]? = t.wal[x.filename]?
  receipts : ∀ x ∈ selected, u.receipts[x.filename]? = t.receipts[x.filename]?

end Statements

variable {ctx : PitrContext} {r : PlanRequest} {s t u : Archive} {plan : PitrRecoveryPlan}
  {base : PitrBaseBackupManifest} {selected receipts : List WalReceipt}

/-! ## Choosing -/

theorem foldl_greatest {α : Type} (key : α → Timestamp × String) (xs : List α) (x : α) :
    let best := xs.foldl (fun best y => if compareKey (key y) (key best) = .gt then y else best) x
    best ∈ x :: xs ∧ ∀ y ∈ x :: xs, (compareKey (key y) (key best)).isLE = true := by
  induction xs generalizing x with
  | nil =>
    refine ⟨List.mem_singleton_self x, ?_⟩
    intro y hy
    have hself : compareKey (key x) (key x) = .eq := Std.ReflCmp.compare_self
    rw [List.mem_singleton.mp hy, List.foldl_nil, hself]
    rfl
  | cons z zs ih =>
    rw [List.foldl_cons]
    split
    · next hgt =>
      obtain ⟨hmem, hle⟩ := ih z
      refine ⟨List.mem_cons_of_mem x hmem, ?_⟩
      intro y hy
      rcases List.mem_cons.mp hy with rfl | hy
      · have hxz : (compareKey (key y) (key z)).isLE = true := by
          rw [Std.OrientedCmp.lt_of_gt hgt]
          rfl
        exact Std.TransCmp.isLE_trans hxz (hle z List.mem_cons_self)
      · exact hle y hy
    · next hgt =>
      obtain ⟨hmem, hle⟩ := ih x
      constructor
      · rcases List.mem_cons.mp hmem with hx | hz
        · rw [hx]
          exact List.mem_cons_self
        · exact List.mem_cons_of_mem x (List.mem_cons_of_mem z hz)
      intro y hy
      rcases List.mem_cons.mp hy with rfl | hy
      · exact hle y List.mem_cons_self
      rcases List.mem_cons.mp hy with rfl | hy
      · have hzx : (compareKey (key y) (key x)).isLE = true := by
          rw [Ordering.isLE_iff_ne_gt]
          exact hgt
        exact Std.TransCmp.isLE_trans hzx (hle x List.mem_cons_self)
      · exact hle y (List.mem_cons_of_mem x hy)

theorem latest_base_ok {target : Timestamp} {id : Option String}
    {bases : List PitrBaseBackupManifest} (h : latest_base target id bases = .ok base) :
    (base ∈ bases ∧ is_eligible target id base = true) ∧
    ∀ m ∈ bases, is_eligible target id m = true →
      (compareKey (m.ended, m.base_backup_id) (base.ended, base.base_backup_id)).isLE = true := by
  unfold latest_base at h
  cases heligible : bases.filter (is_eligible target id) with
  | nil =>
    rw [heligible] at h
    cases h
  | cons x xs =>
    simp only [heligible, maxBy] at h
    cases h
    obtain ⟨hmem, hle⟩ := foldl_greatest
      (fun m : PitrBaseBackupManifest => (m.ended, m.base_backup_id)) xs x
    rw [← heligible] at hmem hle
    refine ⟨List.mem_filter.mp hmem, ?_⟩
    intro m hm hok
    exact hle m (List.mem_filter.mpr ⟨hm, hok⟩)

/-- Of one timeline the inventory of planning is that of retention. -/
theorem sequences_of_ok {timeline size : ℕ} {seen out : List (ℕ × WalReceipt)}
    (h : sequences_of timeline size receipts seen = .ok out) :
    by_sequence size (receipts.filter fun x => x.timeline = timeline) seen = .ok out := by
  induction receipts generalizing seen with
  | nil => exact h
  | cons x rest ih =>
    rw [sequences_of] at h
    split at h
    · next hother =>
      rw [List.filter_cons_of_neg (by simpa using hother)]
      exact ih h
    next hsame =>
    rw [List.filter_cons_of_pos (by simpa using hsame)]
    obtain ⟨q, hq, h⟩ := bind_eq_ok.mp h
    split at h
    · cases h
    next hnew =>
    refine bind_eq_ok.mpr ⟨q, hq, ?_⟩
    rw [if_neg hnew]
    exact ih h

/-- The selected segments with their numbers, which are consecutive. -/
structure Selection (base : PitrBaseBackupManifest) (timeline : ℕ) (receipts : List WalReceipt)
    (start : ℕ) (ordered : List (ℕ × WalReceipt)) : Prop where
  starts : wal_sequence base.end_wal base.wal_segment_size = .ok start
  nonempty : ordered ≠ []
  bounded : ordered.length ≤ MAX_PITR_WAL_SEGMENTS
  numbers : ordered.map Prod.fst = List.range' start ordered.length
  sound : ∀ x ∈ ordered, x.2 ∈ receipts ∧ x.2.timeline = timeline ∧
    wal_sequence x.2.filename base.wal_segment_size = .ok x.1
  complete : ∀ x ∈ receipts, x.timeline = timeline →
    ∃ q, wal_sequence x.filename base.wal_segment_size = .ok q ∧
      (start ≤ q → (q, x) ∈ ordered)

theorem selected_wal_ok {timeline : ℕ} {ordered : List (ℕ × WalReceipt)}
    (h : selected_wal base timeline receipts = .ok ordered) :
    ∃ start, Selection base timeline receipts start ordered := by
  obtain ⟨pairs, hpairs, h⟩ := bind_eq_ok.mp h
  obtain ⟨start, hstart, h⟩ := bind_eq_ok.mp h
  obtain ⟨hmem, hall⟩ := by_sequence_ok (sequences_of_ok hpairs)
  have hordered : ∀ x, x ∈ ascending (pairs.filter fun x => start ≤ x.1) ↔
      x ∈ pairs ∧ start ≤ x.1 := by
    intro x
    rw [ascending, List.mem_insertionSort, List.mem_filter, decide_eq_true_eq]
  generalize hsorted : ascending (pairs.filter fun x => start ≤ x.1) = sorted at h hordered
  simp only at h
  split at h
  · obtain ⟨name, -, h⟩ := bind_eq_ok.mp h
    cases h
  next first rest hnumbers =>
  split at h
  · obtain ⟨name, -, h⟩ := bind_eq_ok.mp h
    cases h
  next hfirst =>
  have hfirst : first = start := not_not.mp hfirst
  split at h
  · obtain ⟨name, -, h⟩ := bind_eq_ok.mp h
    cases h
  next hgap =>
  split at h
  · cases h
  next hcount =>
  cases h
  subst hfirst
  have hlength : rest.length + 1 = ordered.length := by
    rw [← List.length_map Prod.fst, hnumbers, List.length_cons]
  refine ⟨first, hstart, ?_, Nat.not_lt.mp hcount, ?_, ?_, ?_⟩
  · rintro rfl
    cases hnumbers
  · rw [hnumbers, eq_range'_of_findGap hgap, hlength]
  · intro x hx
    rcases (hmem x).mp ((hordered x).mp hx).1 with hseen | ⟨hx, hq⟩
    · cases hseen
    · obtain ⟨hx, htimeline⟩ := List.mem_filter.mp hx
      exact ⟨hx, of_decide_eq_true htimeline, hq⟩
  · intro x hx htimeline
    obtain ⟨q, hq⟩ := hall x (List.mem_filter.mpr ⟨hx, decide_eq_true htimeline⟩)
    have hname : wal_sequence x.filename base.wal_segment_size = .ok q := by
      rcases (hmem (q, x)).mp hq with hseen | ⟨-, hq⟩
      · cases hseen
      · exact hq
    exact ⟨q, hname, fun hle => (hordered _).mpr ⟨hq, hle⟩⟩

section Selection

variable {timeline start : ℕ} {ordered : List (ℕ × WalReceipt)}

/-- Each selected segment has the name of its number. -/
theorem Selection.names (h : Selection base timeline receipts start ordered) :
    List.Forall₂ (fun i name => wal_name_for_sequence i timeline base.wal_segment_size = .ok name)
      (List.range' start ordered.length) (ordered.map fun x => x.2.filename) := by
  rw [← h.numbers, List.forall₂_map_left_iff, List.forall₂_map_right_iff]
  apply List.forall₂_same.mpr
  intro x hx
  obtain ⟨-, htimeline, hq⟩ := h.sound x hx
  rw [← htimeline, ← x.2.on_timeline]
  exact name_of_wal_sequence hq

theorem Selection.segmentRun (h : Selection base timeline receipts start ordered) :
    SegmentRun timeline base.wal_segment_size start (start + (ordered.length - 1))
      (ordered.map fun x => x.2.filename) := by
  have hpos := List.length_pos_of_ne_nil h.nonempty
  apply segmentRun_of_names (by omega)
  have hlength : start + (ordered.length - 1) - start + 1 = ordered.length := by omega
  rw [hlength]
  exact h.names

end Selection

/-! ## What planning reads -/

theorem returns_read {P : Archive → Prop} {o : PitrCall} (hstill : ∀ t, o.effect t = t) :
    Returns pitr P (request o) fun v t => PitrCall.Reads t o v ∧ P t := by
  intro t ht
  refine wp_perform.mpr ⟨trivial, ?_⟩
  rintro (e | v) u hw
  · exact fun a ha => by cases ha
  · obtain ⟨hreads, rfl⟩ := hw
    rw [hstill]
    rintro a ⟨⟩
    exact ⟨hreads, ht⟩

theorem returns_effect {P Q : Archive → Prop} {o : PitrCall} (h : ∀ t, P t → Q (o.effect t)) :
    Returns pitr P (request o) fun _ t => Q t := by
  intro t ht
  refine wp_perform.mpr ⟨trivial, ?_⟩
  rintro (e | v) u hw
  · exact fun a ha => by cases ha
  · obtain ⟨-, rfl⟩ := hw
    exact fun a _ => h t ht

/-- The lease is no part of the archive. -/
theorem returns_coordinated {α : Type} {P : Archive → Prop} {purpose owner : String}
    {body : PitrM α} {post : α → Archive → Prop} (h : Returns pitr P body post) :
    Returns pitr P (coordinated purpose owner body) post := by
  refine returns_bind (returns_read fun _ => rfl) fun _ => ?_
  intro t ht
  apply wp_bind'.mpr
  apply wp_attempt.mpr
  apply wp_post (h t ht.2)
  intro outcome u hu
  cases outcome with
  | error e =>
    apply wp_bind'.mpr
    apply wp_attempt.mpr
    apply wp_post (wp_true _ _)
    exact fun _ _ _ a ha => by cases ha
  | ok a =>
    have hrelease : Returns pitr (post a) (request .release_coordination_lease)
        fun _ v => post a v := returns_effect fun _ hv => hv
    exact returns_bind hrelease (fun _ => returns_pure fun _ hv => hv) u (hu a rfl)

theorem returns_gathers {α : Type} {p : PitrM α} {fact : α → Prop}
    (h : Gathers ctx 0 s p fact) : Returns pitr (SameRemote s) p fun a _ => fact a := by
  intro t ht
  apply wp_mono (h t ht) (fun _ _ _ => trivial)
  exact fun _ _ hr a ha => hr.2 a ha

theorem owned_manifest {identity : String} {raw m : PitrBaseBackupManifest}
    (h : validate_manifest_ownership ctx identity raw = .ok m) :
    raw = m ∧ m.system_identifier = identity := by
  simp only [validate_manifest_ownership] at h
  split at h
  · cases h
  next hscope =>
  split at h
  · cases h
  cases h
  have hscope := not_not.mp hscope
  simp only [Prod.mk.injEq] at hscope
  exact ⟨rfl, hscope.2.2.2⟩

/-- The manifests that are returned are recorded, and nothing else that `P` speaks of changes. -/
theorem returns_read_manifests {identity : String} {ids : List String} {P : Archive → Prop}
    (hids : ids.Nodup) (hP : ∀ t (m : PitrBaseBackupManifest), m.base_backup_id ∈ ids → P t →
      P { t with manifests := t.manifests.insert m.base_backup_id m }) :
    Returns pitr P (read_manifests ctx identity ids) fun ms u =>
      (∀ m ∈ ms, m.base_backup_id ∈ ids ∧ m.system_identifier = identity) ∧ P u ∧
        ∀ m ∈ ms, u.manifests[m.base_backup_id]? = some m := by
  induction ids generalizing P with
  | nil => exact returns_pure fun t ht => ⟨by simp, ht, by simp⟩
  | cons id ids ih =>
    obtain ⟨hnew, hids⟩ := List.nodup_cons.mp hids
    refine returns_bind (returns_read fun _ => rfl) fun raw => ?_
    refine returns_ofExcept_seq fun m hm => ?_
    obtain ⟨rfl, howned⟩ := owned_manifest hm
    have hsave : Returns pitr
        (fun t => PitrCall.Reads t (.read_base_manifest id) raw ∧ P t)
        (request (.save_pitr_base_manifest raw))
        fun _ t => raw.base_backup_id = id ∧ P t ∧ t.manifests[id]? = some raw := by
      apply returns_effect
      rintro t ⟨⟨-, hid, -⟩, ht⟩
      refine ⟨hid, hP t raw (by rw [hid]; exact List.mem_cons_self) ht, ?_⟩
      rw [← hid]
      exact Std.ExtTreeMap.getElem?_insert_self
    refine returns_seq hsave fun _ hid => ?_
    have hrest := ih (P := fun t => P t ∧ t.manifests[id]? = some raw) hids ?_
    · refine returns_seq hrest fun ms hms => returns_pure ?_
      rintro t ⟨⟨ht, hsaved⟩, hsaves⟩
      refine ⟨?_, ht, ?_⟩
      · intro m hm
        rcases List.mem_cons.mp hm with rfl | hm
        · exact ⟨by rw [hid]; exact List.mem_cons_self, howned⟩
        · exact ⟨List.mem_cons_of_mem id (hms m hm).1, (hms m hm).2⟩
      · intro m hm
        rcases List.mem_cons.mp hm with rfl | hm
        · rw [hid]
          exact hsaved
        · exact hsaves m hm
    · rintro t m hmem ⟨ht, hsaved⟩
      refine ⟨hP t m (List.mem_cons_of_mem id hmem) ht, ?_⟩
      have hne : m.base_backup_id ≠ id := fun hid => hnew (hid ▸ hmem)
      simp only [Std.ExtTreeMap.getElem?_insert, Std.LawfulEqOrd.compare_eq_iff_eq, hne, ↓reduceIte]
      exact hsaved

theorem returns_list_base_backups {identity : String} :
    Returns pitr (SameRemote s) (list_base_backups ctx identity) fun ms u =>
      ((ms.map (·.base_backup_id)).Perm s.bases.keys ∧
        ∀ m ∈ ms, Listed s m ∧ m.system_identifier = identity) ∧
      SameRemote s u ∧ ∀ m ∈ ms, u.manifests[m.base_backup_id]? = some m := by
  have hsaved : Returns pitr (SameRemote s) (list_base_backups ctx identity) fun ms u =>
      (∀ m ∈ ms, m.system_identifier = identity) ∧
      SameRemote s u ∧ ∀ m ∈ ms, u.manifests[m.base_backup_id]? = some m := by
    have hids : Returns pitr (SameRemote s) (request .list_base_backups) fun ids t =>
        ids.Nodup ∧ SameRemote s t := by
      refine returns_mono (returns_read fun _ => rfl) (fun _ ht => ht) ?_
      rintro ids t ⟨hids, ht⟩
      have hids : ids = t.bases.keys := hids
      rw [hids]
      exact ⟨Std.ExtTreeMap.nodup_keys, ht⟩
    refine returns_seq hids fun ids hids => ?_
    refine returns_seq (returns_read_manifests hids fun t m _ ht =>
      ht.trans ⟨rfl, rfl, rfl, rfl, rfl⟩) fun ms hms => returns_pure ?_
    rintro t ⟨ht, hsaved⟩
    have hperm :=
      perm_newestFirst (fun m : PitrBaseBackupManifest => (m.ended, m.base_backup_id)) ms
    exact ⟨fun m hm => (hms m (hperm.mem_iff.mp hm)).2, ht,
      fun m hm => hsaved m (hperm.mem_iff.mp hm)⟩
  apply returns_mono (returns_and (returns_gathers gathers_list_base_backups) hsaved)
    (fun _ ht => ht)
  rintro ms u ⟨⟨hperm, hlisted⟩, howned, hu⟩
  exact ⟨⟨hperm, fun m hm => ⟨hlisted m hm, howned m hm⟩⟩, hu⟩

/-- A local receipt is saved only where there is none. -/
theorem returns_remote_wal_receipt {identity name : String} {w : WalObject} {P : Archive → Prop}
    (hP : ∀ t (x : WalReceipt), t.receipts[x.filename]? = none → P t →
      P { t with receipts := t.receipts.insert x.filename x }) :
    Returns pitr P (remote_wal_receipt ctx identity name w) fun x u => P u ∧ Recorded u x := by
  unfold remote_wal_receipt
  split
  · exact returns_raise
  next modified _ =>
  refine returns_ofExcept_seq fun x hx => ?_
  have hname : x.filename = name := by
    unfold wal_receipt at hx
    split at hx
    · cases hx
      rfl
    · cases hx
  refine returns_bind (returns_read fun _ => rfl) fun existing => ?_
  split
  · have hsave : Returns pitr (fun t => PitrCall.Reads t (.find_wal_receipt name) none ∧ P t)
        (request (.save_wal_receipt x)) fun _ u => P u ∧ Recorded u x := by
      apply returns_effect
      rintro t ⟨hnone, ht⟩
      have hnone : t.receipts[x.filename]? = none := by
        rw [hname]
        exact hnone
      exact ⟨hP t x hnone ht, x, Std.ExtTreeMap.getElem?_insert_self, rfl, rfl, rfl⟩
    exact returns_bind hsave fun _ => returns_pure fun _ ht => ht
  · next existing =>
    split
    · next hsame =>
      apply returns_pure
      rintro t ⟨hstored, ht⟩
      simp only [same_wal_object, Bool.and_eq_true, beq_iff_eq] at hsame
      obtain ⟨⟨⟨⟨hscope, hfile⟩, -⟩, hdigest⟩, hsize⟩ := hsame.1
      refine ⟨ht, existing, ?_, hfile.symm, hdigest.symm, hsize.symm⟩
      rw [hname]
      exact hstored
    · exact returns_raise

theorem Recorded.saved {x y : WalReceipt} (h : Recorded t x)
    (hnone : t.receipts[y.filename]? = none) :
    Recorded { t with receipts := t.receipts.insert y.filename y } x := by
  obtain ⟨z, hz, hsame⟩ := h
  have hne : y.filename ≠ x.filename := by
    intro heq
    rw [heq, hz] at hnone
    cases hnone
  refine ⟨z, ?_, hsame⟩
  simp only [Std.ExtTreeMap.getElem?_insert, Std.LawfulEqOrd.compare_eq_iff_eq, hne, ↓reduceIte]
  exact hz

theorem returns_receipts_of {identity : String} {items : List (String × WalObject)}
    {P : Archive → Prop} (hP : ∀ t (x : WalReceipt), t.receipts[x.filename]? = none → P t →
      P { t with receipts := t.receipts.insert x.filename x }) :
    Returns pitr P (receipts_of ctx identity items) fun xs u => P u ∧ ∀ x ∈ xs, Recorded u x := by
  induction items generalizing P with
  | nil => exact returns_pure fun t ht => ⟨ht, by simp⟩
  | cons item items ih =>
    obtain ⟨name, w⟩ := item
    rw [receipts_of]
    split
    · exact ih hP
    refine returns_bind (returns_remote_wal_receipt hP) fun x => ?_
    have hrest := ih (P := fun t => P t ∧ Recorded t x) fun t y hnone ht =>
      ⟨hP t y hnone ht.1, ht.2.saved hnone⟩
    refine returns_bind hrest fun xs => returns_pure ?_
    rintro t ⟨⟨ht, hx⟩, hxs⟩
    refine ⟨ht, ?_⟩
    intro y hy
    rcases List.mem_cons.mp hy with rfl | hy
    · exact hx
    · exact hxs y hy

/-- The archive and the manifests as planning has them once it has read the inventory. -/
def Inventoried (s : Archive) (base : PitrBaseBackupManifest) (t : Archive) : Prop :=
  SameRemote s t ∧ t.manifests[base.base_backup_id]? = some base

theorem returns_remote_wal_receipts {identity : String} :
    Returns pitr (Inventoried s base) (remote_wal_receipts ctx identity) fun xs u =>
      (∀ (name : String) w, s.wal[name]? = some w → isSegmentName name.toList = true →
        ∃ x ∈ xs, x.filename = name) ∧ Inventoried s base u ∧ ∀ x ∈ xs, Recorded u x := by
  have hcovered : Returns pitr (Inventoried s base) (remote_wal_receipts ctx identity) fun xs _ =>
      ∀ (name : String) w, s.wal[name]? = some w → isSegmentName name.toList = true →
        ∃ x ∈ xs, x.filename = name :=
    returns_mono (returns_gathers gathers_remote_wal_receipts) (fun _ ht => ht.1) fun _ _ hx => hx.2
  have hrecorded : Returns pitr (Inventoried s base) (remote_wal_receipts ctx identity) fun xs u =>
      Inventoried s base u ∧ ∀ x ∈ xs, Recorded u x := by
    refine returns_bind (returns_read fun _ => rfl) fun items => ?_
    refine returns_mono (returns_receipts_of fun t x _ ht => ?_) (fun _ ht => ht.2) fun _ _ hx => hx
    exact ⟨ht.1.trans ⟨rfl, rfl, rfl, rfl, rfl⟩, ht.2⟩
  exact returns_and hcovered hrecorded

theorem returns_renew {P : Archive → Prop} : Returns pitr P renew fun _ t => P t :=
  returns_effect fun _ ht => ht

theorem returns_verify_receipts {ordered : List (ℕ × WalReceipt)} {P : Archive → Prop}
    (hP : ∀ t, P t → t.wal = s.wal) :
    Returns pitr P (verify_receipts ordered) fun _ u =>
      (∀ x ∈ ordered, ∃ w, s.wal[x.2.filename]? = some w ∧ w.sha256 = x.2.sha256 ∧
        w.size = x.2.size) ∧ P u := by
  induction ordered with
  | nil => exact returns_pure fun t ht => ⟨by simp, ht⟩
  | cons x rest ih =>
    obtain ⟨q, x⟩ := x
    refine returns_bind returns_renew fun _ => ?_
    have hverified : Returns pitr P (request (.verify_wal x.filename (some x.sha256)))
        fun w t => (s.wal[x.filename]? = some w ∧ w.sha256 = x.sha256) ∧ P t := by
      refine returns_mono (returns_read fun _ => rfl) (fun _ ht => ht) ?_
      rintro w t ⟨⟨hw, hdigest⟩, ht⟩
      rw [hP t ht] at hw
      exact ⟨⟨hw, (hdigest _ rfl).symm⟩, ht⟩
    refine returns_seq hverified ?_
    rintro w ⟨hw, hdigest⟩
    split
    · exact returns_raise
    next hsize =>
    apply returns_mono ih (fun _ ht => ht)
    rintro - u ⟨hrest, hu⟩
    refine ⟨?_, hu⟩
    intro y hy
    rcases List.mem_cons.mp hy with rfl | hy
    · exact ⟨w, hw, hdigest, not_not.mp hsize⟩
    · exact hrest y hy

/-! ## What planning leaves -/

theorem recovery_plan_ok {identity plan_id new_database : String} {timeline : ℕ}
    (h : recovery_plan ctx r identity plan_id new_database base timeline selected = .ok plan) :
    plan.plan_id = plan_id ∧ plan.system_identifier = identity ∧ plan.target_timeline = timeline ∧
      (base.timeline = timeline → base.system_identifier = identity →
        selected.length ≤ MAX_PITR_WAL_SEGMENTS → Describes ctx r plan base selected) := by
  unfold recovery_plan at h
  split at h
  swap
  · cases h
  next first last hfirst hlast =>
  split at h
  swap
  · cases h
  simp only at h
  split at h
  swap
  · cases h
  cases h
  refine ⟨rfl, rfl, rfl, ?_⟩
  intro htimeline hidentity hbounded
  exact {
    scope := rfl
    target := rfl
    timeline := htimeline.symm
    base_id := rfl
    system := hidentity.symm
    image := rfl
    first := by rw [hfirst]; rfl
    last := by rw [hlast]; rfl
    count := rfl
    bytes := rfl
    bounded := hbounded
    status := rfl }

theorem assert_remote_pin_eq_ok {pin : PitrRemotePin} {kind : PinKind}
    {pin_id environment base_backup_id : String} :
    assert_remote_pin pin kind pin_id environment base_backup_id receipts = .ok () ↔
      pin.kind = kind ∧ pin.pin_id = pin_id ∧ pin.environment = environment ∧
        pin.base_backup_id = base_backup_id ∧ pin.wal_segments = pin_segments receipts := by
  unfold assert_remote_pin
  constructor
  · intro h
    split at h
    · cases h
    · next hsame =>
      simpa only [not_or, not_not] using hsame
  · intro h
    rw [if_neg]
    simpa only [not_or, not_not] using h

/-- What holds of the archive when the pin is about to be written. -/
structure Prepared (s : Archive) (base : PitrBaseBackupManifest) (selected : List WalReceipt)
    (t : Archive) : Prop where
  inventoried : Inventoried s base t
  recorded : ∀ x ∈ selected, Recorded t x

theorem returns_create_pitr_pin {segments : List PitrPinnedWal} {P : Archive → Prop} :
    Returns pitr P (create_pitr_pin .plan plan.plan_id ctx.environment base.base_backup_id segments)
      fun pin u => ∃ t, P t ∧ pin.kind = .plan ∧ pin.pin_id = plan.plan_id ∧
        (∀ stored ∈ t.pins[pin_key .plan plan.plan_id]?, stored = pin) ∧
        u = { t with pins := t.pins.insertIfNew (pin_key .plan plan.plan_id) pin } := by
  unfold create_pitr_pin
  split
  · exact returns_raise
  · intro t ht
    refine wp_perform.mpr ⟨trivial, ?_⟩
    rintro (e | pin) u hw
    · exact fun a ha => by cases ha
    · obtain ⟨⟨rfl, hstored⟩, rfl⟩ := hw
      rintro a ⟨⟩
      exact ⟨t, ht, rfl, rfl, hstored, rfl⟩

theorem published_of_pin {pin : PitrRemotePin} {v : Archive} (hv : Prepared s base selected v)
    (hstored : ∀ stored ∈ v.pins[pin_key .plan plan.plan_id]?, stored = pin)
    (hpin : pin.kind = .plan ∧ pin.pin_id = plan.plan_id ∧ pin.environment = ctx.environment ∧
      pin.base_backup_id = base.base_backup_id ∧ pin.wal_segments = pin_segments selected) :
    Published ctx s { v with
        pins := v.pins.insertIfNew (pin_key .plan plan.plan_id) pin
        plans := v.plans.insert plan.plan_id plan } plan base selected := by
  obtain ⟨⟨hremote, hmanifest⟩, hrecorded⟩ := hv
  refine ⟨hremote.bases, hremote.wal, ?_, ?_, ⟨pin, ?_, hpin⟩, hmanifest, hrecorded⟩
  · rw [← hremote.plans]
  · intro key hkey
    simp only [Std.ExtTreeMap.getElem?_insertIfNew, Std.LawfulEqOrd.compare_eq_iff_eq]
    rw [if_neg (fun h => hkey h.1.symm), hremote.pins]
  · simp only [Std.ExtTreeMap.getElem?_insertIfNew, Std.LawfulEqOrd.compare_eq_iff_eq]
    split
    · rfl
    · next hold =>
      have hmem : pin_key .plan plan.plan_id ∈ v.pins := by
        by_contra hnew
        exact hold ⟨trivial, hnew⟩
      rw [Std.ExtTreeMap.mem_iff_isSome_getElem?] at hmem
      obtain ⟨stored, hsome⟩ := Option.isSome_iff_exists.mp hmem
      rw [hsome, hstored stored hsome]

/-- A plan that is what it should be for the archive it was made from. -/
def Planned (ctx : PitrContext) (r : PlanRequest) (s t : Archive) (plan : PitrRecoveryPlan)
    (base : PitrBaseBackupManifest) (selected : List WalReceipt) : Prop :=
  LatestBase r s base ∧ (∃ start stop, CompleteWal s base selected start stop) ∧
    Describes ctx r plan base selected ∧ Published ctx s t plan base selected

theorem latestBase_of_listed {bases : List PitrBaseBackupManifest}
    (hids : (bases.map (·.base_backup_id)).Perm s.bases.keys) (hlisted : ∀ m ∈ bases, Listed s m)
    (h : latest_base r.target r.base_backup_id bases = .ok base) : LatestBase r s base := by
  obtain ⟨⟨hmem, heligible⟩, hlatest⟩ := latest_base_ok h
  refine ⟨hlisted base hmem, heligible, ?_⟩
  intro id b hb hok
  have hkey : id ∈ s.bases.keys := by
    rw [Std.ExtTreeMap.mem_keys, Std.ExtTreeMap.mem_iff_isSome_getElem?, hb]
    rfl
  obtain ⟨m, hm, hid⟩ := List.mem_map.mp (hids.mem_iff.mpr hkey)
  obtain ⟨b', hb', hmanifest⟩ := hlisted m hm
  rw [hid, hb] at hb'
  obtain rfl := Option.some.inj hb'
  rw [hmanifest] at hok ⊢
  exact hlatest m hm hok

theorem completeWal_of_selection {start : ℕ} {ordered : List (ℕ × WalReceipt)}
    (h : Selection base base.timeline receipts start ordered)
    (hcovered : ∀ (name : String) w, s.wal[name]? = some w → isSegmentName name.toList = true →
      ∃ x ∈ receipts, x.filename = name)
    (hverified : ∀ x ∈ ordered, ∃ w, s.wal[x.2.filename]? = some w ∧ w.sha256 = x.2.sha256 ∧
      w.size = x.2.size) :
    CompleteWal s base (ordered.map Prod.snd) start (start + (ordered.length - 1)) := by
  refine ⟨by omega, h.starts, ?_, ?_, ?_⟩
  · rw [List.map_map]
    exact h.segmentRun
  · intro x hx
    obtain ⟨y, hy, rfl⟩ := List.mem_map.mp hx
    exact hverified y hy
  · intro name w hw hname htimeline
    obtain ⟨x, hx, rfl⟩ := hcovered name w hw hname
    obtain ⟨q, hq, hselected⟩ := h.complete x hx (x.on_timeline.symm.trans htimeline)
    refine ⟨q, hq, ?_⟩
    by_cases hle : start ≤ q
    · have hmem : q ∈ List.range' start ordered.length := by
        rw [← h.numbers]
        exact List.mem_map_of_mem (hselected hle)
      have hrange := List.mem_range'_1.mp hmem
      omega
    · omega

theorem returns_plan_restore_locked {identity token plan_id : String} :
    Returns pitr (SameRemote s) (plan_restore_locked ctx r identity token plan_id)
      fun plan t => ∃ base selected, Planned ctx r s t plan base selected := by
  refine returns_seq returns_list_base_backups ?_
  rintro bases ⟨hids, hlisted⟩
  refine returns_ofExcept_seq fun base hbase => ?_
  obtain ⟨⟨hmem, -⟩, -⟩ := latest_base_ok hbase
  have hlatest := latestBase_of_listed hids (fun m hm => (hlisted m hm).1) hbase
  have hidentity := (hlisted base hmem).2
  refine returns_bind returns_renew fun _ => ?_
  refine returns_bind (returns_read fun _ => rfl) fun _ => ?_
  have hinventory : Returns pitr (Inventoried s base) (remote_wal_receipts ctx identity) _ :=
    returns_remote_wal_receipts
  refine returns_seq (returns_mono hinventory (fun t ht => ⟨ht.2.1, ht.2.2 base hmem⟩)
    fun _ _ hx => hx) ?_
  intro receipts hcovered
  refine returns_ofExcept_seq fun timeline _ => ?_
  split
  · exact returns_raise
  next htimeline =>
  obtain rfl := not_not.mp htimeline
  refine returns_ofExcept_seq fun ordered hordered => ?_
  obtain ⟨start, hselection⟩ := selected_wal_ok hordered
  have hprepared : Returns pitr
      (fun t => Inventoried s base t ∧ ∀ x ∈ receipts, Recorded t x) (verify_receipts ordered)
      fun _ u => (∀ x ∈ ordered, ∃ w, s.wal[x.2.filename]? = some w ∧ w.sha256 = x.2.sha256 ∧
        w.size = x.2.size) ∧ Prepared s base (ordered.map Prod.snd) u := by
    apply returns_mono (returns_verify_receipts fun _ ht => ht.1.1.wal) (fun _ ht => ht)
    rintro - u ⟨hverified, hinventoried, hrecorded⟩
    refine ⟨hverified, hinventoried, ?_⟩
    intro x hx
    obtain ⟨y, hy, rfl⟩ := List.mem_map.mp hx
    exact hrecorded y.2 (hselection.sound y hy).1
  refine returns_seq hprepared ?_
  intro _ hverified
  have hwal := completeWal_of_selection hselection hcovered hverified
  refine returns_ofExcept_seq fun new_database _ => ?_
  refine returns_ofExcept_seq fun plan hplan => ?_
  obtain ⟨-, -, -, hdescribes⟩ := recovery_plan_ok hplan
  have hdescribes := hdescribes rfl hidentity (by rw [List.length_map]; exact hselection.bounded)
  refine returns_bind returns_renew fun _ => ?_
  refine returns_bind returns_create_pitr_pin fun pin => ?_
  refine returns_ofExcept_seq fun _ hpin => ?_
  have hpin := assert_remote_pin_eq_ok.mp hpin
  refine returns_bind
    (returns_effect (Q := fun t => Published ctx s t plan base (ordered.map Prod.snd)) ?_)
    fun _ => returns_pure ?_
  · rintro t ⟨v, hv, -, -, hstored, rfl⟩
    exact published_of_pin hv hstored hpin
  · intro t ht
    exact ⟨base, ordered.map Prod.snd, hlatest, ⟨start, _, hwal⟩, hdescribes, ht⟩

/-- A base that names the image it was taken with by its digest. -/
def imagedBase : BaseObject :=
  ⟨{ baseA.manifest with postgres_image := "sha256:" ++ String.ofList (List.replicate 64 '0') },
    baseA.last_modified⟩

def plannedArchive : Archive := exampleArchive [("a", imagedBase)] []

def plannedRequest : PlanRequest := ⟨"acme", 5, none, none⟩

def planningRun : Except PitrFailure PitrRecoveryPlan × Archive :=
  (plan_restore (exampleContext 1) plannedRequest (some 1000)).run serve plannedArchive

theorem planned_id : planningRun.1.toOption.map (·.plan_id) =
    some "production_pitr_plan_5ca1ab1e5ca1ab1e" := by decide +kernel

theorem ends_planning : ∃ plan, plan.plan_id = "production_pitr_plan_5ca1ab1e5ca1ab1e" ∧
    Ends pitr plannedArchive (plan_restore (exampleContext 1) plannedRequest (some 1000))
      (.ok plan) planningRun.2 := by
  have hends := ends_run pitr_serve
    (plan_restore (exampleContext 1) plannedRequest (some 1000)) plannedArchive
  have hid := planned_id
  cases hplan : planningRun.1 with
  | error e =>
    rw [hplan] at hid
    cases hid
  | ok plan =>
    rw [hplan] at hid
    exact ⟨plan, Option.some.inj hid, hplan ▸ hends⟩

/-- Whatever the inventory and the target: a plan that is returned starts at the last base
completed by then, runs without a gap to the newest segment of the base's timeline, and is
recorded beside a pin of exactly these segments, with nothing else changed in the archive. -/
theorem plan_restore_sound (ctx : PitrContext) (r : PlanRequest) (now : Option Timestamp)
    (s t : Archive) (plan : PitrRecoveryPlan)
    (h : Ends pitr s (plan_restore ctx r now) (.ok plan) t) :
    ∃ base selected, Planned ctx r s t plan base selected := by
  have hreturns : Returns pitr (SameRemote s) (plan_restore ctx r now)
      fun plan t => ∃ base selected, Planned ctx r s t plan base selected := by
    unfold plan_restore
    split
    · exact returns_raise
    split
    · exact returns_raise
    refine returns_bind (returns_read fun _ => rfl) fun identity => ?_
    refine returns_bind (returns_read fun _ => rfl) fun token => ?_
    exact returns_mono (returns_coordinated returns_plan_restore_locked) (fun _ ht => ht.2.2)
      fun _ _ hx => hx
  exact returns_ends hreturns (SameRemote.refl s) h

theorem plan_restore_sound_of_example : ∃ plan base selected,
    Planned (exampleContext 1) plannedRequest plannedArchive planningRun.2 plan base selected := by
  obtain ⟨plan, -, hends⟩ := ends_planning
  exact ⟨plan, plan_restore_sound _ _ _ _ _ _ hends⟩

/-! ## The segments derived anew -/

theorem getLast_of_forall₂ {α β : Type} {R : α → β → Prop} {l : List α} {m : List β} {a : α}
    {b : β} (h : List.Forall₂ R l m) (ha : l.getLast? = some a) (hb : m.getLast? = some b) :
    R a b := by
  have hrev := List.forall₂_reverse_iff.mpr h
  rw [← List.head?_reverse] at ha hb
  obtain ⟨l', hl⟩ := List.head?_eq_some_iff.mp ha
  obtain ⟨m', hm⟩ := List.head?_eq_some_iff.mp hb
  rw [hl, hm] at hrev
  exact (List.forall₂_cons.mp hrev).1

/-- Two runs of the same boundaries are the same. -/
theorem SegmentRun.unique {timeline size start stop : ℕ} {names others : List String}
    (h : SegmentRun timeline size start stop names)
    (k : SegmentRun timeline size start stop others) : names = others := by
  have hmem : ∀ name, name ∈ names ↔ name ∈ others :=
    fun name => (h.complete name).trans (k.complete name).symm
  have hirrefl : Std.Irrefl fun a b : String => a < b := ⟨String.lt_irrefl⟩
  have hantisymm : Std.Antisymm fun a b : String => a < b :=
    ⟨fun a b hab hba => absurd (String.lt_trans hab hba) (String.lt_irrefl a)⟩
  exact List.Pairwise.eq_of_mem_iff h.increasing k.increasing hmem

theorem CompleteWal.boundaries {start stop : ℕ} (h : CompleteWal s base selected start stop)
    (k : Describes ctx r plan base selected) :
    Boundaries plan.first_wal plan.last_wal base.wal_segment_size start stop ∧
      timelineOf plan.first_wal = base.timeline := by
  have hpairs := mapM_eq_ok.mp h.run.sequences
  have hcount : stop - start + 1 ≠ 0 := Nat.succ_ne_zero _
  have hstop : (List.range' start (stop - start + 1)).getLast? = some stop := by
    have hordered := h.ordered
    rw [List.getLast?_range', if_neg hcount]
    congr 1
    omega
  have hfirst := k.first
  have hlast := k.last
  rw [← List.head?_map] at hfirst
  rw [← List.getLast?_map] at hlast
  have hmem : plan.first_wal ∈ selected.map (·.filename) := List.mem_of_head? hfirst
  have hmem' : plan.last_wal ∈ selected.map (·.filename) := List.mem_of_getLast? hlast
  have htimeline := ((h.run.complete _).mp hmem).1
  have htimeline' := ((h.run.complete _).mp hmem').1
  have hends := getLast_of_forall₂ hpairs hlast hstop
  refine ⟨⟨?_, hends, htimeline.trans htimeline'.symm, h.ordered⟩,
    htimeline⟩
  rw [List.range'_succ] at hpairs
  cases hnames : selected.map (·.filename) with
  | nil =>
    rw [hnames] at hmem
    cases hmem
  | cons name names =>
    rw [hnames] at hpairs hfirst
    obtain rfl : name = plan.first_wal := Option.some.inj hfirst
    exact (List.forall₂_cons.mp hpairs).1

theorem wal_segment_range_of_plan {start stop : ℕ} (h : CompleteWal s base selected start stop)
    (k : Describes ctx r plan base selected) :
    wal_segment_range plan.first_wal plan.last_wal base.wal_segment_size =
      .ok (selected.map (·.filename)) := by
  obtain ⟨hboundaries, htimeline⟩ := h.boundaries k
  have hlength := (mapM_eq_ok.mp h.run.sequences).length_eq
  rw [List.length_map, List.length_range'] at hlength
  have hbounded := k.bounded
  obtain ⟨names, hnames, hrun⟩ := range_of_boundaries hboundaries (by omega)
  rw [htimeline] at hrun
  rw [hnames, SegmentRun.unique hrun h.run]

/-! ## Staging -/

/-- Staged segments as a pin lists them. -/
def stagedSegments (staged : List (String × WalObject)) : List PitrPinnedWal :=
  staged.map fun x => ⟨x.1, x.2.sha256, x.2.size⟩

/-- Receipts beside their file names, as a checked plan has them. -/
def named (receipts : List WalReceipt) : List (String × WalReceipt) :=
  receipts.map fun x => (x.filename, x)

theorem zip_filenames : (receipts.map (·.filename)).zip receipts = named receipts := by
  have hzip := List.zip_map' (f := fun x : WalReceipt => x.filename) (g := id) (l := receipts)
  rwa [List.map_id] at hzip

theorem filenames_of_segments :
    (pin_segments receipts).map (·.filename) = receipts.map (·.filename) := by
  rw [pin_segments, List.map_map]
  rfl

theorem sizes_of_segments : (pin_segments receipts).map (·.size) = receipts.map (·.size) := by
  rw [pin_segments, List.map_map]
  rfl

theorem sizes_staged {staged : List (String × WalObject)} :
    (stagedSegments staged).map (·.size) = staged.map (·.2.size) := by
  rw [stagedSegments, List.map_map]
  rfl

theorem length_of_segments : (pin_segments receipts).length = receipts.length := List.length_map _

theorem returns_get_wal_receipts {names : List String} :
    Returns pitr (· = u) (get_wal_receipts names) fun xs v =>
      xs.map (·.filename) = names ∧ v = u := by
  induction names with
  | nil => exact returns_pure fun v hv => ⟨rfl, hv⟩
  | cons name names ih =>
    have hread : Returns pitr (· = u) (request (.get_wal_receipt name)) fun x v =>
        x.filename = name ∧ v = u :=
      returns_mono (returns_read fun _ => rfl) (fun _ hv => hv) fun _ _ hx => ⟨hx.1.2, hx.2⟩
    refine returns_seq hread fun x hx => ?_
    refine returns_seq ih fun xs hxs => returns_pure fun v hv => ⟨?_, hv⟩
    rw [List.map_cons, hx, hxs]

/-- A download is staged only where it is what its receipt says. -/
theorem returns_stage_wal :
    Returns pitr (· = u) (stage_wal (named receipts)) fun staged v =>
      (stagedSegments staged = pin_segments receipts ∧ ∀ y ∈ staged, u.wal[y.1]? = some y.2) ∧
        v = u := by
  induction receipts with
  | nil => exact returns_pure fun v hv => ⟨⟨rfl, by simp⟩, hv⟩
  | cons x rest ih =>
    have hread : Returns pitr (· = u) (request (.download_wal x.filename)) fun w v =>
        u.wal[x.filename]? = some w ∧ v = u := by
      refine returns_mono (returns_read fun _ => rfl) (fun _ hv => hv) ?_
      rintro w v ⟨hw, rfl⟩
      exact ⟨hw, rfl⟩
    refine returns_seq hread fun w hw => ?_
    split
    · exact returns_raise
    next hsame =>
    simp only [not_or, not_not] at hsame
    refine returns_seq ih fun staged hstaged => returns_pure fun v hv => ⟨⟨?_, ?_⟩, hv⟩
    · change (⟨x.filename, w.sha256, w.size⟩ : PitrPinnedWal) :: stagedSegments staged = _
      rw [hstaged.1, hsame.1, hsame.2]
      rfl
    · intro y hy
      rcases List.mem_cons.mp hy with rfl | hy
      · exact hw
      · exact hstaged.2 y hy

/-- What a plan has been checked against. -/
structure Checked (u : Archive) (plan_id : String) (checked : CheckedPlan)
    (receipts : List WalReceipt) : Prop where
  plan : u.plans[plan_id]? = some checked.plan
  wal : checked.wal = named receipts
  count : receipts.length = checked.plan.wal_count
  bytes : (receipts.map (·.size)).sum = checked.plan.wal_bytes
  pin : ∃ pin, u.pins[pin_key .plan plan_id]? = some pin ∧ pin.wal_segments = pin_segments receipts

theorem returns_check_plan {database plan_id : String} :
    Returns pitr (· = u) (check_plan ctx database plan_id) fun checked v =>
      (∃ receipts, Checked u plan_id checked receipts) ∧ v = u := by
  have hplan : Returns pitr (· = u) (request (.get_pitr_recovery_plan plan_id)) fun plan v =>
      (u.plans[plan_id]? = some plan ∧ plan.plan_id = plan_id) ∧ v = u := by
    refine returns_mono (returns_read fun _ => rfl) (fun _ hv => hv) ?_
    rintro plan v ⟨hplan, rfl⟩
    exact ⟨hplan, rfl⟩
  refine returns_seq hplan ?_
  rintro plan ⟨hstored, hid⟩
  refine returns_ofExcept_seq fun _ _ => ?_
  split
  · exact returns_raise
  refine returns_bind (returns_read fun _ => rfl) fun base => ?_
  split
  · exact returns_raise
  refine returns_bind (returns_read fun _ => rfl) fun _ => ?_
  refine returns_ofExcept_seq fun names _ => ?_
  split
  · exact returns_raise
  next hcount =>
  refine returns_seq (returns_mono returns_get_wal_receipts (fun v hv => hv.2.2)
    fun _ _ hx => hx) ?_
  rintro receipts rfl
  split
  · exact returns_raise
  next hbytes =>
  have hpin : Returns pitr (· = u) (coordinated "pitr-execute-check" plan.plan_id do
      let plan_pin ← request (.get_pitr_pin .plan plan.plan_id)
      .ofExcept (assert_remote_pin plan_pin .plan plan.plan_id ctx.environment
        base.base_backup_id receipts)) fun _ v =>
      (∃ pin, u.pins[pin_key .plan plan_id]? = some pin ∧
        pin.wal_segments = pin_segments receipts) ∧ v = u := by
    rw [← hid]
    apply returns_coordinated
    refine returns_bind (returns_read fun _ => rfl) fun pin => returns_ofExcept ?_
    rintro ⟨⟩ hpin v ⟨hread, rfl⟩
    obtain ⟨-, -, -, -, hsegments⟩ := assert_remote_pin_eq_ok.mp hpin
    exact ⟨⟨pin, hread, hsegments⟩, rfl⟩
  refine returns_seq hpin fun _ hpin => returns_pure fun v hv => ⟨⟨receipts, ?_⟩, hv⟩
  have hcount := not_not.mp hcount
  rw [List.length_map] at hcount
  exact ⟨hstored, zip_filenames, hcount, not_not.mp hbytes, hpin⟩

theorem returns_stage_restore {database plan_id : String} :
    Returns pitr (· = u) (stage_restore ctx database plan_id) fun staged v =>
      (∃ plan pin, u.plans[plan_id]? = some plan ∧ u.pins[pin_key .plan plan_id]? = some pin ∧
        stagedSegments staged = pin.wal_segments ∧ staged.length = plan.wal_count ∧
        (staged.map (·.2.size)).sum = plan.wal_bytes) ∧
      (∀ y ∈ staged, u.wal[y.1]? = some y.2) ∧ v = u := by
  refine returns_seq returns_check_plan ?_
  rintro checked ⟨receipts, h⟩
  obtain ⟨pin, hpin, hsegments⟩ := h.pin
  rw [h.wal]
  refine returns_seq returns_stage_wal ?_
  rintro staged ⟨hstaged, hobjects⟩
  split
  · exact returns_raise
  next hbytes =>
  refine returns_pure fun v hv => ⟨⟨checked.plan, pin, h.plan, hpin, ?_, ?_, ?_⟩, hobjects, hv⟩
  · rw [hstaged, hsegments]
  · have hlength := congrArg List.length hstaged
    rw [length_of_segments, h.count, stagedSegments, List.length_map] at hlength
    exact hlength
  · exact not_not.mp hbytes

/-- Whatever has become of the archive and the local records since the plan was made: where
its pin is still the one that planning wrote, a run that stages WAL stages what was planned. -/
theorem staged_as_planned (ctx other : PitrContext) (r : PlanRequest) (now : Option Timestamp)
    (database : String) (s t u v : Archive) (plan : PitrRecoveryPlan)
    (staged : List (String × WalObject)) (h : Ends pitr s (plan_restore ctx r now) (.ok plan) t)
    (hpin : u.pins[pin_key .plan plan.plan_id]? = t.pins[pin_key .plan plan.plan_id]?)
    (hrun : Ends pitr u (stage_restore other database plan.plan_id) (.ok staged) v) :
    ∃ base selected, Planned ctx r s t plan base selected ∧
      stagedSegments staged = pin_segments selected ∧ ∀ y ∈ staged, u.wal[y.1]? = some y.2 := by
  obtain ⟨base, selected, hplanned⟩ := plan_restore_sound ctx r now s t plan h
  obtain ⟨⟨-, pin, -, hstored, hsegments, -, -⟩, hobjects, -⟩ :=
    returns_ends returns_stage_restore rfl hrun
  obtain ⟨planned, hplan, -, -, -, -, hselected⟩ := hplanned.2.2.2.pinned
  rw [hpin, hplan] at hstored
  obtain rfl := Option.some.inj hstored
  exact ⟨base, selected, hplanned, hsegments.trans hselected, hobjects⟩

def stagingRun : Except PitrFailure (List (String × WalObject)) × Archive :=
  (stage_restore (exampleContext 1) "acme" "production_pitr_plan_5ca1ab1e5ca1ab1e").run serve
    planningRun.2

theorem staged_names : stagingRun.1.toOption.map (·.map Prod.fst) =
    some ["000000010000000000000005", "000000010000000000000006", "000000010000000000000007"] := by
  decide +kernel

theorem staged_as_planned_of_example : ∃ plan base selected staged,
    Planned (exampleContext 1) plannedRequest plannedArchive planningRun.2 plan base selected ∧
      staged.length = 3 ∧ stagedSegments staged = pin_segments selected := by
  obtain ⟨plan, hid, hplan⟩ := ends_planning
  have hrun := ends_run pitr_serve
    (stage_restore (exampleContext 1) "acme" "production_pitr_plan_5ca1ab1e5ca1ab1e") planningRun.2
  have hnames := staged_names
  cases hstaged : stagingRun.1 with
  | error e =>
    rw [hstaged] at hnames
    cases hnames
  | ok staged =>
    rw [hstaged] at hnames
    have hlength := congrArg List.length (Option.some.inj hnames)
    rw [List.length_map] at hlength
    have hends : Ends pitr planningRun.2 (stage_restore (exampleContext 1) "acme" plan.plan_id)
        (.ok staged) stagingRun.2 := by
      rw [hid]
      exact hstaged ▸ hrun
    obtain ⟨base, selected, hplanned, hsegments, -⟩ :=
      staged_as_planned _ _ _ _ _ _ _ _ _ _ _ hplan rfl hends
    exact ⟨plan, base, selected, staged, hplanned, hlength, hsegments⟩

/-! ## A supported plan is staged -/

/-- A world in which a call that can succeed fails only where `Fails` holds. -/
structure Answering (W : World Pitr Archive) (Fails : Prop) : Prop where
  sound : ∀ o s r t, W o s r t → pitr o s r t
  answers : ∀ (o : PitrCall) s e t, W o s (.error e) t → (∃ v, o.answer s = .ok v) → Fails

theorem answering_pitr : Answering pitr True := ⟨fun _ _ _ _ h => h, fun _ _ _ _ _ _ => trivial⟩

theorem answering_serve : Answering (World.ofServer serve) False := by
  constructor
  · rintro o s reply t hserve
    have hpitr := pitr_serve o s
    rw [show serve o s = (reply, t) from hserve] at hpitr
    exact hpitr
  · rintro o s e t hserve ⟨v, hv⟩
    have hserve : serve o s = (.error e, t) := hserve
    have hok : serve o s = (.ok v, PitrCall.effect s o) := by
      unfold serve
      rw [hv]
    rw [hok] at hserve
    cases congrArg Prod.fst hserve

/-- The program leaves the archive as it is and returns, unless the environment fails. -/
def Succeeds (W : World Pitr Archive) (Fails : Prop) (u : Archive) {α : Type} (p : PitrM α)
    (post : α → Prop) : Prop :=
  wp W (fun _ _ => True) p (fun outcome v => v = u ∧ match outcome with
    | .ok a => post a
    | .error e => Fails ∧ ∃ message, e = .environment message) u

section Succeeds

variable {α β : Type} {W : World Pitr Archive} {Fails : Prop} {p : PitrM α} {f : α → PitrM β}
  {mid : α → Prop} {post : β → Prop}

theorem succeeds_bind (h : Succeeds W Fails u p mid)
    (hf : ∀ a, mid a → Succeeds W Fails u (f a) post) : Succeeds W Fails u (p >>= f) post := by
  apply wp_bind'.mpr
  apply wp_post h
  rintro (e | a) v ⟨rfl, ha⟩
  · exact ⟨rfl, ha⟩
  · exact hf a ha

theorem succeeds_pure {a : α} (h : mid a) : Succeeds W Fails u (.pure a) mid := ⟨rfl, h⟩

theorem succeeds_ofExcept {r : Result α} {a : α} (h : r = .ok a) (ha : mid a) :
    Succeeds W Fails u (.ofExcept r) mid := by
  subst h
  exact ⟨rfl, ha⟩

theorem succeeds_ofExcept_seq {r : Result α} {a : α} (h : r = .ok a)
    (hf : Succeeds W Fails u (f a) post) : Succeeds W Fails u (.ofExcept r >>= f) post := by
  subst h
  exact hf

theorem succeeds_check {c : Prop} [Decidable c] {message : String} (h : ¬ c)
    (hp : Succeeds W Fails u p mid) :
    Succeeds W Fails u (if c then refuse message else p) mid := by
  rw [if_neg h]
  exact hp

variable (hW : Answering W Fails)

include hW

theorem succeeds_read {o : PitrCall} {v : o.Value} (hstill : ∀ s, o.effect s = s)
    (h : o.answer u = .ok v) : Succeeds W Fails u (request o) fun x => PitrCall.Reads u o x := by
  refine wp_perform.mpr ⟨trivial, ?_⟩
  rintro (e | x) t hw
  · refine ⟨?_, hW.answers o u e t hw ⟨v, h⟩, e, rfl⟩
    rcases hW.sound _ _ _ _ hw with rfl | rfl
    · rfl
    · exact hstill u
  · obtain ⟨hreads, rfl⟩ := hW.sound _ _ _ _ hw
    exact ⟨hstill u, hreads⟩

theorem succeeds_coordinated {purpose owner : String} (h : Succeeds W Fails u p mid) :
    Succeeds W Fails u (coordinated purpose owner p) mid := by
  refine succeeds_bind (succeeds_read hW (fun _ => rfl) rfl) fun _ _ => ?_
  have hrelease := succeeds_read (u := u) (o := .release_coordination_lease) hW (fun _ => rfl) rfl
  apply wp_bind'.mpr
  apply wp_attempt.mpr
  apply wp_post h
  rintro (e | a) v ⟨rfl, ha⟩
  · apply wp_bind'.mpr
    apply wp_attempt.mpr
    apply wp_post hrelease
    exact fun _ _ hw => ⟨hw.1, ha⟩
  · exact succeeds_bind hrelease fun _ _ => succeeds_pure ha

theorem succeeds_get_wal_receipts (h : ∀ x ∈ selected, Recorded u x) :
    Succeeds W Fails u (get_wal_receipts (selected.map (·.filename))) fun xs =>
      pin_segments xs = pin_segments selected := by
  induction selected with
  | nil => exact succeeds_pure rfl
  | cons x rest ih =>
    obtain ⟨y, hy, hname, hdigest, hsize⟩ := h x List.mem_cons_self
    have hanswer : (PitrCall.get_wal_receipt x.filename).answer u = .ok y := by
      simp [PitrCall.answer, found, hy, hname]
    refine succeeds_bind (succeeds_read hW (fun _ => rfl) hanswer) ?_
    rintro z ⟨hz, -⟩
    rw [hy] at hz
    obtain rfl := Option.some.inj hz
    refine succeeds_bind (ih fun x hx => h x (List.mem_cons_of_mem _ hx)) fun xs hxs => ?_
    apply succeeds_pure
    change (⟨y.filename, y.sha256, y.size⟩ : PitrPinnedWal) :: pin_segments xs = _
    rw [hxs, hname, hdigest, hsize]
    rfl

theorem succeeds_stage_wal (h : ∀ x ∈ receipts, ∃ w, u.wal[x.filename]? = some w ∧
    w.sha256 = x.sha256 ∧ w.size = x.size) :
    Succeeds W Fails u (stage_wal (named receipts)) fun staged =>
      stagedSegments staged = pin_segments receipts := by
  induction receipts with
  | nil => exact succeeds_pure rfl
  | cons x rest ih =>
    obtain ⟨w, hw, hdigest, hsize⟩ := h x List.mem_cons_self
    have hanswer : (PitrCall.download_wal x.filename).answer u = .ok w := by
      simp [PitrCall.answer, found, hw]
    refine succeeds_bind (succeeds_read hW (fun _ => rfl) hanswer) ?_
    intro info hinfo
    have hinfo : u.wal[x.filename]? = some info := hinfo
    rw [hw] at hinfo
    obtain rfl := Option.some.inj hinfo
    apply succeeds_check
    · simp [hdigest, hsize]
    refine succeeds_bind (ih fun x hx => h x (List.mem_cons_of_mem _ hx)) fun staged hstaged => ?_
    apply succeeds_pure
    change (⟨x.filename, w.sha256, w.size⟩ : PitrPinnedWal) :: stagedSegments staged = _
    rw [hstaged, hdigest, hsize]
    rfl

end Succeeds

/-- What a run of `execute_restore` finds of a plan. -/
structure Supported (u : Archive) (plan : PitrRecoveryPlan) (base : PitrBaseBackupManifest)
    (selected : List WalReceipt) : Prop where
  record : u.plans[plan.plan_id]? = some plan
  manifest : u.manifests[base.base_backup_id]? = some base
  marker : ∃ b, u.bases[base.base_backup_id]? = some b
  pinned : ∃ pin, u.pins[pin_key .plan plan.plan_id]? = some pin ∧ pin.kind = .plan ∧
    pin.pin_id = plan.plan_id ∧ pin.environment = plan.environment ∧
    pin.base_backup_id = base.base_backup_id ∧ pin.wal_segments = pin_segments selected
  receipts : ∀ x ∈ selected, Recorded u x
  wal : ∀ x ∈ selected, ∃ w, u.wal[x.filename]? = some w ∧ w.sha256 = x.sha256 ∧ w.size = x.size

theorem supported_of_unchanged (h : Planned ctx r s t plan base selected)
    (hu : Unchanged t u plan selected) : Supported u plan base selected := by
  obtain ⟨hlatest, ⟨start, stop, hwal⟩, hdescribes, hpublished⟩ := h
  have hscope := hdescribes.scope
  simp only [Prod.mk.injEq] at hscope
  obtain ⟨b, hb, -⟩ := hlatest.listed
  refine ⟨?_, ?_, ⟨b, ?_⟩, ?_, ?_, ?_⟩
  · rw [hu.record, hpublished.plans]
    exact Std.ExtTreeMap.getElem?_insert_self
  · rw [← hdescribes.base_id, hu.manifest, hdescribes.base_id]
    exact hpublished.manifest
  · rw [← hdescribes.base_id, hu.marker, hpublished.bases, hdescribes.base_id]
    exact hb
  · rw [hu.pin, hscope.2.1]
    exact hpublished.pinned
  · intro x hx
    obtain ⟨y, hy, hsame⟩ := hpublished.receipts x hx
    exact ⟨y, (hu.receipts x hx).trans hy, hsame⟩
  · intro x hx
    obtain ⟨w, hw, hsame⟩ := hwal.archived x hx
    refine ⟨w, ?_, hsame⟩
    rw [hu.wal x hx, hpublished.wal]
    exact hw

/-- A receipt with the digest and the size of a selected one describes the same object. -/
theorem archived_of_segments (hreceipts : pin_segments receipts = pin_segments selected)
    (h : ∀ x ∈ selected, ∃ w, u.wal[x.filename]? = some w ∧ w.sha256 = x.sha256 ∧
      w.size = x.size) :
    ∀ x ∈ receipts, ∃ w, u.wal[x.filename]? = some w ∧ w.sha256 = x.sha256 ∧ w.size = x.size := by
  intro x hx
  have hmem : (⟨x.filename, x.sha256, x.size⟩ : PitrPinnedWal) ∈ pin_segments selected := by
    rw [← hreceipts]
    exact List.mem_map.mpr ⟨x, hx, rfl⟩
  obtain ⟨y, hy, hsame⟩ := List.mem_map.mp hmem
  simp only [PitrPinnedWal.mk.injEq] at hsame
  obtain ⟨hname, hdigest, hsize⟩ := hsame
  obtain ⟨w, hw⟩ := h y hy
  rw [hname, hdigest, hsize] at hw
  exact ⟨w, hw⟩

section Succeeds

variable {W : World Pitr Archive} {Fails : Prop} (hW : Answering W Fails)

include hW

theorem succeeds_check_plan {start stop : ℕ} (hwal : CompleteWal s base selected start stop)
    (hd : Describes ctx r plan base selected) (hbase : base.status = .complete)
    (h : Supported u plan base selected) :
    Succeeds W Fails u (check_plan ctx r.database plan.plan_id) fun checked =>
      checked.plan = plan ∧ ∃ receipts, checked.wal = named receipts ∧
        pin_segments receipts = pin_segments selected := by
  have hplan : (PitrCall.get_pitr_recovery_plan plan.plan_id).answer u = .ok plan := by
    simp [PitrCall.answer, found, h.record]
  refine succeeds_bind (succeeds_read hW (fun _ => rfl) hplan) ?_
  rintro stored ⟨hstored, -⟩
  rw [h.record] at hstored
  obtain rfl := Option.some.inj hstored
  have howned : validate_plan_ownership ctx r.database plan = .ok () := by
    rw [validate_plan_ownership, if_neg (not_not.mpr hd.scope)]
  apply succeeds_ofExcept_seq howned
  apply succeeds_check
  · rw [hd.status]
    simp
  have hmanifest : (PitrCall.get_pitr_base_manifest plan.base_backup_id).answer u = .ok base := by
    rw [hd.base_id]
    simp [PitrCall.answer, found, h.manifest]
  refine succeeds_bind (succeeds_read hW (fun _ => rfl) hmanifest) ?_
  rintro manifest ⟨hread, -⟩
  rw [hd.base_id, h.manifest] at hread
  obtain rfl := Option.some.inj hread
  apply succeeds_check
  · rw [hd.system, hd.image, hbase]
    simp
  obtain ⟨b, hb⟩ := h.marker
  have hverify : (PitrCall.verify_base_backup base.base_backup_id).answer u =
      .ok b.last_modified := by
    simp [PitrCall.answer, found, hb, Except.map]
  refine succeeds_bind (succeeds_read hW (fun _ => rfl) hverify) fun _ _ => ?_
  apply succeeds_ofExcept_seq (wal_segment_range_of_plan hwal hd)
  apply succeeds_check
  · rw [hd.count, List.length_map]
    simp
  refine succeeds_bind (succeeds_get_wal_receipts hW h.receipts) fun receipts hreceipts => ?_
  have hnames : selected.map (·.filename) = receipts.map (·.filename) := by
    rw [← filenames_of_segments, ← hreceipts, filenames_of_segments]
  apply succeeds_check
  · rw [hd.bytes, ← sizes_of_segments, hreceipts, sizes_of_segments]
    simp
  obtain ⟨pin, hpin, hkind, hid, henvironment, hbase_id, hsegments⟩ := h.pinned
  have hasserted : assert_remote_pin pin .plan plan.plan_id ctx.environment base.base_backup_id
      receipts = .ok () := by
    have hscope := hd.scope
    simp only [Prod.mk.injEq] at hscope
    rw [hscope.2.1] at henvironment
    exact assert_remote_pin_eq_ok.mpr
      ⟨hkind, hid, henvironment, hbase_id, hsegments.trans hreceipts.symm⟩
  have hget : (PitrCall.get_pitr_pin .plan plan.plan_id).answer u = .ok pin := by
    simp [PitrCall.answer, found, hpin]
  have hpinned : Succeeds W Fails u (do
      let plan_pin ← request (.get_pitr_pin .plan plan.plan_id)
      .ofExcept (assert_remote_pin plan_pin .plan plan.plan_id ctx.environment
        base.base_backup_id receipts)) fun _ => True := by
    refine succeeds_bind (succeeds_read hW (fun _ => rfl) hget) fun read hread => ?_
    have hread : u.pins[pin_key .plan plan.plan_id]? = some read := hread
    rw [hpin] at hread
    obtain rfl := Option.some.inj hread
    exact succeeds_ofExcept hasserted trivial
  refine succeeds_bind (succeeds_coordinated hW hpinned) fun _ _ => succeeds_pure ?_
  refine ⟨rfl, receipts, ?_, hreceipts⟩
  rw [hnames, zip_filenames]

theorem succeeds_stage_restore {start stop : ℕ} (hwal : CompleteWal s base selected start stop)
    (hd : Describes ctx r plan base selected) (hbase : base.status = .complete)
    (h : Supported u plan base selected) :
    Succeeds W Fails u (stage_restore ctx r.database plan.plan_id) fun staged =>
      stagedSegments staged = pin_segments selected := by
  refine succeeds_bind (succeeds_check_plan hW hwal hd hbase h) ?_
  rintro checked ⟨rfl, receipts, hchecked, hreceipts⟩
  rw [hchecked]
  have harchived := archived_of_segments hreceipts h.wal
  refine succeeds_bind (succeeds_stage_wal hW harchived) fun staged hstaged => ?_
  apply succeeds_check
  · rw [← sizes_staged, hstaged, hreceipts, sizes_of_segments, hd.bytes]
    simp
  · exact succeeds_pure (hstaged.trans hreceipts)

end Succeeds

end RecoveryAgreement
