import Odooctl.PitrRetention

/-!
# Retention keeps what a recovery needs

A base is kept for a pin, an unfinished plan or restore, its age or its rank; a segment is
protected by the kept bases, a pin or its age. No delete of a run, complete or cut, takes
either away.
-/
namespace PitrRetentionSafety

open EffectPrograms CheckedLists PitrRestoreRecord WalSegments PitrArchive PitrRetention

/-! ## What is to be kept -/

section Kept

variable (ctx : PitrContext) (current : Timestamp) (s : Archive)

/-- Named by an unfinished plan or a restore that has not been cut over. -/
def NamedLocally (id : String) : Prop :=
  (∃ plan ∈ s.plans.values, plan.environment = ctx.environment ∧
    plan.status ∈ [.planned, .executing, .failed] ∧ plan.base_backup_id = id) ∨
  (∃ restore ∈ s.restores.values, restore.environment = ctx.environment ∧
    restore.status ≠ .cutover ∧ restore.base_backup_id = id)

def Named (id : String) : Prop :=
  (∃ pin ∈ s.pins.values, pin.environment = ctx.environment ∧ pin.base_backup_id = id) ∨
  NamedLocally ctx s id

def Recent (modified : Timestamp) : Prop := current ≤ modified + ctx.grace_hours * HOUR

def InGrace (id : String) : Prop :=
  ∃ b modified, s.bases[id]? = some b ∧ b.last_modified = some modified ∧
    Recent ctx current modified

/-- A base in the order of marker times; equal times are ordered by identifier. -/
def markerKey (id : String) : Timestamp × String :=
  ((s.bases[id]?.bind BaseObject.last_modified).getD 0, id)

def newer (x y : Timestamp × String) : Bool := compareKey x y == .gt

/-- Fewer bases than are to be kept are newer. -/
def AmongNewest (id : String) : Prop :=
  s.bases.keys.countP (fun other => newer (markerKey s other) (markerKey s id)) < ctx.base_backups

def KeptBase (id : String) (b : BaseObject) : Prop :=
  s.bases[id]? = some b ∧ (Named ctx s id ∨ InGrace ctx current s id ∨ AmongNewest ctx s id)

/-- The segment at which the base ends. -/
def EndsAt (b : BaseObject) (sequence : ℕ) : Prop :=
  wal_sequence b.manifest.end_wal b.manifest.wal_segment_size = .ok sequence

/-- Listed in a pin, on another timeline, recent, or at or after the end of a kept base. -/
def Protected (name : String) (w : WalObject) : Prop :=
  (∃ pin ∈ s.pins.values, pin.environment = ctx.environment ∧
    ∃ p ∈ pin.wal_segments, p.filename = name) ∨
  (∃ id b, KeptBase ctx current s id b ∧ timelineOf name ≠ b.manifest.timeline) ∨
  (∃ modified, w.last_modified = some modified ∧ Recent ctx current modified) ∨
  (∃ id b e q, KeptBase ctx current s id b ∧ EndsAt b e ∧
    wal_sequence name b.manifest.wal_segment_size = .ok q ∧ e ≤ q) ∨
  isSegmentName name.toList = false

/-- A segment of the base's timeline with this sequence number is in the archive. -/
def Archived (b : BaseObject) (sequence : ℕ) : Prop :=
  ∃ name w, s.wal[name]? = some w ∧ timelineOf name = b.manifest.timeline ∧
    wal_sequence name b.manifest.wal_segment_size = .ok sequence

end Kept

/-- Of the archive `s`, the archive `t` still has what is to be kept, and nothing more. -/
structure Spared (ctx : PitrContext) (current : Timestamp) (s t : Archive) : Prop where
  bases : ∀ (id : String) b, KeptBase ctx current s id b → t.bases[id]? = some b
  wal : ∀ (name : String) w, s.wal[name]? = some w → Protected ctx current s name w →
    t.wal[name]? = some w
  nothing_new : ∀ (name : String) w, t.wal[name]? = some w → s.wal[name]? = some w

/-- A kept base and its ending segment remain, and from the end of every kept base the
archive has no gap up to any segment it has. -/
structure Recoverable (ctx : PitrContext) (current : Timestamp) (s t : Archive) : Prop where
  remains : ∃ id b e, KeptBase ctx current s id b ∧ t.bases[id]? = some b ∧ EndsAt b e ∧
    Archived t b e ∧ ∀ id' b', KeptBase ctx current s id' b' → ∃ e', EndsAt b' e' ∧ e ≤ e'
  gap_free : ∀ id b e, KeptBase ctx current s id b → EndsAt b e →
    ∀ q, Archived t b q → ∀ p, e ≤ p → p ≤ q → Archived t b p

variable {ctx : PitrContext} {current : Timestamp} {s s₀ t : Archive}

theorem Archived.isSegmentName {b : BaseObject} {q : ℕ} {name : String}
    (h : wal_sequence name b.manifest.wal_segment_size = .ok q) :
    isSegmentName name.toList = true := (wal_sequence_eq_ok.mp h).1

/-- What is spared suffices. -/
theorem Recoverable.of_spared (h : Recoverable ctx current s s) (ht : Spared ctx current s t) :
    Recoverable ctx current s t := by
  have hstays : ∀ id b e p, KeptBase ctx current s id b → EndsAt b e → e ≤ p →
      Archived s b p → Archived t b p := by
    rintro id b e p hb he hp ⟨name, w, hw, htimeline, hq⟩
    refine ⟨name, w, ht.wal name w hw ?_, htimeline, hq⟩
    exact .inr (.inr (.inr (.inl ⟨id, b, e, p, hb, he, hq, hp⟩)))
  constructor
  · obtain ⟨id, b, e, hb, -, he, harchived, hleast⟩ := h.remains
    exact ⟨id, b, e, hb, ht.bases id b hb, he, hstays id b e e hb he (Nat.le_refl e) harchived, hleast⟩
  · rintro id b e hb he q ⟨name, w, hw, htimeline, hq⟩ p hp hpq
    apply hstays id b e p hb he hp
    exact h.gap_free id b e hb he q ⟨name, w, ht.nothing_new name w hw, htimeline, hq⟩ p hp hpq

theorem Spared.refl : Spared ctx current s s :=
  ⟨fun _ _ h => h.1, fun _ _ h _ => h, fun _ _ h => h⟩

/-! ## Order of the bases -/

theorem newer_of_isLE {x y : Timestamp × String} (hle : (compareKey y x).isLE = true)
    (hne : x ≠ y) : newer x y = true := by
  have hgt : compareKey y x = .lt := by
    cases hc : compareKey y x with
    | lt => rfl
    | eq => exact absurd (eq_of_compareKey hc).symm hne
    | gt =>
      rw [hc] at hle
      cases hle
  rw [newer, Std.OrientedCmp.gt_of_lt hgt]
  rfl

theorem newer_asymm {x y : Timestamp × String} (h : newer x y = true) : ¬ newer y x = true := by
  simp only [newer, beq_iff_eq] at h ⊢
  rw [Std.OrientedCmp.lt_of_gt h]
  decide

theorem pairwise_newestFirst {α : Type} {key : α → Timestamp × String} {l : List α}
    (h : (l.map key).Nodup) : (newestFirst key l).Pairwise fun x y => newer (key x) (key y) = true := by
  have hnodup : ((newestFirst key l).map key).Nodup :=
    ((perm_newestFirst key l).map key).nodup_iff.mpr h
  have hne := List.pairwise_map.mp hnodup
  exact ((sorted_newestFirst key l).and hne).imp fun ⟨hle, hne⟩ => newer_of_isLE hle hne

/-! ## Reading the inventory -/

/-- The remote objects and the plans and restores are as they were. -/
structure SameRemote (s t : Archive) : Prop where
  bases : t.bases = s.bases
  wal : t.wal = s.wal
  pins : t.pins = s.pins
  plans : t.plans = s.plans
  restores : t.restores = s.restores

theorem SameRemote.refl (s : Archive) : SameRemote s s := ⟨rfl, rfl, rfl, rfl, rfl⟩

theorem SameRemote.trans {u : Archive} (h : SameRemote s t) (k : SameRemote t u) :
    SameRemote s u :=
  ⟨k.bases.trans h.bases, k.wal.trans h.wal, k.pins.trans h.pins, k.plans.trans h.plans,
    k.restores.trans h.restores⟩

theorem SameRemote.spared (h : SameRemote s t) : Spared ctx current s t := by
  constructor
  · intro id b hb
    rw [h.bases]
    exact hb.1
  · intro name w hw _
    rw [h.wal]
    exact hw
  · intro name w hw
    rwa [h.wal] at hw

def isDelete : PitrCall → Bool
  | .delete_base_marker _ | .delete_base_object _ _ | .delete_wal _ => true
  | _ => false

/-- Reads, lease operations and saves of what was read. -/
def isQuiet : PitrCall → Bool
  | .create_pitr_pin _ | .save_pitr_recovery_plan _ => false
  | o => !isDelete o

theorem isDelete_of_isQuiet {o : PitrCall} (h : isQuiet o = true) : isDelete o = false := by
  cases o <;> first | rfl | cases h

theorem sameRemote_effect {o : PitrCall} (h : isQuiet o = true) (t : Archive) :
    SameRemote t (o.effect t) := by
  cases o <;> first | exact ⟨rfl, rfl, rfl, rfl, rfl⟩ | cases h

/-- Deletes are issued only where the archive has been found recoverable. -/
def Guard (ctx : PitrContext) (current : Timestamp) (s : Archive) (o : Pitr.Op) (t : Archive) :
    Prop :=
  Spared ctx current s t ∧ (isDelete o = true → Recoverable ctx current s s)

/-- A program that reads the archive: what it returns is `post`. -/
def Gathers (ctx : PitrContext) (current : Timestamp) (s : Archive) {α : Type} (p : PitrM α)
    (post : α → Prop) : Prop :=
  ∀ t, SameRemote s t → wp pitr (Guard ctx current s) p
    (fun r u => SameRemote s u ∧ ∀ a, r = .ok a → post a) t

section Gathers

variable {α β : Type} {p : PitrM α} {f : α → PitrM β} {mid : α → Prop} {post : β → Prop}

theorem gathers_bind (h : Gathers ctx current s p mid)
    (hf : ∀ a, mid a → Gathers ctx current s (f a) post) : Gathers ctx current s (p >>= f) post := by
  intro t ht
  apply wp_bind'.mpr
  apply wp_post (h t ht)
  rintro (e | a) u ⟨hu, ha⟩
  · exact ⟨hu, fun b hb => by cases hb⟩
  · exact hf a (ha a rfl) u hu

theorem gathers_pure {a : α} {post : α → Prop} (h : post a) :
    Gathers ctx current s (.pure a) post := by
  intro t ht
  refine ⟨ht, ?_⟩
  rintro b ⟨⟩
  exact h

theorem gathers_raise {e : PitrFailure} {post : α → Prop} :
    Gathers ctx current s (.raise e) post := by
  intro t ht
  refine ⟨ht, ?_⟩
  rintro b ⟨⟩

theorem gathers_ofExcept {r : Result α} {post : α → Prop} (h : ∀ a, r = .ok a → post a) :
    Gathers ctx current s (.ofExcept r) post := by
  intro t ht
  exact wp_ofExcept.mpr ⟨ht, h⟩

theorem gathers_mono {post' : α → Prop} {post : α → Prop} (h : Gathers ctx current s p post')
    (hp : ∀ a, post' a → post a) : Gathers ctx current s p post := by
  intro t ht
  apply wp_post (h t ht)
  rintro r u ⟨hu, ha⟩
  exact ⟨hu, fun a hr => hp a (ha a hr)⟩

theorem gathers_request {o : PitrCall} (ho : isQuiet o = true) :
    Gathers ctx current s (request o) (fun v => ∃ t, SameRemote s t ∧ PitrCall.Reads t o v) := by
  intro t ht
  have hd : isDelete o = false := isDelete_of_isQuiet ho
  refine wp_perform.mpr ⟨⟨ht.spared, fun h => ?_⟩, ?_⟩
  · rw [hd] at h
    cases h
  rintro (e | v) u hw
  · refine ⟨?_, fun a hr => by cases hr⟩
    rcases hw with rfl | rfl
    · exact ht
    · exact ht.trans (sameRemote_effect ho t)
  · obtain ⟨hreads, rfl⟩ := hw
    refine ⟨ht.trans (sameRemote_effect ho t), ?_⟩
    rintro a ⟨⟩
    exact ⟨t, ht, hreads⟩

end Gathers

theorem gathers_renew : Gathers ctx current s renew (fun _ => True) :=
  gathers_mono (gathers_request rfl) fun _ _ => trivial

/-- What is known of a base in the inventory. -/
def Listed (s : Archive) (m : PitrBaseBackupManifest) : Prop :=
  ∃ b, s.bases[m.base_backup_id]? = some b ∧ b.manifest = m

theorem gathers_read_manifests {identity : String} (ids : List String) :
    Gathers ctx current s (read_manifests ctx identity ids) (fun ms =>
      ms.map (·.base_backup_id) = ids ∧ ∀ m ∈ ms, Listed s m) := by
  induction ids with
  | nil => exact gathers_pure ⟨rfl, by simp⟩
  | cons id ids ih =>
    refine gathers_bind (gathers_request rfl) ?_
    rintro raw ⟨t, ht, ⟨b, hb, hmanifest⟩, hid, -⟩
    have howned : Gathers ctx current s (.ofExcept (validate_manifest_ownership ctx identity raw))
        (fun m => m = raw) := by
      apply gathers_ofExcept
      intro m hm
      simp only [validate_manifest_ownership] at hm
      split at hm
      · cases hm
      split at hm
      · cases hm
      exact (Except.ok.inj hm).symm
    apply gathers_bind howned
    rintro m rfl
    refine gathers_bind (gathers_request rfl) ?_
    rintro - -
    apply gathers_bind ih
    rintro ms ⟨hids, hms⟩
    apply gathers_pure
    refine ⟨by rw [List.map_cons, hids, hid], ?_⟩
    intro x hx
    rcases List.mem_cons.mp hx with rfl | hx
    · refine ⟨b, ?_, hmanifest⟩
      rw [hid, ← ht.bases]
      exact hb
    · exact hms x hx

theorem gathers_list_base_backups {identity : String} :
    Gathers ctx current s (list_base_backups ctx identity) (fun ms =>
      (ms.map (·.base_backup_id)).Perm s.bases.keys ∧ ∀ m ∈ ms, Listed s m) := by
  refine gathers_bind (gathers_request rfl) ?_
  rintro ids ⟨t, ht, hids⟩
  apply gathers_bind (gathers_read_manifests ids)
  rintro ms ⟨hms, hlisted⟩
  apply gathers_pure
  have hperm := perm_newestFirst (fun m : PitrBaseBackupManifest => (m.ended, m.base_backup_id)) ms
  constructor
  · have hkeys : ids = s.bases.keys := by
      rw [← ht.bases]
      exact hids
    rw [← hkeys, ← hms]
    exact hperm.map _
  · exact fun m hm => hlisted m (hperm.mem_iff.mp hm)

/-- A base in the inventory with the time of its marker. -/
def Marked (s : Archive) (b : MarkedBase) : Prop :=
  ∃ o, s.bases[b.id]? = some o ∧ o.manifest = b.manifest ∧ o.last_modified = some b.marker_time

theorem gathers_marker_times (ms : List PitrBaseBackupManifest) (h : ∀ m ∈ ms, Listed s m) :
    Gathers ctx current s (marker_times ms) (fun bs =>
      bs.map MarkedBase.manifest = ms ∧ ∀ b ∈ bs, Marked s b) := by
  induction ms with
  | nil => exact gathers_pure ⟨rfl, by simp⟩
  | cons m ms ih =>
    apply gathers_bind gathers_renew
    rintro - -
    refine gathers_bind (gathers_request rfl) ?_
    rintro modified ⟨t, ht, o, ho, hmodified⟩
    cases modified with
    | none => exact gathers_raise
    | some marker_time =>
      apply gathers_bind (ih fun x hx => h x (List.mem_cons_of_mem _ hx))
      rintro bs ⟨hbs, hmarked⟩
      apply gathers_pure
      refine ⟨by rw [List.map_cons, hbs], ?_⟩
      intro b hb
      rcases List.mem_cons.mp hb with rfl | hb
      · obtain ⟨o', ho', hmanifest⟩ := h m List.mem_cons_self
        rw [ht.bases, ho'] at ho
        obtain rfl := Option.some.inj ho
        exact ⟨o', ho', hmanifest, hmodified⟩
      · exact hmarked b hb

/-- A receipt of an object in the archive. -/
def Receipted (s : Archive) (r : WalReceipt) : Prop :=
  ∃ w, s.wal[r.filename]? = some w ∧ w.last_modified = some r.archived_at

theorem gathers_remote_wal_receipt {identity name : String} {w : WalObject} :
    Gathers ctx current s (remote_wal_receipt ctx identity name w) (fun r =>
      r.filename = name ∧ w.last_modified = some r.archived_at) := by
  unfold remote_wal_receipt
  cases hm : w.last_modified with
  | none => exact gathers_raise
  | some modified =>
    have hreceipt : Gathers ctx current s (.ofExcept (wal_receipt ctx identity name w modified))
        (fun r => r.filename = name ∧ some modified = some r.archived_at) := by
      apply gathers_ofExcept
      intro r hr
      unfold wal_receipt at hr
      split at hr
      · cases hr
        exact ⟨rfl, rfl⟩
      · cases hr
    apply gathers_bind hreceipt
    intro r hr
    refine gathers_bind (gathers_request rfl) ?_
    rintro existing -
    cases existing with
    | none =>
      refine gathers_bind (gathers_request rfl) ?_
      rintro - -
      exact gathers_pure hr
    | some existing =>
      simp only
      split
      · exact gathers_pure hr
      · exact gathers_raise

theorem gathers_receipts_of {identity : String} (items : List (String × WalObject)) :
    Gathers ctx current s (receipts_of ctx identity items) (fun rs =>
      (∀ r ∈ rs, ∃ w, (r.filename, w) ∈ items ∧ w.last_modified = some r.archived_at) ∧
      ∀ x ∈ items, x.1.toList.length = 24 → ∃ r ∈ rs, r.filename = x.1) := by
  induction items with
  | nil => exact gathers_pure ⟨by simp, by simp⟩
  | cons item items ih =>
    obtain ⟨name, w⟩ := item
    rw [receipts_of]
    split
    · next hlen =>
      apply gathers_mono ih
      rintro rs ⟨hsound, hcomplete⟩
      constructor
      · intro r hr
        obtain ⟨w', hw', hm⟩ := hsound r hr
        exact ⟨w', List.mem_cons_of_mem _ hw', hm⟩
      · intro x hx hxlen
        rcases List.mem_cons.mp hx with rfl | hx
        · exact absurd hxlen hlen
        · exact hcomplete x hx hxlen
    · apply gathers_bind gathers_remote_wal_receipt
      rintro r ⟨hname, hm⟩
      apply gathers_bind ih
      rintro rs ⟨hsound, hcomplete⟩
      apply gathers_pure
      constructor
      · intro r' hr'
        rcases List.mem_cons.mp hr' with rfl | hr'
        · exact ⟨w, by rw [hname]; exact List.mem_cons_self, hm⟩
        · obtain ⟨w', hw', hm'⟩ := hsound r' hr'
          exact ⟨w', List.mem_cons_of_mem _ hw', hm'⟩
      · intro x hx hxlen
        rcases List.mem_cons.mp hx with rfl | hx
        · exact ⟨r, List.mem_cons_self, hname⟩
        · obtain ⟨r', hr', hname'⟩ := hcomplete x hx hxlen
          exact ⟨r', List.mem_cons_of_mem _ hr', hname'⟩

/-- Every segment of the archive has a receipt, and every receipt its segment. -/
theorem gathers_remote_wal_receipts {identity : String} :
    Gathers ctx current s (remote_wal_receipts ctx identity) (fun rs =>
      (∀ r ∈ rs, Receipted s r) ∧ ∀ (name : String) w, s.wal[name]? = some w →
        isSegmentName name.toList = true → ∃ r ∈ rs, r.filename = name) := by
  refine gathers_bind (gathers_request rfl) ?_
  rintro items ⟨t, ht, hitems⟩
  have hmem : ∀ (name : String) w, (name, w) ∈ items ↔
      s.wal[name]? = some w ∧ is_archive_name name = true := by
    intro name w
    have hitems : items = t.wal.toList.filter fun x => is_archive_name x.1 := hitems
    rw [hitems, List.mem_filter, Std.ExtTreeMap.mem_toList_iff_getElem?_eq_some, ht.wal]
  apply gathers_mono (gathers_receipts_of items)
  rintro rs ⟨hsound, hcomplete⟩
  constructor
  · intro r hr
    obtain ⟨w, hw, hm⟩ := hsound r hr
    exact ⟨w, ((hmem _ _).mp hw).1, hm⟩
  · intro name w hw hname
    have harchive : is_archive_name name = true := by simp [is_archive_name, hname]
    have hlen : name.toList.length = 24 := by
      simp only [isSegmentName, Bool.and_eq_true, beq_iff_eq] at hname
      exact hname.1
    exact hcomplete _ ((hmem name w).mpr ⟨hw, harchive⟩) hlen

theorem gathers_pinned_base_ids :
    Gathers ctx current s (pinned_base_ids ctx.environment) (fun ids =>
      ∀ id, id ∈ ids ↔ NamedLocally ctx s id) := by
  refine gathers_bind (gathers_request rfl) ?_
  rintro plans ⟨t, ht, hplans⟩
  refine gathers_bind (gathers_request rfl) ?_
  rintro restores ⟨u, hu, hrestores⟩
  apply gathers_pure
  intro id
  have hplans : plans = s.plans.values.filter fun p => p.environment = ctx.environment := by
    rw [← ht.plans]
    exact hplans
  have hrestores : restores = s.restores.values.filter fun r => r.environment = ctx.environment := by
    rw [← hu.restores]
    exact hrestores
  subst hplans hrestores
  simp only [List.mem_append, List.mem_map, List.mem_filter, decide_eq_true_eq, NamedLocally,
    and_assoc]

/-! ## Decisions -/

/-- The bases of the archive, newest first. -/
structure Inventory (s : Archive) (ordered : List MarkedBase) : Prop where
  ids : (ordered.map MarkedBase.id).Perm s.bases.keys
  marked : ∀ b ∈ ordered, Marked s b
  sorted : ordered.Pairwise fun x y => newer (x.marker_time, x.id) (y.marker_time, y.id) = true

variable {ordered : List MarkedBase} {b : MarkedBase}

theorem Marked.markerKey (h : Marked s b) : markerKey s b.id = (b.marker_time, b.id) := by
  obtain ⟨o, ho, -, hm⟩ := h
  rw [PitrRetentionSafety.markerKey, ho]
  simp [hm]

theorem inventory_newestFirst {marked : List MarkedBase}
    (hids : (marked.map MarkedBase.id).Perm s.bases.keys) (hm : ∀ b ∈ marked, Marked s b) :
    Inventory s (newestFirst (fun b => (b.marker_time, b.id)) marked) := by
  have hperm := perm_newestFirst (fun b : MarkedBase => (b.marker_time, b.id)) marked
  constructor
  · exact (hperm.map _).trans hids
  · exact fun b hb => hm b (hperm.mem_iff.mp hb)
  · apply pairwise_newestFirst
    have hnodup : (marked.map MarkedBase.id).Nodup :=
      hids.nodup_iff.mpr Std.ExtTreeMap.nodup_keys
    apply List.Nodup.of_map Prod.snd
    rwa [List.map_map]

theorem Inventory.mem_take_iff (h : Inventory s ordered) (hb : b ∈ ordered) :
    b ∈ ordered.take ctx.base_backups ↔ AmongNewest ctx s b.id := by
  have hcount : s.bases.keys.countP (fun other => newer (markerKey s other) (markerKey s b.id)) =
      ordered.countP fun x => newer (x.marker_time, x.id) (b.marker_time, b.id) := by
    rw [← h.ids.countP_eq, List.countP_map, (h.marked b hb).markerKey]
    apply List.countP_congr
    intro x hx
    simp only [Function.comp_apply, (h.marked x hx).markerKey]
  rw [AmongNewest, hcount]
  have hasymm : ∀ x y : MarkedBase, newer (x.marker_time, x.id) (y.marker_time, y.id) = true →
      ¬ newer (y.marker_time, y.id) (x.marker_time, x.id) = true := fun _ _ => newer_asymm
  have htake := mem_take_iff_countP hasymm h.sorted hb ctx.base_backups
  simpa using htake

theorem Inventory.base (h : Inventory s ordered) {id : String} {o : BaseObject}
    (ho : s.bases[id]? = some o) : ∃ b ∈ ordered, b.id = id ∧ o.manifest = b.manifest := by
  have hmem : id ∈ s.bases.keys := by
    rw [Std.ExtTreeMap.mem_keys, Std.ExtTreeMap.mem_iff_isSome_getElem?, ho]
    rfl
  obtain ⟨b, hb, rfl⟩ := List.mem_map.mp (h.ids.mem_iff.mpr hmem)
  obtain ⟨o', ho', hmanifest, -⟩ := h.marked b hb
  obtain rfl := Option.some.inj (ho.symm.trans ho')
  exact ⟨b, hb, rfl, hmanifest⟩

theorem Inventory.eq_of_id (h : Inventory s ordered) {x y : MarkedBase} (hx : x ∈ ordered)
    (hy : y ∈ ordered) (hid : x.id = y.id) : x = y := by
  obtain ⟨o, ho, hmx, htx⟩ := h.marked x hx
  obtain ⟨o', ho', hmy, hty⟩ := h.marked y hy
  rw [hid, ho'] at ho
  obtain rfl := Option.some.inj ho
  obtain ⟨mx, tx⟩ := x
  obtain ⟨my, ty⟩ := y
  simp only at hmx hmy htx hty
  rw [← hmx, ← hmy, Option.some.inj (htx.symm.trans hty)]

theorem grace_cutoff_le {cutoff : Timestamp} (h : grace_cutoff current ctx.grace_hours = .ok cutoff)
    (m : Timestamp) : cutoff ≤ m ↔ Recent ctx current m := by
  unfold grace_cutoff at h
  split at h
  · cases h
  split at h
  · cases h
  cases h
  exact Nat.sub_le_iff_le_add

theorem InGrace.iff_marked (h : Marked s b) :
    InGrace ctx current s b.id ↔ Recent ctx current b.marker_time := by
  obtain ⟨o, ho, -, hm⟩ := h
  constructor
  · rintro ⟨o', m, ho', hm', hrecent⟩
    obtain rfl := Option.some.inj (ho.symm.trans ho')
    rw [Option.some.inj (hm.symm.trans hm')]
    exact hrecent
  · exact fun hrecent => ⟨o, _, ho, hm, hrecent⟩

/-- The retained identifiers are those of the bases to be kept. -/
theorem mem_retained {local_ids retained : List String} {pins : List PitrRemotePin}
    {cutoff : Timestamp} (h : Inventory s ordered)
    (hlocal : ∀ id, id ∈ local_ids ↔ NamedLocally ctx s id)
    (hpins : pins = s.pins.values.filter fun pin => pin.environment = ctx.environment)
    (hcutoff : grace_cutoff current ctx.grace_hours = .ok cutoff)
    (hr : retained_ids ctx ordered local_ids pins cutoff = .ok retained) :
    (∃ b ∈ ordered, b.id ∈ retained) ∧ ∀ b ∈ ordered, b.id ∈ retained ↔
      (Named ctx s b.id ∨ InGrace ctx current s b.id ∨ AmongNewest ctx s b.id) := by
  simp only [retained_ids] at hr
  split at hr
  · cases hr
  next hknown =>
  split at hr
  · cases hr
  next hne =>
  have hr := (Except.ok.inj hr).symm
  have hmissing : ∀ id ∈ retained, id ∈ ordered.map MarkedBase.id := by
    intro id hid
    by_contra hnot
    apply List.ne_nil_of_mem _ (not_not.mp hknown)
    · exact id
    · rw [← hr]
      exact List.mem_filter.mpr ⟨hid, by simpa using hnot⟩
  constructor
  · rw [← hr] at hne
    obtain ⟨id, hid⟩ := List.exists_mem_of_ne_nil _ hne
    obtain ⟨b, hb, rfl⟩ := List.mem_map.mp (hmissing id hid)
    exact ⟨b, hb, hid⟩
  · intro b hb
    have htake : b.id ∈ (ordered.take ctx.base_backups).map MarkedBase.id ↔
        AmongNewest ctx s b.id := by
      rw [← h.mem_take_iff hb, List.mem_map]
      constructor
      · rintro ⟨x, hx, hid⟩
        rwa [← h.eq_of_id (List.mem_of_mem_take hx) hb hid]
      · exact fun hx => ⟨b, hx, rfl⟩
    have hgrace : b.id ∈ (ordered.filter fun b => cutoff ≤ b.marker_time).map MarkedBase.id ↔
        InGrace ctx current s b.id := by
      rw [InGrace.iff_marked (h.marked b hb), ← grace_cutoff_le hcutoff, List.mem_map]
      constructor
      · rintro ⟨x, hx, hid⟩
        obtain ⟨hx, hle⟩ := List.mem_filter.mp hx
        rw [h.eq_of_id hx hb hid] at hle
        simpa using hle
      · intro hle
        exact ⟨b, List.mem_filter.mpr ⟨hb, by simpa using hle⟩, rfl⟩
    have hpin : b.id ∈ pins.map (·.base_backup_id) ↔ ∃ pin ∈ s.pins.values,
        pin.environment = ctx.environment ∧ pin.base_backup_id = b.id := by
      rw [hpins]
      simp only [List.mem_map, List.mem_filter, decide_eq_true_eq, and_assoc]
    rw [hr, List.mem_append, List.mem_append, List.mem_append, htake, hgrace, hpin, hlocal, Named]
    constructor
    · rintro (((h | h) | h) | h)
      · exact .inr (.inr h)
      · exact .inl (.inr h)
      · exact .inl (.inl h)
      · exact .inr (.inl h)
    · rintro ((h | h) | h | h)
      · exact .inl (.inr h)
      · exact .inl (.inl (.inr h))
      · exact .inr h
      · exact .inl (.inl (.inl h))

theorem boundary_ok {retained : List MarkedBase} {bound : Boundary}
    (h : boundary retained = .ok bound) :
    (∀ x ∈ retained, x.manifest.wal_segment_size = bound.segment_size ∧
      x.manifest.timeline = bound.timeline ∧
      ∃ e, end_sequence x = .ok e ∧ bound.earliest_sequence ≤ e) ∧
    ∃ x ∈ retained, end_sequence x = .ok bound.earliest_sequence := by
  obtain ⟨sequences, hmap, h⟩ := bind_eq_ok.mp h
  have hpairs := mapM_eq_ok.mp hmap
  cases hmin : sequences.min? with
  | none =>
    rw [hmin] at h
    cases retained <;> cases h
  | some earliest =>
  cases retained with
  | nil =>
    rw [hmin] at h
    cases h
  | cons first rest =>
  simp only [hmin] at h
  split at h
  swap
  · cases h
  next hsame =>
  cases h
  obtain ⟨hmem, hle⟩ := List.min?_eq_some_iff.mp hmin
  constructor
  · intro x hx
    have hx' := of_decide_eq_true (List.all_eq_true.mp hsame x hx)
    obtain ⟨e, he, hxe⟩ := exists_of_mem_left hpairs hx
    exact ⟨hx'.1, hx'.2, e, hxe, hle e he⟩
  · obtain ⟨x, hx, hxe⟩ := exists_of_mem_right hpairs hmem
    exact ⟨x, hx, hxe⟩

/-- The sequence numbers of the receipts are all known. -/
theorem by_sequence_ok {size : ℕ} {rs : List WalReceipt} {seen out : List (ℕ × WalReceipt)}
    (h : by_sequence size rs seen = .ok out) :
    (∀ x, x ∈ out ↔ x ∈ seen ∨ x.2 ∈ rs ∧ wal_sequence x.2.filename size = .ok x.1) ∧
    ∀ r ∈ rs, ∃ q, (q, r) ∈ out := by
  induction rs generalizing seen with
  | nil =>
    cases h
    simp
  | cons r rs ih =>
    obtain ⟨q, hq, h⟩ := bind_eq_ok.mp h
    split at h
    · cases h
    obtain ⟨hmem, hall⟩ := ih h
    constructor
    · intro x
      rw [hmem, List.mem_cons, List.mem_cons]
      constructor
      · rintro ((rfl | hx) | ⟨hx, hxq⟩)
        · exact .inr ⟨.inl rfl, hq⟩
        · exact .inl hx
        · exact .inr ⟨.inr hx, hxq⟩
      · rintro (hx | ⟨hx | hx, hxq⟩)
        · exact .inl (.inr hx)
        · refine .inl (.inl ?_)
          rw [hx, hq] at hxq
          exact Prod.ext (Except.ok.inj hxq).symm hx
        · exact .inr ⟨hx, hxq⟩
    · intro x hx
      rcases List.mem_cons.mp hx with rfl | hx
      · exact ⟨q, (hmem _).mpr (.inl List.mem_cons_self)⟩
      · exact hall x hx

theorem check_contiguous_ok {bound : Boundary} {sequences : List ℕ}
    (h : check_contiguous bound sequences = .ok ()) :
    bound.earliest_sequence ∈ sequences ∧ ∀ q ∈ sequences, ∀ p,
      bound.earliest_sequence ≤ p → p ≤ q → p ∈ sequences := by
  simp only [check_contiguous] at h
  split at h
  · cases h
  next hhead =>
  have hhead := not_not.mp hhead
  split at h
  swap
  · next previous _ =>
    obtain ⟨name, -, h⟩ := bind_eq_ok.mp h
    cases h
  next hgap =>
  have hmem : ∀ p, p ∈ (sequences.filter fun q => bound.earliest_sequence ≤ q).insertionSort (· ≤ ·) ↔
      p ∈ sequences ∧ bound.earliest_sequence ≤ p := by
    intro p
    rw [List.mem_insertionSort, List.mem_filter, decide_eq_true_eq]
  constructor
  · exact ((hmem _).mp (List.mem_of_head? hhead)).1
  · intro q hq p hp hpq
    have hq' := (hmem q).mpr ⟨hq, hp.trans hpq⟩
    exact ((hmem p).mp (mem_of_findGap hgap hhead hp hq' hpq)).1

theorem pinned_receipt_ok {rs : List WalReceipt} {pin : PitrRemotePin} {p : PitrPinnedWal}
    {r : WalReceipt} (h : pinned_receipt rs pin p = .ok r) : r.filename = p.filename := by
  unfold pinned_receipt at h
  cases hf : rs.find? (·.filename = p.filename) with
  | none =>
    rw [hf] at h
    cases h
  | some receipt =>
    simp only [hf] at h
    split at h
    · cases h
    cases h
    simpa using List.find?_some hf

/-- What a pin lists lies at or after the end of its base. -/
theorem check_pin_ok {rs : List WalReceipt} {pin : PitrRemotePin}
    (h : check_pin ordered rs pin = .ok ()) : ∀ p ∈ pin.wal_segments, ∃ x ∈ ordered,
      x.id = pin.base_backup_id ∧ ∃ e q, end_sequence x = .ok e ∧
        wal_sequence p.filename x.manifest.wal_segment_size = .ok q ∧ e ≤ q := by
  unfold check_pin at h
  split at h
  · cases h
  next x hx =>
  obtain ⟨receipts, hreceipts, h⟩ := bind_eq_ok.mp h
  split at h
  · cases h
  next hcompatible =>
  obtain ⟨sequences, hsequences, h⟩ := bind_eq_ok.mp h
  split at h
  · cases h
  next hgap =>
  have hgap : findGap sequences = none := by simpa using hgap
  have hpins := mapM_eq_ok.mp hreceipts
  have hseqs := mapM_eq_ok.mp hsequences
  obtain ⟨hhead, -⟩ := not_or.mp hcompatible
  have hhead := not_not.mp hhead
  have hstart : ∃ e, end_sequence x = .ok e ∧ sequences.head? = some e := by
    cases hseqs with
    | nil => cases hhead
    | cons hq _ =>
      have hname := Option.some.inj hhead
      simp only at hname
      rw [hname] at hq
      exact ⟨_, hq, rfl⟩
  obtain ⟨e, he, hfirst⟩ := hstart
  intro p hp
  obtain ⟨r, hr, hpr⟩ := exists_of_mem_left hpins hp
  obtain ⟨q, hq, hrq⟩ := exists_of_mem_left hseqs hr
  refine ⟨x, List.mem_of_find?_eq_some hx, by simpa using List.find?_some hx, e, q, he, ?_, ?_⟩
  · rw [← pinned_receipt_ok hpr]
    exact hrq
  · exact head_le_of_findGap hgap hfirst hq

/-- What the checks on the WAL inventory guarantee. -/
structure CheckedWal (ordered kept : List MarkedBase) (pins : List PitrRemotePin)
    (remote_wal : List WalReceipt) (bound : Boundary) (receipts : List (ℕ × WalReceipt)) :
    Prop where
  retained : ∀ x ∈ kept, x.manifest.wal_segment_size = bound.segment_size ∧
    x.manifest.timeline = bound.timeline ∧
    ∃ e, end_sequence x = .ok e ∧ bound.earliest_sequence ≤ e
  earliest : ∃ x ∈ kept, end_sequence x = .ok bound.earliest_sequence
  pinned : ∀ pin ∈ pins, ∀ p ∈ pin.wal_segments, ∃ x ∈ ordered, x.id = pin.base_backup_id ∧
    ∃ e q, end_sequence x = .ok e ∧
      wal_sequence p.filename x.manifest.wal_segment_size = .ok q ∧ e ≤ q
  sound : ∀ x ∈ receipts, x.2 ∈ remote_wal ∧ x.2.timeline = bound.timeline ∧
    wal_sequence x.2.filename bound.segment_size = .ok x.1
  complete : ∀ r ∈ remote_wal, r.timeline = bound.timeline → ∃ q, (q, r) ∈ receipts
  starts : bound.earliest_sequence ∈ receipts.map Prod.fst
  contiguous : ∀ q ∈ receipts.map Prod.fst, ∀ p, bound.earliest_sequence ≤ p → p ≤ q →
    p ∈ receipts.map Prod.fst

theorem check_wal_ok {retained : List MarkedBase} {pins : List PitrRemotePin}
    {remote_wal : List WalReceipt} {bound : Boundary} {receipts : List (ℕ × WalReceipt)}
    (h : check_wal ordered retained pins remote_wal = .ok (bound, receipts)) :
    CheckedWal ordered retained pins remote_wal bound receipts := by
  obtain ⟨b, hb, h⟩ := bind_eq_ok.mp h
  split at h
  · cases h
  obtain ⟨checks, hpins, h⟩ := bind_eq_ok.mp h
  obtain ⟨rs, hrs, h⟩ := bind_eq_ok.mp h
  obtain ⟨⟨⟩, hcontiguous, h⟩ := bind_eq_ok.mp h
  cases h
  obtain ⟨hretained, hearliest⟩ := boundary_ok hb
  obtain ⟨hmem, hall⟩ := by_sequence_ok hrs
  obtain ⟨hstarts, hcontiguous⟩ := check_contiguous_ok hcontiguous
  refine ⟨hretained, hearliest, ?_, ?_, ?_, hstarts, hcontiguous⟩
  · intro pin hpin
    obtain ⟨⟨⟩, -, hok⟩ := exists_of_mem_left (mapM_eq_ok.mp hpins) hpin
    exact check_pin_ok hok
  · intro x hx
    obtain ⟨hfiltered, hq⟩ := ((hmem x).mp hx).resolve_left (by simp)
    obtain ⟨hr, ht⟩ := List.mem_filter.mp hfiltered
    exact ⟨hr, by simpa using ht, hq⟩
  · intro r hr ht
    exact hall r (List.mem_filter.mpr ⟨hr, by simpa using ht⟩)

/-- What is known once every check has passed. -/
structure Decision (ctx : PitrContext) (current : Timestamp) (s : Archive)
    (ordered : List MarkedBase) (retained : List String) (cutoff : Timestamp)
    (remote_wal : List WalReceipt) (bound : Boundary) (receipts : List (ℕ × WalReceipt)) :
    Prop where
  inventory : Inventory s ordered
  kept : ∀ b ∈ ordered, b.id ∈ retained ↔
    (Named ctx s b.id ∨ InGrace ctx current s b.id ∨ AmongNewest ctx s b.id)
  cutoff_eq : grace_cutoff current ctx.grace_hours = .ok cutoff
  receipted : ∀ r ∈ remote_wal, Receipted s r
  covered : ∀ (name : String) w, s.wal[name]? = some w → isSegmentName name.toList = true →
    ∃ r ∈ remote_wal, r.filename = name
  wal : CheckedWal ordered (ordered.filter fun b => b.id ∈ retained)
    (s.pins.values.filter fun pin => pin.environment = ctx.environment) remote_wal bound receipts

section Decision

variable {retained : List String} {cutoff : Timestamp} {remote_wal : List WalReceipt}
  {bound : Boundary} {receipts : List (ℕ × WalReceipt)}
  (h : Decision ctx current s ordered retained cutoff remote_wal bound receipts)

include h

theorem Decision.mem_kept {id : String} {o : BaseObject} (ho : KeptBase ctx current s id o) :
    ∃ b ∈ ordered.filter (fun b => b.id ∈ retained), b.id = id ∧ o.manifest = b.manifest := by
  obtain ⟨b, hb, rfl, hmanifest⟩ := h.inventory.base ho.1
  refine ⟨b, List.mem_filter.mpr ⟨hb, ?_⟩, rfl, hmanifest⟩
  exact decide_eq_true ((h.kept b hb).mpr ho.2)

theorem Decision.keptBase (hb : b ∈ ordered) (hr : b.id ∈ retained) :
    ∃ o, KeptBase ctx current s b.id o ∧ o.manifest = b.manifest := by
  obtain ⟨o, ho, hmanifest, -⟩ := h.inventory.marked b hb
  exact ⟨o, ⟨ho, (h.kept b hb).mp hr⟩, hmanifest⟩

/-- A kept base ends at or after the boundary, on its timeline. -/
theorem Decision.ends {id : String} {o : BaseObject} (ho : KeptBase ctx current s id o) :
    o.manifest.wal_segment_size = bound.segment_size ∧ o.manifest.timeline = bound.timeline ∧
      ∃ e, EndsAt o e ∧ bound.earliest_sequence ≤ e := by
  obtain ⟨x, hx, -, hmanifest⟩ := h.mem_kept ho
  simp only [EndsAt, hmanifest]
  exact h.wal.retained x hx

theorem Decision.archived {id : String} {o : BaseObject} (ho : KeptBase ctx current s id o)
    {q : ℕ} : Archived s o q ↔ q ∈ receipts.map Prod.fst := by
  obtain ⟨hsize, htimeline, -⟩ := h.ends ho
  constructor
  · rintro ⟨name, w, hw, ht, hq⟩
    obtain ⟨r, hr, rfl⟩ := h.covered name w hw (wal_sequence_eq_ok.mp hq).1
    have hrt : r.timeline = bound.timeline := by rw [← r.on_timeline, ht, htimeline]
    obtain ⟨q', hq'⟩ := h.wal.complete r hr hrt
    have hseq := (h.wal.sound _ hq').2.2
    rw [hsize, hseq] at hq
    obtain rfl := Except.ok.inj hq
    exact List.mem_map.mpr ⟨_, hq', rfl⟩
  · intro hq
    obtain ⟨⟨_, r⟩, hx, rfl⟩ := List.mem_map.mp hq
    obtain ⟨hr, hrt, hseq⟩ := h.wal.sound _ hx
    obtain ⟨w, hw, -⟩ := h.receipted r hr
    refine ⟨r.filename, w, hw, ?_, ?_⟩
    · rw [r.on_timeline, htimeline]
      exact hrt
    · rw [hsize]
      exact hseq

theorem Decision.recoverable : Recoverable ctx current s s := by
  constructor
  · obtain ⟨x, hx, hend⟩ := h.wal.earliest
    obtain ⟨hx, hr⟩ := List.mem_filter.mp hx
    obtain ⟨o, ho, hmanifest⟩ := h.keptBase hx (of_decide_eq_true hr)
    refine ⟨x.id, o, bound.earliest_sequence, ho, ho.1, ?_, (h.archived ho).mpr h.wal.starts, ?_⟩
    · rw [EndsAt, hmanifest]
      exact hend
    · intro id' o' ho'
      exact (h.ends ho').2.2
  · intro id o e ho he q hq p hp hpq
    obtain ⟨-, -, e', he', hle⟩ := h.ends ho
    obtain rfl := Except.ok.inj (he'.symm.trans he)
    rw [h.archived ho] at hq ⊢
    exact h.wal.contiguous q hq p (hle.trans hp) hpq

theorem Decision.not_kept (hb : b ∈ ordered) (hr : b.id ∉ retained) (o : BaseObject) :
    ¬ KeptBase ctx current s b.id o := fun ho => hr ((h.kept b hb).mpr ho.2)

/-- A segment before the boundary and older than the cutoff is not protected. -/
theorem Decision.not_protected {q : ℕ} {r : WalReceipt} (hx : (q, r) ∈ receipts)
    (hq : q < bound.earliest_sequence) (hold : r.archived_at < cutoff) {w : WalObject}
    (hw : s.wal[r.filename]? = some w) : ¬ Protected ctx current s r.filename w := by
  obtain ⟨hr, ht, hseq⟩ := h.wal.sound _ hx
  rintro (⟨pin, hpin, henv, p, hp, hname⟩ | ⟨id, o, ho, hne⟩ | ⟨m, hm, hrecent⟩ |
    ⟨id, o, e, q', ho, he, hq', hle⟩ | hname)
  · have hmem : pin ∈ s.pins.values.filter fun pin => pin.environment = ctx.environment :=
      List.mem_filter.mpr ⟨hpin, decide_eq_true henv⟩
    obtain ⟨x, hx, hid, e, q', he, hq', hle⟩ := h.wal.pinned pin hmem p hp
    obtain ⟨o, ho, hmanifest⟩ := h.keptBase hx ((h.kept x hx).mpr (.inl (.inl ⟨pin, hpin, henv, hid.symm⟩)))
    obtain ⟨hsize, -, e', he', hbound⟩ := h.ends ho
    rw [EndsAt, hmanifest] at he'
    obtain rfl := Except.ok.inj (he'.symm.trans he)
    rw [← hmanifest, hsize, hname, hseq] at hq'
    obtain rfl := Except.ok.inj hq'
    omega
  · exact hne ((r.on_timeline.trans ht).trans (h.ends ho).2.1.symm)
  · obtain ⟨w', hw', hm'⟩ := h.receipted r hr
    obtain rfl := Option.some.inj (hw.symm.trans hw')
    obtain rfl := Option.some.inj (hm.symm.trans hm')
    exact absurd ((grace_cutoff_le h.cutoff_eq _).mpr hrecent) (Nat.not_le.mpr hold)
  · obtain ⟨hsize, -, e', he', hbound⟩ := h.ends ho
    obtain rfl := Except.ok.inj (he'.symm.trans he)
    rw [hsize, hseq] at hq'
    obtain rfl := Except.ok.inj hq'
    omega
  · rw [(wal_sequence_eq_ok.mp hseq).1] at hname
    cases hname

end Decision

/-! ## Deleting -/

/-- A program that spares what is to be kept. -/
def Spares (ctx : PitrContext) (current : Timestamp) (s : Archive) {α : Type} (p : PitrM α) : Prop :=
  ∀ t, Spared ctx current s t → wp pitr (Guard ctx current s) p
    (fun _ u => Spared ctx current s u) t

section Spares

variable {α β : Type} {p : PitrM α} {f : α → PitrM β}

theorem spares_bind (h : Spares ctx current s p) (hf : ∀ a, Spares ctx current s (f a)) :
    Spares ctx current s (p >>= f) := by
  intro t ht
  apply wp_bind'.mpr
  apply wp_post (h t ht)
  rintro (e | a) u hu
  · exact hu
  · exact hf a u hu

theorem spares_pure (a : α) : Spares ctx current s (.pure a) := fun _ ht => ht

theorem spares_raise (e : PitrFailure) : Spares ctx current s (.raise e : PitrM α) := fun _ ht => ht

theorem spares_request {o : PitrCall} (hrec : Recoverable ctx current s s)
    (heffect : ∀ t, Spared ctx current s t → Spared ctx current s (o.effect t)) :
    Spares ctx current s (request o) := by
  intro t ht
  refine wp_perform.mpr ⟨⟨ht, fun _ => hrec⟩, ?_⟩
  rintro (e | v) u hw
  · rcases hw with rfl | rfl
    · exact ht
    · exact heffect t ht
  · obtain ⟨-, rfl⟩ := hw
    exact heffect t ht

theorem Spared.same {u : Archive} (h : Spared ctx current s t) (hb : u.bases = t.bases)
    (hw : u.wal = t.wal) : Spared ctx current s u := by
  constructor
  · rw [hb]
    exact h.bases
  · rw [hw]
    exact h.wal
  · rw [hw]
    exact h.nothing_new

theorem Spared.delete_base (h : Spared ctx current s t) {id : String}
    (hid : ∀ o, ¬ KeptBase ctx current s id o) :
    Spared ctx current s ((PitrCall.delete_base_marker id).effect t) := by
  refine ⟨?_, h.wal, h.nothing_new⟩
  intro id' o ho
  have hne : id ≠ id' := by
    rintro rfl
    exact hid o ho
  simp only [PitrCall.effect, Std.ExtTreeMap.getElem?_erase, Std.LawfulEqOrd.compare_eq_iff_eq, hne,
    ↓reduceIte]
  exact h.bases id' o ho

theorem Spared.delete_wal (h : Spared ctx current s t) {name : String}
    (hname : ∀ w, s.wal[name]? = some w → ¬ Protected ctx current s name w) :
    Spared ctx current s ((PitrCall.delete_wal name).effect t) := by
  refine ⟨h.bases, ?_, ?_⟩
  · intro name' w hw hp
    have hne : name ≠ name' := by
      rintro rfl
      exact hname w hw hp
    simp only [PitrCall.effect, Std.ExtTreeMap.getElem?_erase, Std.LawfulEqOrd.compare_eq_iff_eq, hne,
      ↓reduceIte]
    exact h.wal name' w hw hp
  · intro name' w hw
    simp only [PitrCall.effect, Std.ExtTreeMap.getElem?_erase] at hw
    split at hw
    · cases hw
    · exact h.nothing_new name' w hw

variable (hrec : Recoverable ctx current s s)

include hrec

theorem spares_quiet {o : PitrCall} (hb : ∀ t, (o.effect t).bases = t.bases)
    (hw : ∀ t, (o.effect t).wal = t.wal) : Spares ctx current s (request o) :=
  spares_request hrec fun t ht => ht.same (hb t) (hw t)

theorem spares_renew : Spares ctx current s renew :=
  spares_quiet hrec (fun _ => rfl) (fun _ => rfl)

theorem spares_verify_receipts (rs : List (ℕ × WalReceipt)) :
    Spares ctx current s (verify_receipts rs) := by
  induction rs with
  | nil => exact spares_pure ()
  | cons x rs ih =>
    obtain ⟨q, r⟩ := x
    apply spares_bind (spares_renew hrec)
    intro _
    refine spares_bind (spares_quiet hrec (fun _ => rfl) (fun _ => rfl)) fun w => ?_
    split
    · exact spares_raise _
    · exact ih

theorem spares_delete_base_objects (id : String) (paths : List String) :
    Spares ctx current s (delete_base_objects id paths) := by
  induction paths with
  | nil => exact spares_pure ()
  | cons path paths ih =>
    apply spares_bind (spares_renew hrec)
    intro _
    exact spares_bind (spares_quiet hrec (fun _ => rfl) (fun _ => rfl)) fun _ => ih

theorem spares_delete_bases (bs : List MarkedBase)
    (hbs : ∀ b ∈ bs, ∀ o, ¬ KeptBase ctx current s b.id o) :
    Spares ctx current s (delete_bases bs) := by
  induction bs with
  | nil => exact spares_pure []
  | cons b bs ih =>
    have hdelete : Spares ctx current s (delete_base_backup b.id) := by
      refine spares_bind (spares_quiet hrec (fun _ => rfl) (fun _ => rfl)) fun paths => ?_
      apply spares_bind (spares_renew hrec)
      intro _
      refine spares_bind (spares_request hrec fun t ht => ?_) fun _ => ?_
      · exact ht.delete_base (hbs b List.mem_cons_self)
      · exact spares_delete_base_objects hrec b.id paths
    apply spares_bind (spares_renew hrec)
    intro _
    apply spares_bind hdelete
    intro _
    exact spares_bind (ih fun x hx => hbs x (List.mem_cons_of_mem _ hx)) fun _ => spares_pure _

theorem spares_delete_wal (rs : List (ℕ × WalReceipt))
    (hrs : ∀ x ∈ rs, ∀ w, s.wal[x.2.filename]? = some w →
      ¬ Protected ctx current s x.2.filename w) :
    Spares ctx current s (delete_wal rs) := by
  induction rs with
  | nil => exact spares_pure []
  | cons x rs ih =>
    obtain ⟨q, r⟩ := x
    apply spares_bind (spares_renew hrec)
    intro _
    refine spares_bind (spares_request hrec fun t ht => ?_) fun _ => ?_
    · exact ht.delete_wal (hrs _ List.mem_cons_self)
    · exact spares_bind (ih fun x hx => hrs x (List.mem_cons_of_mem _ hx)) fun _ => spares_pure _

end Spares

/-! ## Whole runs -/

/-- A program that reads, decides and then deletes. -/
def Reconciles (ctx : PitrContext) (current : Timestamp) (s : Archive) {α : Type} (p : PitrM α) :
    Prop :=
  ∀ t, SameRemote s t → wp pitr (Guard ctx current s) p
    (fun r u => Spared ctx current s u ∧ ∀ a, r = .ok a → Recoverable ctx current s s) t

section Reconciles

variable {α β : Type} {p : PitrM α} {f : α → PitrM β} {mid : α → Prop}

theorem reconciles_bind (h : Gathers ctx current s p mid)
    (hf : ∀ a, mid a → Reconciles ctx current s (f a)) : Reconciles ctx current s (p >>= f) := by
  intro t ht
  apply wp_bind'.mpr
  apply wp_post (h t ht)
  rintro (e | a) u ⟨hu, ha⟩
  · exact ⟨hu.spared, fun b hb => by cases hb⟩
  · exact hf a (ha a rfl) u hu

theorem reconciles_raise {e : PitrFailure} : Reconciles ctx current s (.raise e : PitrM α) := by
  intro t ht
  refine ⟨ht.spared, ?_⟩
  rintro a ⟨⟩

theorem reconciles_of_spares (hrec : Recoverable ctx current s s) (h : Spares ctx current s p) :
    Reconciles ctx current s p := by
  intro t ht
  apply wp_post (h t ht.spared)
  exact fun r u hu => ⟨hu, fun _ _ => hrec⟩

/-- The release deletes nothing, whatever the body did. -/
theorem reconciles_coordinated {purpose owner : String} (h : Reconciles ctx current s p) :
    Reconciles ctx current s (coordinated purpose owner p) := by
  refine reconciles_bind (gathers_request rfl) ?_
  rintro - -
  intro t ht
  apply wp_bind'.mpr
  apply wp_attempt.mpr
  apply wp_post (h t ht)
  have hrelease : ∀ u, Spared ctx current s u → wp pitr (Guard ctx current s)
      (request .release_coordination_lease) (fun _ v => Spared ctx current s v) u := by
    intro u hu
    refine wp_perform.mpr ⟨⟨hu, fun hd => by cases hd⟩, ?_⟩
    rintro (e | v) w hw
    · rcases hw with rfl | rfl
      · exact hu
      · exact hu
    · obtain ⟨-, rfl⟩ := hw
      exact hu
  rintro (e | a) u ⟨hu, hrec⟩
  · apply wp_bind'.mpr
    apply wp_attempt.mpr
    apply wp_post (hrelease u hu)
    intro r v hv
    refine ⟨hv, ?_⟩
    rintro a ⟨⟩
  · apply wp_bind'.mpr
    apply wp_post (hrelease u hu)
    rintro (e | ⟨⟩) v hv
    · exact ⟨hv, fun a hr => by cases hr⟩
    · exact ⟨hv, fun _ _ => hrec a rfl⟩

end Reconciles

theorem reconciles_locked {identity : String} :
    Reconciles ctx current s (reconcile_retention_locked ctx current identity) := by
  apply reconciles_bind gathers_list_base_backups
  rintro bases ⟨hids, hlisted⟩
  split
  · exact reconciles_raise
  refine reconciles_bind (gathers_request rfl) ?_
  rintro pins ⟨t, ht, hpins⟩
  have hpins : pins = s.pins.values.filter fun pin => pin.environment = ctx.environment := by
    rw [← ht.pins]
    exact hpins
  apply reconciles_bind (gathers_marker_times bases hlisted)
  rintro marked ⟨hbases, hmarked⟩
  have hids : (marked.map MarkedBase.id).Perm s.bases.keys := by
    rwa [← hbases, List.map_map] at hids
  have hinventory := inventory_newestFirst hids hmarked
  apply reconciles_bind gathers_pinned_base_ids
  intro local_ids hlocal
  apply reconciles_bind (gathers_ofExcept fun _ h => h)
  intro cutoff hcutoff
  apply reconciles_bind (gathers_ofExcept fun _ h => h)
  intro retained hretained
  apply reconciles_bind gathers_remote_wal_receipts
  rintro remote_wal ⟨hreceipted, hcovered⟩
  apply reconciles_bind (gathers_ofExcept fun _ h => h)
  rintro ⟨bound, receipts⟩ hwal
  obtain ⟨-, hkept⟩ := mem_retained hinventory hlocal hpins hcutoff hretained
  rw [hpins] at hwal
  have hdecision : Decision ctx current s _ retained cutoff remote_wal bound receipts :=
    ⟨hinventory, hkept, hcutoff, hreceipted, hcovered, check_wal_ok hwal⟩
  have hrec := hdecision.recoverable
  apply reconciles_of_spares hrec
  apply spares_bind (spares_verify_receipts hrec _)
  intro _
  refine spares_bind (spares_delete_bases hrec _ fun b hb => ?_) fun deleted => ?_
  · obtain ⟨hb, hr⟩ := List.mem_filter.mp hb
    exact hdecision.not_kept (List.mem_reverse.mp hb) (of_decide_eq_true hr)
  refine spares_bind (spares_delete_wal hrec _ fun x hx w hw => ?_) fun _ => spares_pure _
  obtain ⟨hx, hold⟩ := List.mem_filter.mp ((List.mem_insertionSort _).mp hx)
  obtain ⟨hq, hold⟩ := of_decide_eq_true hold
  exact hdecision.not_protected hx hq hold hw

theorem reconciles_retention :
    Reconciles ctx current s (reconcile_retention ctx (some current)) := by
  refine reconciles_bind (gathers_request rfl) fun identity _ => ?_
  refine reconciles_bind (gathers_request rfl) fun token _ => ?_
  exact reconciles_coordinated reconciles_locked

/-- Whatever the inventories, the clock and the failures, and wherever the run is cut: what
is to be kept is there, and once a delete has been issued or the call has returned the kept
bases can be recovered. -/
theorem retention_keeps_recoveries (ctx : PitrContext) (current : Timestamp) (s t : Archive)
    (log : List PitrCall) (q : PitrM PitrRetentionResult)
    (h : Steps pitr.logged (s, []) (reconcile_retention ctx (some current)) (t, log) q) :
    Spared ctx current s t ∧
      ((∃ o ∈ log, isDelete o = true) ∨ (∃ result, q = .pure result) →
        Recoverable ctx current s t) := by
  have hrun : Reconciles ctx current s (reconcile_retention ctx (some current)) :=
    reconciles_retention
  have hwp := wp_logged (D := fun o => isDelete o = true) (l := [])
    (hrun s (SameRemote.refl s)) (fun o u ho => ho.2) (by simp)
  have hnow := wp_steps h hwp
  have hspared : Spared ctx current s t := by
    apply wp_invariant (P := fun u => Spared ctx current s u.1) hwp h
    · exact fun o u ho => ho.1.1
    · exact fun r u hr => hr.1.1
  refine ⟨hspared, fun hlate => Recoverable.of_spared ?_ hspared⟩
  rcases hlate with ⟨o, ho, hd⟩ | ⟨result, rfl⟩
  · cases q with
    | pure a => exact hnow.2 o ho hd
    | raise e => exact hnow.2 o ho hd
    | call o' k => exact hnow.1.2 o ho hd
  · exact hnow.1.2 result rfl

/-! ## Two inventories -/

def exampleContext (base_backups : ℕ) : PitrContext where
  project := "Acme"
  environment := "production"
  cluster_id := "main"
  bucket := "archive"
  wal_prefix := "wal"
  base_backups
  grace_hours := 0

/-- A complete base that ends in a segment of the first timeline. -/
def exampleManifest (id end_wal : String) (named : isSegmentName end_wal.toList = true)
    (on_timeline : timelineOf end_wal = 1) : PitrBaseBackupManifest where
  base_backup_id := id
  project := "Acme"
  environment := "production"
  cluster_id := "main"
  system_identifier := "7400000000000000001"
  postgres_image := "postgres:16"
  timeline := 1
  wal_segment_size := 16777216
  started_at := 1
  completed_at := some 2
  end_wal
  status := .complete
  named
  on_timeline
  timeline_range := first_timeline
  completed := fun _ => rfl

def exampleBase (id end_wal : String) (marker_time : Timestamp)
    (named : isSegmentName end_wal.toList = true) (on_timeline : timelineOf end_wal = 1) :
    BaseObject :=
  ⟨exampleManifest id end_wal named on_timeline, some marker_time⟩

def exampleWal : Map WalObject :=
  .ofList (["000000010000000000000005", "000000010000000000000006",
    "000000010000000000000007"].map fun name => (name, (⟨"5e6d", 16777216, some 3⟩ : WalObject)))

def exampleArchive (bases : List (String × BaseObject)) (pins : List (String × PitrRemotePin)) :
    Archive where
  bases := .ofList bases
  wal := exampleWal
  pins := .ofList pins
  manifests := ∅
  receipts := ∅
  plans := ∅
  restores := ∅

def baseA : BaseObject :=
  exampleBase "a" "000000010000000000000005" 10 (by decide +kernel) (by decide +kernel)

def baseB : BaseObject :=
  exampleBase "b" "000000010000000000000009" 20 (by decide +kernel) (by decide +kernel)

def baseC : BaseObject :=
  exampleBase "c" "000000010000000000000006" 30 (by decide +kernel) (by decide +kernel)

/-- A pin of another environment in the same scope. -/
def stagingPin : PitrRemotePin :=
  ⟨.plan, "p1", "staging", "a", [⟨"000000010000000000000005", "5e6d", 16777216⟩], by simp⟩

def aheadOfArchive : Archive := exampleArchive [("a", baseA), ("b", baseB)] []

def pinnedElsewhere : Archive :=
  exampleArchive [("a", baseA), ("c", baseC)] [("plan/p1.json", stagingPin)]

def exampleRun (base_backups : ℕ) (s : Archive) : Except PitrFailure PitrRetentionResult × Archive :=
  (reconcile_retention (exampleContext base_backups) (some 1000)).run serve s

/-- A retained base may end beyond the archive, and the pin of another environment protects
nothing. -/
theorem retention_trusts_its_environment :
    (∃ t result, Ends pitr aheadOfArchive (reconcile_retention (exampleContext 2) (some 1000))
      (.ok result) t ∧ "b" ∈ result.retained_base_backup_ids ∧
      t.bases["b"]?.map (·.manifest.end_wal) = some "000000010000000000000009" ∧
      t.wal["000000010000000000000009"]?.isNone = true) ∧
    ∃ t result, Ends pitr pinnedElsewhere (reconcile_retention (exampleContext 1) (some 1000))
      (.ok result) t ∧ pinnedElsewhere.pins["plan/p1.json"]? = some stagingPin ∧
      stagingPin.base_backup_id = "a" ∧ pinnedElsewhere.bases["a"]?.isSome = true ∧
      t.bases["a"]?.isNone = true ∧ t.wal["000000010000000000000005"]?.isNone = true := by
  have hahead : (exampleRun 2 aheadOfArchive).1 = .ok ⟨["a", "b"], [], []⟩ := by decide +kernel
  have helsewhere : (exampleRun 1 pinnedElsewhere).1 =
      .ok ⟨["c"], ["a"], ["000000010000000000000005"]⟩ := by decide +kernel
  constructor
  · have hends := ends_run pitr_serve (reconcile_retention (exampleContext 2) (some 1000))
      aheadOfArchive
    refine ⟨_, _, hahead ▸ hends, by decide, ?_, ?_⟩
    · decide +kernel
    · decide +kernel
  · have hends := ends_run pitr_serve (reconcile_retention (exampleContext 1) (some 1000))
      pinnedElsewhere
    refine ⟨_, _, helsewhere ▸ hends, ?_, rfl, ?_, ?_, ?_⟩
    · decide +kernel
    · decide +kernel
    · decide +kernel
    · decide +kernel

theorem retention_keeps_recoveries_of_example :
    Recoverable (exampleContext 1) 1000 pinnedElsewhere (exampleRun 1 pinnedElsewhere).2 := by
  have hresult : (exampleRun 1 pinnedElsewhere).1 =
      .ok ⟨["c"], ["a"], ["000000010000000000000005"]⟩ := by decide +kernel
  have hends := ends_run pitr_serve (reconcile_retention (exampleContext 1) (some 1000))
    pinnedElsewhere
  obtain ⟨log, hlog⟩ := Steps.logged hends []
  have h := retention_keeps_recoveries _ _ _ _ _ _ hlog
  exact h.2 (.inr ⟨_, congrArg Prog.ofExcept hresult⟩)

end PitrRetentionSafety
