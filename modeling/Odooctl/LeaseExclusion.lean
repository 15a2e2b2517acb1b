import Mathlib.Algebra.Order.BigOperators.Group.List
import Odooctl.CheckedLists
import Odooctl.LeaseHosts

/-!
# Mutual exclusion of the coordination lease

Identifiers are generated once, so the objects that a host has stored under an identifier of its
own are told from all others. While the host has not stopped, nobody else replaces or deletes
them; a host that reads an object of its own knows that it is still there.
-/
namespace LeaseExclusion

open EffectPrograms ProgramRules CheckedLists PitrRestoreRecord CoordinationLease LeaseRelease
open LeaseHosts

variable {ι : Type} {a : LeaseAdapter} {s t u : Scope ι} {i j : ι}

/-! ## What holds at every moment -/

/-- A document newer than all that was ever stored or returned under its identifier. -/
structure Newer (s : Scope ι) (d : LeaseDocument) : Prop where
  stored : ∀ o ∈ s.stored, ∀ d', o.body = .document d' → d'.lease_id = d.lease_id →
    d'.generation < d.generation
  renewed : ∀ r ∈ s.renewals, r.1 = d.lease_id → r.2 < d.generation

structure Global (s : Scope ι) : Prop where
  nodup : (s.ids.map Prod.fst).Nodup
  present : ∀ o ∈ s.slot, o ∈ s.stored
  known : ∀ o ∈ s.stored, ∀ id, leaseId o = some id → id ∈ s.ids.map Prod.fst
  tagged : ∀ o ∈ s.stored, ∀ o' ∈ s.stored, o.etag = o'.etag → o.body = o'.body
  newest : ∀ o ∈ s.slot, ∀ d, o.body = .document d → ∀ o' ∈ s.stored, ∀ d',
    o'.body = .document d' → d'.lease_id = d.lease_id → d'.generation ≤ d.generation
  held : ∀ p ∈ s.sections, s.slot.bind leaseId = some p.2 ∧ s.Owns p.1 p.2
  renewed_known : ∀ r ∈ s.renewals, r.1 ∈ s.ids.map Prod.fst
  renewed_bounded : ∀ r ∈ s.renewals, ∀ o ∈ s.slot, ∀ d, o.body = .document d →
    d.lease_id = r.1 → r.2 ≤ d.generation
  increasing : s.renewals.Pairwise fun new old => new.1 = old.1 → old.2 < new.2

/-- What a host that has not stopped relies on while the others step. -/
structure Rely (i : ι) (s t : Scope ι) : Prop where
  stored : ∀ o ∈ s.stored, o ∈ t.stored
  ids : ∀ p ∈ s.ids, p ∈ t.ids
  own_ids : ∀ id, t.Owns i id → s.Owns i id
  kept : ∀ o ∈ s.slot, ∀ id, leaseId o = some id → s.Owns i id → t.slot = some o
  retired : ∀ o ∈ s.stored, (∀ c ∈ s.slot, c.etag ≠ o.etag) → ∀ c ∈ t.slot, c.etag ≠ o.etag
  own_stored : ∀ o ∈ t.stored, ∀ id, leaseId o = some id → s.Owns i id → o ∈ s.stored
  own_renewals : ∀ r ∈ t.renewals, s.Owns i r.1 → r ∈ s.renewals
  stopped : ∀ j, s.stopped j = true → t.stopped j = true

/-- Where a host issues an operation. -/
def Guard (i : ι) : Lease.Op → Scope ι → Prop
  | .put_object condition body _, s => ∃ d, body = .document d ∧ s.Owns i d.lease_id ∧ Newer s d ∧
      ∀ etag, condition = .if_match etag →
        ∃ o ∈ s.stored, o.etag = etag ∧ leaseId o = some d.lease_id
  | .delete_object etag, s => ∃ o ∈ s.stored, ∃ id, o.etag = etag ∧ leaseId o = some id ∧
      (s.Owns i id ∨ s.Ownerless id)
  | _, _ => True

theorem Rely.refl (i : ι) (s : Scope ι) : Rely i s s :=
  ⟨fun _ h => h, fun _ h => h, fun _ h => h, fun _ h _ _ _ => h, fun _ _ h => h,
    fun _ h _ _ _ => h, fun _ h _ => h, fun _ h => h⟩

theorem Rely.owns (h : Rely i s t) {id : String} : t.Owns i id ↔ s.Owns i id :=
  ⟨h.own_ids id, h.ids _⟩

theorem Rely.trans (h : Rely i s t) (k : Rely i t u) : Rely i s u where
  stored o ho := k.stored o (h.stored o ho)
  ids p hp := k.ids p (h.ids p hp)
  own_ids id hid := h.own_ids id (k.own_ids id hid)
  kept o ho id hid hown := k.kept o (h.kept o ho id hid hown) id hid (h.owns.mpr hown)
  retired o ho hgone := k.retired o (h.stored o ho) (h.retired o ho hgone)
  own_stored o ho id hid hown := h.own_stored o (k.own_stored o ho id hid (h.owns.mpr hown)) id hid
    hown
  own_renewals r hr hown := h.own_renewals r (k.own_renewals r hr (h.owns.mpr hown)) hown
  stopped j hj := k.stopped j (h.stopped j hj)

theorem Rely.ownerless (h : Rely i s t) {id : String} (hs : s.Ownerless id) : t.Ownerless id := by
  obtain ⟨owner, hid, hstopped⟩ := hs
  exact ⟨owner, h.ids _ hid, fun j hj => h.stopped j (hstopped j hj)⟩

theorem Global.owner_unique (h : Global s) {id : String} {x y : Option ι} (hx : (id, x) ∈ s.ids)
    (hy : (id, y) ∈ s.ids) : x = y :=
  congrArg Prod.snd (List.inj_on_of_nodup_map h.nodup hx hy rfl)

/-! ## What an operation does -/

/-- What an operation of host `i` does where it is issued within its guard. -/
inductive Effect (i : ι) (s : Scope ι) : Scope ι → Prop
  | still : Effect i s s
  | generated {id : String} (hfresh : id ∉ s.ids.map Prod.fst) :
      Effect i s { s with ids := (id, some i) :: s.ids }
  | stored {new : LeaseObject} {d : LeaseDocument} (hbody : new.body = .document d)
      (hown : s.Owns i d.lease_id) (hnewer : Newer s d)
      (hreplaced : ∀ c ∈ s.slot, leaseId c = some d.lease_id)
      (hetag : ∀ o ∈ s.stored, o.etag ≠ new.etag) :
      Effect i s { s with slot := some new, stored := new :: s.stored }
  | removed {id : String} (hslot : s.slot.bind leaseId = some id)
      (hmay : s.Owns i id ∨ s.Ownerless id) :
      Effect i s { s with
        slot := none
        sections := s.sections.filter fun p => s.slot.bind leaseId ≠ some p.2 }

theorem leaseId_document {o : LeaseObject} {d : LeaseDocument} (h : o.body = .document d) :
    leaseId o = some d.lease_id := by
  rw [leaseId, h]

theorem leaseId_congr {o o' : LeaseObject} (h : o.body = o'.body) : leaseId o = leaseId o' := by
  rw [leaseId, leaseId, h]

theorem closed_same (o : LeaseCall) (slot : Slot) (sections : List (ι × String)) :
    closed o slot slot sections = sections := by
  unfold closed
  split
  · simp
  · rfl

theorem moved_same (s : Scope ι) (o : LeaseCall) : s.moved o s.slot = s := by
  rw [Scope.moved, closed_same, if_pos rfl]

theorem Newer.fresh {d : LeaseDocument} (h : Newer s d) {o : LeaseObject} (ho : o ∈ s.stored) :
    o.body ≠ .document d :=
  fun hbody => lt_irrefl _ (h.stored o ho d hbody rfl)

theorem effect_of_shared (hs : Global s) {o : Lease.Op} {r : Lease.Reply o} (hguard : Guard i o s)
    (h : shared a i o s r t) : Effect i s t := by
  cases o with
  | uuid4 =>
    obtain ⟨hfresh, rfl⟩ := h
    exact .generated hfresh
  | head_object =>
    obtain ⟨slot, ⟨rfl, -⟩, -, rfl⟩ := h
    rw [moved_same]
    exact .still
  | get_object =>
    obtain ⟨slot, ⟨rfl, -⟩, -, rfl⟩ := h
    rw [moved_same]
    exact .still
  | put_object condition body digest =>
    obtain ⟨slot, hstore, htag, rfl⟩ := h
    obtain ⟨d, rfl, hown, hnewer, hold⟩ := hguard
    rcases hstore with ⟨hmeets, etag, modified, rfl⟩ | ⟨rfl, -⟩
    · have hne : (some ⟨.document d, some digest, etag, modified⟩ : Slot) ≠ s.slot :=
        fun heq => hnewer.fresh (hs.present _ heq.symm) rfl
      rw [Scope.moved, if_neg hne]
      refine .stored (d := d) rfl hown hnewer ?_ ?_
      · intro c hc
        cases condition with
        | if_none_match => exact absurd (hmeets.symm.trans hc) (Option.some_ne_none c).symm
        | if_match e =>
          obtain ⟨found, hfound, hetag⟩ := hmeets
          obtain ⟨o, ho, hoetag, hoid⟩ := hold e rfl
          obtain rfl := Option.some.inj (hc.symm.trans hfound)
          have hbody := hs.tagged c (hs.present c hc) o ho (hetag.trans hoetag.symm)
          exact (leaseId_congr hbody).trans hoid
      · intro o ho hetag
        exact hnewer.fresh ho (htag _ rfl o ho hetag)
    · rw [moved_same]
      exact .still
  | delete_object etag =>
    obtain ⟨slot, hstore, -, rfl⟩ := h
    obtain ⟨o, ho, id, hetag, hid, hmay⟩ := hguard
    rcases hstore with ⟨⟨c, hc, hcetag⟩, rfl⟩ | ⟨rfl, -⟩
    · have hbody := hs.tagged c (hs.present c hc) o ho (hcetag.trans hetag.symm)
      have hheld : s.slot.bind leaseId = some id := by
        rw [hc]
        exact (leaseId_congr hbody).trans hid
      have hne : (none : Slot) ≠ s.slot := by
        rw [hc]
        exact (Option.some_ne_none c).symm
      rw [Scope.moved, if_neg hne]
      exact .removed hheld hmay
    · rw [moved_same]
      exact .still

theorem effect_global (hs : Global s) (h : Effect i s t) : Global t := by
  cases h with
  | still => exact hs
  | generated hfresh =>
    exact {
      nodup := List.nodup_cons.mpr ⟨hfresh, hs.nodup⟩
      present := hs.present
      known := fun o ho id hid => List.mem_cons_of_mem _ (hs.known o ho id hid)
      tagged := hs.tagged
      newest := hs.newest
      held := fun p hp => ⟨(hs.held p hp).1, List.mem_cons_of_mem _ (hs.held p hp).2⟩
      renewed_known := fun r hr => List.mem_cons_of_mem _ (hs.renewed_known r hr)
      renewed_bounded := hs.renewed_bounded
      increasing := hs.increasing }
  | @stored new d hbody hown hnewer hreplaced hetag =>
    refine ⟨hs.nodup, ?_, ?_, ?_, ?_, ?_, hs.renewed_known, ?_, hs.increasing⟩
    · intro o ho
      obtain rfl := Option.some.inj ho
      exact List.mem_cons_self
    · intro o ho id hid
      rcases List.mem_cons.mp ho with rfl | hold
      · obtain rfl := Option.some.inj ((leaseId_document hbody).symm.trans hid)
        exact List.mem_map_of_mem hown
      · exact hs.known o hold id hid
    · intro o ho o' ho' heq
      rcases List.mem_cons.mp ho with rfl | hold
      · rcases List.mem_cons.mp ho' with rfl | hold'
        · rfl
        · exact absurd heq.symm (hetag o' hold')
      · rcases List.mem_cons.mp ho' with rfl | hold'
        · exact absurd heq (hetag o hold)
        · exact hs.tagged o hold o' hold' heq
    · intro o ho d₁ hd₁ o' ho' d' hd' hid
      obtain rfl := Option.some.inj ho
      obtain rfl := Body.document.inj (hbody.symm.trans hd₁)
      rcases List.mem_cons.mp ho' with rfl | hold'
      · obtain rfl := Body.document.inj (hbody.symm.trans hd')
        exact le_refl _
      · exact le_of_lt (hnewer.stored o' hold' d' hd' hid)
    · intro p hp
      obtain ⟨hslot, hpown⟩ := hs.held p hp
      obtain ⟨c, hc, hcid⟩ := Option.bind_eq_some_iff.mp hslot
      have hsame := (hreplaced c hc).symm.trans hcid
      exact ⟨(leaseId_document hbody).trans hsame, hpown⟩
    · intro r hr o ho d₁ hd₁ hid
      obtain rfl := Option.some.inj ho
      obtain rfl := Body.document.inj (hbody.symm.trans hd₁)
      exact le_of_lt (hnewer.renewed r hr hid.symm)
  | removed hslot hmay =>
    have hgone {o : LeaseObject} : o ∉ (none : Slot) := Option.not_mem_none o
    refine ⟨hs.nodup, fun _ h => (hgone h).elim, hs.known, hs.tagged,
      fun _ h => (hgone h).elim, ?_, hs.renewed_known, fun _ _ _ h => (hgone h).elim,
      hs.increasing⟩
    intro p hp
    obtain ⟨hin, hout⟩ := List.mem_filter.mp hp
    exact absurd (hs.held p hin).1 (of_decide_eq_true hout)

theorem effect_rely (hs : Global s) (h : Effect i s t) (hj : s.stopped j = false) (hne : j ≠ i) :
    Rely j s t := by
  have hother {id : String} (hown : s.Owns i id) (hjown : s.Owns j id) : False :=
    hne (Option.some.inj (hs.owner_unique hjown hown))
  cases h with
  | still => exact .refl j s
  | generated hfresh =>
    refine { Rely.refl j s with ids := fun p hp => List.mem_cons_of_mem _ hp, own_ids := ?_ }
    intro id hid
    rcases List.mem_cons.mp hid with heq | hold
    · exact absurd (Option.some.inj (congrArg Prod.snd heq)) hne
    · exact hold
  | @stored new d hbody hown hnewer hreplaced hetag =>
    refine { Rely.refl j s with
      stored := fun o ho => List.mem_cons_of_mem _ ho, kept := ?_, retired := ?_, own_stored := ?_ }
    · intro o ho id hid hjown
      obtain rfl := Option.some.inj ((hreplaced o ho).symm.trans hid)
      exact (hother hown hjown).elim
    · intro o ho _ c hc heq
      obtain rfl := Option.some.inj hc
      exact hetag o ho heq.symm
    · intro o ho id hid hjown
      rcases List.mem_cons.mp ho with rfl | hold
      · obtain rfl := Option.some.inj ((leaseId_document hbody).symm.trans hid)
        exact (hother hown hjown).elim
      · exact hold
  | @removed id hslot hmay =>
    refine { Rely.refl j s with kept := ?_, retired := fun _ _ _ c h => (Option.not_mem_none c h).elim }
    intro o ho id' hid hjown
    have hsame : id' = id := by
      rw [show s.slot = some o from ho] at hslot
      exact Option.some.inj (hid.symm.trans hslot)
    subst hsame
    rcases hmay with hown | ⟨owner, hmem, hstopped⟩
    · exact (hother hown hjown).elim
    · have hrun := hstopped j (hs.owner_unique hmem hjown)
      rw [hj] at hrun
      cases hrun

/-! ## Reading -/

/-- What the other hosts do. -/
def Others (i : ι) (s t : Scope ι) : Prop := Rely i s t ∧ Global t

theorem Others.trans (h : Others i s t) (k : Others i t u) : Others i s u :=
  ⟨h.1.trans k.1, k.2⟩

/-- What host `i` sees: its own operations, with the others in between. -/
def Around (a : LeaseAdapter) (i : ι) : World Lease (Scope ι) := (shared a i).under (Others i)

def Shows (a : LeaseAdapter) (head : CoordinationHead) (o : LeaseObject) : Prop :=
  ∃ info, head.info = some info ∧ info.key = a.coordination_lease_key ∧ info.etag = some o.etag ∧
    info.last_modified = some o.last_modified

theorem Shows.unique {head : CoordinationHead} {o o' : LeaseObject} (h : Shows a head o)
    (k : Shows a head o') : o.etag = o'.etag := by
  obtain ⟨info, hinfo, -, hetag, -⟩ := h
  obtain ⟨info', hinfo', -, hetag', -⟩ := k
  obtain rfl := Option.some.inj (hinfo.symm.trans hinfo')
  exact Option.some.inj (hetag.symm.trans hetag')

variable {now : Option Timestamp}

theorem shows_of_head {slot : Slot} {reply : HeadAnswer} {head : CoordinationHead}
    (hstore : store a .head_object slot reply slot)
    (h : coordination_info a.coordination_lease_key now reply = .ok head) :
    (head.info = none ∧ slot = none) ∨ ∃ o, slot = some o ∧ Shows a head o := by
  cases hinfo : head.info with
  | none => exact .inl ⟨rfl, (sees_absence hstore h).mp hinfo⟩
  | some info =>
    right
    obtain ⟨-, hfound, -⟩ := hstore
    simp only [coordination_info] at h
    obtain ⟨server_time, -, h⟩ := bind_eq_ok.mp h
    cases hresponse : reply.response with
    | error exc =>
      rw [hresponse] at h
      dsimp only at h
      split at h
      · cases h
        cases hinfo
      · cases h
    | ok response =>
      obtain ⟨o, hslot, rfl⟩ := hfound response hresponse
      rw [hresponse] at h
      obtain ⟨found, hread, h⟩ := bind_eq_ok.mp h
      simp only [head_info, LeaseObject.response] at hread
      split at hread
      · cases hread
      · obtain rfl := Except.ok.inj hread
        split at h
        · cases h
        · split at h
          · cases h
          · split at h
            · cases h
            · cases h
              exact ⟨o, hslot, _, rfl, rfl, rfl, rfl⟩

theorem shared_reading {o : Lease.Op} {r : Lease.Reply o} (hread : Reading o)
    (h : shared a i o s r t) : t = s ∧ store a o s.slot r s.slot := by
  cases o with
  | head_object | get_object =>
    obtain ⟨slot, hstore, -, rfl⟩ := h
    obtain rfl := hstore.1
    exact ⟨moved_same _ _, hstore⟩
  | uuid4 | put_object | delete_object => cases hread

theorem wp_read {β : Type} (o : Lease.Op) {reply : Lease.Reply o → Except LeaseFailure β}
    {Q : Except LeaseFailure β → Scope ι → Prop} (hread : Reading o)
    (h : ∀ r, store a o s.slot r s.slot → ∀ t, Others i s t → Q (reply r) t) :
    wp (Around a i) (Guard i) (.perform o reply) Q s := by
  apply wp_perform_under
  · cases o with
    | head_object | get_object => trivial
    | uuid4 | put_object | delete_object => cases hread
  · intro r v hv t ht
    obtain ⟨rfl, hstore⟩ := shared_reading hread hv
    exact h r hstore t ht

theorem wp_head : wp (Around a i) (Guard i) (coordination_head a now) (fun r t =>
    Others i s t ∧ ∀ head, r = .ok head →
      (head.info = none ∧ s.slot = none) ∨ ∃ o, s.slot = some o ∧ Shows a head o) s := by
  apply wp_read .head_object trivial
  intro r hstore t ht
  exact ⟨ht, fun head hok => shows_of_head hstore hok⟩

theorem wp_verified {digest : String} {size most : ℕ} :
    wp (Around a i) (Guard i) (read_verified a digest size most) (fun r t => Others i s t ∧
      ∀ info body, r = .ok (info, body) →
        ∃ v, Others i s v ∧ Others i v t ∧ ∃ o, v.slot = some o ∧ o.body = body) s := by
  unfold read_verified refuse_if
  apply wp_seq (P := fun _ t => Others i s t) (wp_read .head_object trivial fun _ _ t ht => ht)
  · exact fun e t ht => ⟨ht, fun _ _ h => by cases h⟩
  intro info v hv
  apply wp_check_seq (fun _ => ⟨hv, fun _ _ h => by cases h⟩)
  intro _
  apply wp_check_seq (fun _ => ⟨hv, fun _ _ h => by cases h⟩)
  intro _
  apply wp_check_seq (fun _ => ⟨hv, fun _ _ h => by cases h⟩)
  intro _
  apply wp_seq (P := fun r t => Others i v t ∧ ∀ body, r = .ok body →
    ∃ o, v.slot = some o ∧ o.body = body)
  · apply wp_read .get_object trivial
    intro r hstore t ht
    refine ⟨ht, ?_⟩
    intro body hok
    dsimp only at hok
    split at hok
    · split at hok <;> cases hok
    · obtain rfl := Except.ok.inj hok
      obtain ⟨o, hslot, hbody⟩ := hstore.2 _ rfl
      exact ⟨o, hslot, hbody.symm⟩
  · exact fun e t ht => ⟨hv.trans ht.1, fun _ _ h => by cases h⟩
  rintro body t ⟨ht, hbody⟩
  apply wp_check_seq (fun _ => ⟨hv.trans ht, fun _ _ h => by cases h⟩)
  intro _
  apply wp_check_seq (fun _ => ⟨hv.trans ht, fun _ _ h => by cases h⟩)
  intro _
  refine ⟨hv.trans ht, ?_⟩
  intro info' body' hok
  cases hok
  exact ⟨v, hv, ht, hbody body rfl⟩

/-- An ETag does not come back, so nothing else was there between two looks that show the same
one. -/
theorem unchanged {v : Scope ι} (hs : Global s) (hsv : Rely i s v) (hv : Global v)
    (hvt : Rely i v t) (ht : Global t) {o₁ o₂ o₃ : LeaseObject} (h₁ : s.slot = some o₁)
    (h₂ : v.slot = some o₂) (h₃ : t.slot = some o₃) (hetag : o₁.etag = o₃.etag) :
    o₂.body = o₃.body := by
  have hin := hsv.stored o₁ (hs.present o₁ h₁)
  have hback := ht.tagged o₁ (hvt.stored o₁ hin) o₃ (ht.present o₃ h₃) hetag
  by_cases hmid : o₂.etag = o₁.etag
  · exact (hv.tagged o₂ (hv.present o₂ h₂) o₁ hin hmid).trans hback
  · refine absurd hetag.symm (hvt.retired o₁ hin ?_ o₃ h₃)
    intro c hc
    obtain rfl := Option.some.inj (h₂.symm.trans hc)
    exact hmid

/-- An object that was stored has the payload, and it is still there if it is the host's own. -/
def Found (a : LeaseAdapter) (i : ι) (t : Scope ι) (head : CoordinationHead) (payload : Body) :
    Prop :=
  ∃ o ∈ t.stored, o.body = payload ∧ Shows a head o ∧
    ∀ id, leaseId o = some id → t.Owns i id → t.slot = some o

theorem wp_stable_read (hs : Global s) :
    wp (Around a i) (Guard i) (read_stable_coordination_payload a now) (fun r t => Others i s t ∧
      ∀ head payload, r = .ok (head, payload) → Found a i t head payload) s := by
  unfold read_stable_coordination_payload refuse_if
  apply wp_seq wp_head
  · exact fun e t ht => ⟨ht.1, fun _ _ h => by cases h⟩
  rintro before v ⟨hv, hbefore⟩
  dsimp only
  cases hfirst : before.info with
  | none => exact ⟨hv, fun _ _ h => by cases h⟩
  | some first =>
    apply wp_seq wp_verified
    · exact fun e t ht => ⟨hv.trans ht.1, fun _ _ h => by cases h⟩
    rintro ⟨info, payload⟩ w ⟨hw, hread⟩
    apply wp_seq wp_head
    · exact fun e t ht => ⟨(hv.trans hw).trans ht.1, fun _ _ h => by cases h⟩
    rintro after t ⟨ht, hafter⟩
    have hall := (hv.trans hw).trans ht
    dsimp only
    cases hlast : after.info with
    | none => exact ⟨hall, fun _ _ h => by cases h⟩
    | some last =>
      apply wp_check_seq (fun _ => ⟨hall, fun _ _ h => by cases h⟩)
      intro hsame
      refine ⟨hall, ?_⟩
      intro head payload' hok
      cases hok
      obtain ⟨x, hx, hxw, o₂, hslot₂, hbody⟩ := hread info payload rfl
      rcases hbefore before rfl with ⟨hnone, -⟩ | ⟨o₁, hslot₁, hshow₁⟩
      · rw [hfirst] at hnone
        cases hnone
      rcases hafter after rfl with ⟨hnone, -⟩ | ⟨o₃, hslot₃, hshow₃⟩
      · rw [hlast] at hnone
        cases hnone
      have hetag : o₁.etag = o₃.etag := by
        obtain ⟨info₁, hinfo₁, -, hetag₁, -⟩ := hshow₁
        obtain ⟨info₃, hinfo₃, -, hetag₃, -⟩ := hshow₃
        obtain rfl := Option.some.inj (hfirst.symm.trans hinfo₁)
        obtain rfl := Option.some.inj (hlast.symm.trans hinfo₃)
        have hlooks : last.etag = first.etag := by
          by_contra hne
          exact hsame (.inl hne)
        exact Option.some.inj (hetag₁.symm.trans (hlooks.symm.trans hetag₃))
      have hmid := unchanged hs (hv.trans hx).1 hx.2 hxw.1 hw.2 hslot₁ hslot₂ hslot₃ hetag
      refine ⟨o₃, ht.1.stored o₃ (hw.2.present o₃ hslot₃), hmid.symm.trans hbody, hshow₃, ?_⟩
      intro id hid hown
      exact ht.1.kept o₃ hslot₃ id hid (ht.1.own_ids id hown)

/-- The lease that a document is read as. -/
def leaseOf (a : LeaseAdapter) (o : LeaseObject) (d : LeaseDocument) (observed_at : Timestamp) :
    PitrCoordinationLease where
  key := a.coordination_lease_key
  lease_id := d.lease_id
  owner := d.owner
  purpose := d.purpose
  generation := d.generation
  ttl_seconds := d.ttl_seconds
  etag := o.etag
  acquired_at := o.last_modified
  expires_at := o.last_modified + d.ttl_seconds * 1000000
  observed_at := observed_at

theorem lease_of_payload {head : CoordinationHead} {o : LeaseObject} {allow_expired : Bool}
    {lease : PitrCoordinationLease} (hshow : Shows a head o)
    (h : lease_from_payload a head o.body allow_expired = .ok lease) :
    ∃ d, o.body = .document d ∧ lease = leaseOf a o d head.server_time := by
  obtain ⟨info, hinfo, hkey, hetag, hmodified⟩ := hshow
  simp only [lease_from_payload, hinfo, hetag, hmodified, hkey, Option.bind_some,
    Option.map_some] at h
  cases hbody : o.body with
  | other content complaint =>
    rw [hbody] at h
    cases h
  | document d =>
    rw [hbody] at h
    obtain ⟨_, -, h⟩ := bind_eq_ok.mp h
    split at h
    · cases h
    · exact ⟨d, rfl, (Except.ok.inj h).symm⟩

/-- The lease is that of an object that was stored, of the one that is there if it is the host's
own. -/
def Read (a : LeaseAdapter) (i : ι) (t : Scope ι) (lease : PitrCoordinationLease) : Prop :=
  ∃ o ∈ t.stored, ∃ d observed_at, o.body = .document d ∧ lease = leaseOf a o d observed_at ∧
    (t.Owns i d.lease_id → t.slot = some o)

theorem Found.read {head : CoordinationHead} {payload : Body} {allow_expired : Bool}
    {lease : PitrCoordinationLease} (hfound : Found a i t head payload)
    (h : lease_from_payload a head payload allow_expired = .ok lease) : Read a i t lease := by
  obtain ⟨o, ho, rfl, hshow, hown⟩ := hfound
  obtain ⟨d, hbody, hlease⟩ := lease_of_payload hshow h
  exact ⟨o, ho, d, _, hbody, hlease, hown d.lease_id (leaseId_document hbody)⟩

theorem wp_lease_read (hs : Global s) {allow_expired : Bool} :
    wp (Around a i) (Guard i) (read_coordination_lease a now allow_expired) (fun r t =>
      Others i s t ∧ ∀ lease, r = .ok lease → Read a i t lease) s := by
  unfold read_coordination_lease
  apply wp_bind'.mpr
  apply wp_mapError.mpr
  apply wp_post (wp_stable_read hs)
  rintro r t ⟨ht, hfound⟩
  cases r with
  | error e => exact ⟨ht, fun _ h => by cases h⟩
  | ok found =>
    obtain ⟨head, payload⟩ := found
    apply wp_ofExcept.mpr
    exact ⟨ht, fun lease hok => (hfound head payload rfl).read hok⟩

/-! ## Calls -/

/-- A write changes nothing but the object and what hangs on it. -/
theorem shared_write {condition : Condition} {body : Body} {digest : String}
    {r : Except ClientError Unit} (h : shared a i (.put_object condition body digest) s r t) :
    t.ids = s.ids ∧ t.renewals = s.renewals := by
  obtain ⟨slot, -, -, rfl⟩ := h
  exact ⟨rfl, rfl⟩

/-- A write of a newer document of the host's own, and what its client keeps of the answer. -/
theorem wp_write {condition : Condition} {d : LeaseDocument} {digest : String}
    (hnewer : Newer s d) (hown : s.Owns i d.lease_id)
    (hold : ∀ etag, condition = .if_match etag →
      ∃ o ∈ s.stored, o.etag = etag ∧ leaseId o = some d.lease_id) :
    wp (Around a i) (Guard i) (original_error (.put_object condition (.document d) digest) rfl)
      (fun _ t => Global t ∧ t.Owns i d.lease_id ∧
        ∀ r ∈ t.renewals, r.1 = d.lease_id → r.2 < d.generation) s := by
  have hguard : Guard i (.put_object condition (.document d) digest) s :=
    ⟨d, rfl, hown, hnewer, hold⟩
  apply wp_perform_under hguard
  intro r v hv t ht
  obtain ⟨hids, hrenewals⟩ := shared_write hv
  have hvown : v.Owns i d.lease_id := by
    rw [Scope.Owns, hids]
    exact hown
  refine ⟨ht.2, ht.1.ids _ hvown, ?_⟩
  intro old hold' hid
  have hthere := ht.1.own_renewals old hold' (hid ▸ hvown)
  rw [hrenewals] at hthere
  exact hnewer.renewed old hthere hid

/-- A document of the host's own that is read back is there. -/
theorem Found.own {head : CoordinationHead} {d : LeaseDocument} {allow_expired : Bool}
    {lease : PitrCoordinationLease} (hfound : Found a i t head (.document d))
    (hown : t.Owns i d.lease_id)
    (h : lease_from_payload a head (.document d) allow_expired = .ok lease) :
    lease.lease_id = d.lease_id ∧ lease.generation = d.generation ∧
      ∃ o, t.slot = some o ∧ o.body = .document d := by
  obtain ⟨o, ho, hbody, hshow, hkept⟩ := hfound
  rw [← hbody] at h
  obtain ⟨d', hbody', rfl⟩ := lease_of_payload hshow h
  obtain rfl := Body.document.inj (hbody.symm.trans hbody')
  exact ⟨rfl, rfl, o, hkept _ (leaseId_document hbody) hown, hbody⟩

theorem wp_generate (hs : Global s) :
    wp (Around a i) (Guard i) (.perform (F := Lease) (ε := LeaseFailure) .uuid4 .ok) (fun r t =>
      Global t ∧ ∃ id, r = .ok id ∧ t.Owns i id ∧ ∀ d : LeaseDocument, d.lease_id = id →
        Newer t d) s := by
  apply wp_perform_under trivial
  rintro id v ⟨hfresh, rfl⟩ t ht
  have hown : Scope.Owns { s with ids := (id, some i) :: s.ids } i id := List.mem_cons_self
  refine ⟨ht.2, id, rfl, ht.1.ids _ hown, ?_⟩
  rintro d rfl
  constructor
  · intro o ho d' hbody hid
    have hthere := ht.1.own_stored o ho _ (leaseId_document hbody) (hid ▸ hown)
    exact absurd (hid ▸ hs.known o hthere _ (leaseId_document hbody)) hfresh
  · intro r hr hid
    have hthere := ht.1.own_renewals r hr (hid ▸ hown)
    exact absurd (hid ▸ hs.renewed_known r hthere) hfresh

theorem wp_label {value label : String} {W : World Lease (Scope ι)} {I : Lease.Op → Scope ι → Prop} :
    wp W I (printable_label value label) (fun _ t => t = s) s := by
  unfold printable_label
  split <;> rfl

/-- An acquisition that returns has left its own lease there. -/
def Acquired (i : ι) (r : Except LeaseFailure PitrCoordinationLease) (t : Scope ι) : Prop :=
  ∀ lease, r = .ok lease → t.Owns i lease.lease_id ∧ t.slot.bind leaseId = some lease.lease_id

theorem acquired_error {e : LeaseFailure} : Acquired i (.error e) t := fun _ h => by cases h

theorem wp_acquire (hs : Global s) (purpose owner : String) (ttl_seconds : ℤ) :
    wp (Around a i) (Guard i) (acquire_coordination_lease a purpose owner ttl_seconds now)
      (Acquired i) s := by
  unfold acquire_coordination_lease refuse_if
  apply wp_seq wp_label (fun e t _ => acquired_error)
  rintro safe_purpose _ rfl
  apply wp_seq wp_label (fun e t _ => acquired_error)
  rintro safe_owner _ rfl
  apply wp_check_seq (fun _ => acquired_error)
  intro _
  apply wp_seq wp_head (fun e t _ => acquired_error)
  rintro existing t ⟨ht, -⟩
  dsimp only
  cases existing.info with
  | some info =>
    apply wp_seq (wp_lease_read ht.2) (fun e u _ => acquired_error)
    rintro current u -
    split <;> exact acquired_error
  | none =>
    apply wp_seq (wp_generate ht.2) (fun e u _ => acquired_error)
    rintro id u ⟨hu, id', hid', hown, hnewer⟩
    obtain rfl := Except.ok.inj hid'
    apply wp_seq (wp_write (hnewer _ rfl) hown (fun _ h => by cases h))
    · exact fun e v _ => acquired_error
    rintro original v ⟨hv, hvown, -⟩
    apply wp_attempt_seq (wp_stable_read hv)
    rintro read w ⟨hw, hfound⟩
    cases read with
    | error e =>
      cases e with
      | object_not_found key => cases original <;> exact acquired_error
      | _ => exact acquired_error
    | ok read =>
      obtain ⟨head, remote_payload⟩ := read
      dsimp only
      split
      · next hsame =>
        subst hsame
        apply wp_ofExcept.mpr
        intro lease hok
        obtain ⟨hid, -, o, hslot, hbody⟩ :=
          (hfound head _ rfl).own (hw.1.ids _ hvown) hok
        rw [hid]
        refine ⟨hw.1.ids _ hvown, ?_⟩
        rw [hslot]
        exact leaseId_document hbody
      · apply wp_ofExcept_seq (fun e _ => acquired_error)
        intro current _
        split
        · exact acquired_error
        · cases original with
          | none => exact acquired_error
          | some exc =>
            dsimp only
            split <;> exact acquired_error

theorem same_lease_iff {expected actual : PitrCoordinationLease} :
    same_lease expected actual = true ↔
      ∃ observed_at, expected = { actual with observed_at := observed_at } := by
  unfold same_lease
  rw [decide_eq_true_iff]
  constructor
  · exact fun h => ⟨_, h⟩
  · rintro ⟨observed_at, rfl⟩
    rfl

theorem same_lease_id {expected actual : PitrCoordinationLease}
    (h : same_lease expected actual = true) : actual.lease_id = expected.lease_id := by
  obtain ⟨_, rfl⟩ := same_lease_iff.mp h
  rfl

/-- A lease that passes is the one that is read. -/
theorem wp_assert (hs : Global s) {lease : PitrCoordinationLease} :
    wp (Around a i) (Guard i) (assert_coordination_lease a lease now) (fun r t => Others i s t ∧
      ∀ current, r = .ok current → same_lease lease current = true ∧ Read a i t current) s := by
  unfold assert_coordination_lease
  apply wp_seq (wp_lease_read hs)
  · exact fun e t ht => ⟨ht.1, fun _ h => by cases h⟩
  rintro current t ⟨ht, hread⟩
  split
  · next hsame =>
    refine ⟨ht, ?_⟩
    intro lease' hok
    obtain rfl := Except.ok.inj hok
    exact ⟨hsame, hread _ rfl⟩
  · exact ⟨ht, fun _ h => by cases h⟩

theorem if_match_etag_ok {etag etag' : String} (h : if_match_etag etag = .ok etag') :
    etag' = etag := by
  unfold if_match_etag at h
  split at h
  · cases h
  · exact (Except.ok.inj h).symm

/-- A renewal that returns has a generation above all that were returned before, and the object
that is there is no older. -/
def Renewed (i : ι) (r : Except LeaseFailure PitrCoordinationLease) (t : Scope ι) : Prop :=
  ∀ lease, r = .ok lease → t.Owns i lease.lease_id ∧
    (∀ old ∈ t.renewals, old.1 = lease.lease_id → old.2 < lease.generation) ∧
    ∃ o d, t.slot = some o ∧ o.body = .document d ∧ d.lease_id = lease.lease_id ∧
      d.generation = lease.generation

theorem renewed_error {e : LeaseFailure} : Renewed i (.error e) t := fun _ h => by cases h

/-- What follows the write of a renewal. -/
def renewal_read_back (a : LeaseAdapter) (payload : Body) (now : Option Timestamp)
    (original : Option ClientError) : LeaseM PitrCoordinationLease := do
  let read ← Prog.attempt (ε := LeaseFailure) (read_stable_coordination_payload a now)
  match read with
  | .error (.object_not_found _) =>
    .raise (.lease "PITR coordination lease disappeared during renewal")
  | .error e => .raise e
  | .ok (head, remote_payload) =>
    if remote_payload = payload then
      .ofExcept (lease_from_payload a head remote_payload false)
    else match original with
    | some exc =>
      if is_conditional_conflict exc then
        .raise (.lease "PITR coordination lease CAS renewal lost ownership")
      else .raise (provider_error ("renew " ++ a.coordination_lease_key) exc)
    | none => .raise (.lease "PITR coordination lease CAS renewal lost ownership")

theorem wp_renewal_read_back (hs : Global s) {d : LeaseDocument}
    (hbound : ∀ r ∈ s.renewals, r.1 = d.lease_id → r.2 < d.generation)
    (hown : s.Owns i d.lease_id)
    (original : Option ClientError) :
    wp (Around a i) (Guard i) (renewal_read_back a (.document d) now original) (Renewed i) s := by
  unfold renewal_read_back
  apply wp_attempt_seq (wp_stable_read hs)
  rintro read t ⟨ht, hfound⟩
  cases read with
  | error e => cases e <;> exact renewed_error
  | ok read =>
    obtain ⟨head, remote_payload⟩ := read
    dsimp only
    split
    · next hpayload =>
      subst hpayload
      apply wp_ofExcept.mpr
      intro lease hok
      have htown := ht.1.ids _ hown
      obtain ⟨hid, hgeneration, o, hslot, hbody⟩ := (hfound head _ rfl).own htown hok
      refine ⟨hid.symm ▸ htown, ?_, o, d, hslot, hbody, hid.symm, hgeneration.symm⟩
      intro old hold hsame
      rw [hgeneration]
      have hback := ht.1.own_renewals old hold ((hsame.trans hid) ▸ hown)
      exact hbound old hback (hsame.trans hid)
    · cases original with
      | none => exact renewed_error
      | some exc =>
        dsimp only
        split <;> exact renewed_error

theorem wp_renew (hs : Global s) {lease : PitrCoordinationLease}
    (hown : s.Owns i lease.lease_id) :
    wp (Around a i) (Guard i) (renew_coordination_lease a lease now) (Renewed i) s := by
  unfold renew_coordination_lease
  apply wp_seq (wp_assert hs) (fun e t _ => renewed_error)
  rintro current t ⟨ht, hpassed⟩
  obtain ⟨hsame, o, ho, d, observed_at, hbody, rfl, hthere⟩ := hpassed current rfl
  have hid : d.lease_id = lease.lease_id := same_lease_id hsame
  have htown : t.Owns i d.lease_id := ht.1.ids _ (hid ▸ hown)
  have hslot := hthere htown
  have hoid := leaseId_document hbody
  -- The object that was read is still there, so nothing newer was stored or returned.
  have hnewer : Newer t (lease_document a d.lease_id d.owner d.purpose (d.generation + 1)
      d.ttl_seconds) := by
    constructor
    · intro o' ho' d' hbody' hid'
      exact Int.lt_add_one_of_le (ht.2.newest o hslot d hbody o' ho' d' hbody' hid')
    · intro r hr hid'
      exact Int.lt_add_one_of_le (ht.2.renewed_bounded r hr o hslot d hbody hid'.symm)
  dsimp only [leaseOf]
  cases hetag : if_match_etag o.etag with
  | error e =>
    apply wp_seq (P := fun _ u => u = t) (wp_pure _ |>.mpr rfl) (fun e u _ => renewed_error)
    rintro original _ rfl
    exact wp_renewal_read_back ht.2 hnewer.renewed htown original
  | ok etag =>
    obtain rfl := if_match_etag_ok hetag
    dsimp only
    apply wp_seq (wp_write hnewer htown ?_) (fun e u _ => renewed_error)
    · rintro original u ⟨hu, huown, hbound⟩
      exact wp_renewal_read_back hu hbound huown original
    · intro etag' heq
      obtain rfl := Condition.if_match.inj heq
      exact ⟨o, ho, rfl, hoid⟩

/-- The delete of an object that is the host's own or nobody's. -/
theorem wp_delete {etag label : String} {o : LeaseObject} {id : String} (ho : o ∈ s.stored)
    (hetag : o.etag = etag) (hid : leaseId o = some id) (hmay : s.Owns i id ∨ s.Ownerless id) :
    wp (Around a i) (Guard i) (conditional_delete a etag now label) (fun _ _ => True) s := by
  have hlook : ∀ original : Option ClientError, ∀ t,
      wp (Around a i) (Guard i) (look_and_judge a etag label original now)
        (fun _ _ => True) t := by
    intro original t
    exact wp_seq wp_head (fun _ _ _ => trivial) fun _ _ _ => wp_ofExcept.mpr trivial
  unfold conditional_delete refuse_if
  apply wp_check_seq (fun _ => trivial)
  intro _
  cases hmatch : if_match_etag etag with
  | error e => exact hlook _ s
  | ok etag' =>
    obtain rfl := if_match_etag_ok hmatch
    apply wp_seq (P := fun _ _ => True) ?_ (fun _ _ _ => trivial) fun original t _ => hlook _ t
    have hguard : Guard i (.delete_object etag') s := ⟨o, ho, id, hetag, hid, hmay⟩
    exact wp_perform_under hguard fun _ _ _ _ _ => trivial

theorem wp_release (hs : Global s) {lease : PitrCoordinationLease}
    (hown : s.Owns i lease.lease_id) :
    wp (Around a i) (Guard i) (release_coordination_lease a lease now) (fun _ _ => True) s := by
  unfold release_coordination_lease
  apply wp_seq (wp_lease_read hs) (fun _ _ _ => trivial)
  rintro current t ⟨ht, hread⟩
  split
  · next hsame =>
    obtain ⟨o, ho, d, observed_at, hbody, rfl, -⟩ := hread _ rfl
    have hid : d.lease_id = lease.lease_id := same_lease_id hsame
    have htown : t.Owns i d.lease_id := ht.1.ids _ (hid ▸ hown)
    exact wp_delete ho rfl (leaseId_document hbody) (.inl htown)
  · trivial

theorem wp_recover {lease_id owner purpose attestation : String}
    (howner : s.Ownerless lease_id) :
    wp (Around a i) (Guard i)
      (recover_expired_coordination_lease a lease_id owner purpose attestation now)
      (fun _ _ => True) s := by
  unfold recover_expired_coordination_lease inspect_coordination_lease refuse_if
  apply wp_seq (P := fun r t => Others i s t ∧ ∀ lease, r = .ok (some lease) → Read a i t lease)
  · apply wp_seq wp_head
    · exact fun e t ht => ⟨ht.1, fun _ h => by cases h⟩
    rintro head t ⟨ht, -⟩
    cases head.info with
    | none => exact ⟨ht, fun _ h => by cases h⟩
    | some info =>
      apply wp_seq (wp_lease_read ht.2)
      · exact fun e u hu => ⟨ht.trans hu.1, fun _ h => by cases h⟩
      rintro lease u ⟨hu, hread⟩
      refine ⟨ht.trans hu, ?_⟩
      intro lease' hok
      cases hok
      exact hread lease rfl
  · exact fun _ _ _ => trivial
  rintro found t ⟨ht, hread⟩
  cases found with
  | none => trivial
  | some current =>
    obtain ⟨o, ho, d, observed_at, hbody, rfl, -⟩ := hread current rfl
    apply wp_check_seq (fun _ => trivial)
    intro _
    apply wp_check_seq (fun _ => trivial)
    intro hconfirmed
    apply wp_check_seq (fun _ => trivial)
    intro _
    have hid : d.lease_id = lease_id := by
      by_contra hne
      exact hconfirmed (.inl (Ne.symm hne))
    refine wp_seq (wp_delete ho rfl (leaseId_document hbody) (.inr ?_)) (fun _ _ _ => trivial)
      fun _ _ _ => trivial
    rw [hid]
    exact ht.1.ownerless howner

/-- What a host may call, in the terms of what the hosts share. -/
def Allowed (i : ι) (s : Scope ι) : HostCall → Prop
  | .acquire _ _ _ _ => True
  | .renew lease _ | .assert lease _ | .release lease _ => s.Owns i lease.lease_id
  | .recover lease_id _ _ _ _ => s.Ownerless lease_id

theorem Allowed.rely {c : HostCall} (h : Allowed i s c) (hrely : Rely i s t) : Allowed i t c := by
  cases c with
  | acquire => trivial
  | renew | assert | release => exact hrely.ids _ h
  | recover => exact hrely.ownerless h

/-- What a call that has ended leaves. -/
structure Post (i : ι) (c : HostCall) (r : Except LeaseFailure (Option PitrCoordinationLease))
    (s : Scope ι) : Prop where
  owned : ∀ lease ∈ gained r, s.Owns i lease.lease_id
  opens : ∀ p ∈ opened i c r, s.Owns p.1 p.2 ∧ s.slot.bind leaseId = some p.2
  renews : ∀ p ∈ renewed c r, s.Owns i p.1 ∧ (∀ old ∈ s.renewals, old.1 = p.1 → old.2 < p.2) ∧
    ∃ o d, s.slot = some o ∧ o.body = .document d ∧ d.lease_id = p.1 ∧ d.generation = p.2

theorem post_nothing {c : HostCall} {r : Except LeaseFailure (Option PitrCoordinationLease)}
    (h : gained r = []) : Post i c r s := by
  constructor
  · simp [h]
  · cases c <;> simp [opened, h]
  · cases c <;> simp [renewed, h]

theorem wp_body (hs : Global s) {c : HostCall} (hallowed : Allowed i s c) :
    wp (Around a i) (Guard i) (c.body a) (Post i c) s := by
  cases c with
  | acquire purpose owner ttl_seconds now =>
    apply wp_seq (wp_acquire hs purpose owner ttl_seconds) (fun _ _ _ => post_nothing rfl)
    intro lease t hacquired
    have hlease := hacquired lease rfl
    exact ⟨by simp [gained, hlease.1], by simp [opened, gained, hlease], by simp [renewed]⟩
  | renew lease now =>
    apply wp_seq (wp_renew hs hallowed) (fun _ _ _ => post_nothing rfl)
    intro lease' t hrenewed
    have hlease := hrenewed lease' rfl
    refine ⟨by simp [gained, hlease.1], by simp [opened], ?_⟩
    intro p hp
    obtain rfl := List.mem_singleton.mp hp
    exact hlease
  | assert lease now =>
    apply wp_seq (wp_assert hs) (fun _ _ _ => post_nothing rfl)
    rintro current t ⟨ht, hpassed⟩
    have hid := same_lease_id (hpassed current rfl).1
    have hown : t.Owns i current.lease_id := hid ▸ ht.1.ids _ hallowed
    exact ⟨by simp [gained, hown], by simp [opened], by simp [renewed]⟩
  | release lease now =>
    exact wp_seq (wp_release hs hallowed) (fun _ _ _ => post_nothing rfl)
      fun _ _ _ => post_nothing rfl
  | recover lease_id owner purpose attestation now =>
    exact wp_seq (wp_recover hallowed) (fun _ _ _ => post_nothing rfl)
      fun _ _ _ => post_nothing rfl

/-! ## Runs -/

/-- Whatever the others do first, a host that has not stopped can go on. -/
def Ready (a : LeaseAdapter) (i : ι) (s : Scope ι) (h : Host) : Prop :=
  ∀ c p, h.doing = some (c, p) → ∀ t, Others i s t → wp (Around a i) (Guard i) p (Post i c) t

theorem Ready.others {h : Host} (hready : Ready a i s h) (ht : Others i s t) : Ready a i t h :=
  fun c p hdoing u hu => hready c p hdoing u (ht.trans hu)

structure Inv (a : LeaseAdapter) (s : System ι) : Prop where
  shared : Global s.toScope
  handles : ∀ i, ∀ lease ∈ (s.hosts i).handles, s.Owns i lease.lease_id
  ready : ∀ i, s.stopped i = false → Ready a i s.toScope (s.hosts i)

theorem Effect.ids (h : Effect i s t) : ∀ p ∈ s.ids, p ∈ t.ids := by
  cases h with
  | generated => exact fun p hp => List.mem_cons_of_mem _ hp
  | still | stored | removed => exact fun p hp => hp

theorem Effect.stopped (h : Effect i s t) : t.stopped = s.stopped := by
  cases h <;> rfl

theorem initial_inv (slot : Slot) : Inv a (initial slot : System ι) := by
  have hslot {o : LeaseObject} (ho : o ∈ slot.toList) : slot = some o := Option.mem_toList.mp ho
  have hnone {β : Type} {x : β} {P : Prop} (h : x ∈ ([] : List β)) : P := (List.not_mem_nil h).elim
  refine ⟨?_, fun _ _ h => hnone h, fun _ _ _ _ h => (Option.some_ne_none _ h.symm).elim⟩
  refine ⟨?_, fun o ho => Option.mem_toList.mpr ho, ?_, ?_, ?_, fun _ h => hnone h,
    fun _ h => hnone h, fun _ h => hnone h, List.Pairwise.nil⟩
  · change List.Nodup (List.map Prod.fst (List.map _ _))
    cases slot.bind leaseId <;> simp
  · intro o ho id hid
    change id ∈ List.map Prod.fst (List.map _ (slot.bind leaseId).toList)
    rw [hslot ho, Option.bind_some, hid]
    simp
  · intro o ho o' ho' _
    rw [Option.some.inj ((hslot ho).symm.trans (hslot ho'))]
  · intro o ho d hbody o' ho' d' hbody' _
    obtain rfl := Option.some.inj ((hslot ho').symm.trans ho)
    rw [Body.document.inj (hbody.symm.trans hbody')]

theorem allowed_of_may {s : System ι} {c : HostCall} (hs : Inv a s) (h : s.May i c) :
    Allowed i s.toScope c := by
  cases c with
  | acquire => trivial
  | renew | assert | release => exact hs.handles i _ h
  | recover => exact h

theorem renewed_pairwise {R : String × ℤ → String × ℤ → Prop} (c : HostCall)
    (r : Except LeaseFailure (Option PitrCoordinationLease)) : (renewed c r).Pairwise R := by
  unfold renewed gained
  split
  · split <;> simp
  · exact List.Pairwise.nil

theorem ended_global {c : HostCall} {r : Except LeaseFailure (Option PitrCoordinationLease)}
    (hs : Global s) (hpost : Post i c r s) : Global (s.ended i c r) := by
  refine ⟨hs.nodup, hs.present, hs.known, hs.tagged, hs.newest, ?_, ?_, ?_, ?_⟩
  · intro p hp
    rcases List.mem_append.mp hp with hnew | hold
    · exact ⟨(hpost.opens p hnew).2, (hpost.opens p hnew).1⟩
    · exact hs.held p hold
  · intro p hp
    rcases List.mem_append.mp hp with hnew | hold
    · exact List.mem_map_of_mem (hpost.renews p hnew).1
    · exact hs.renewed_known p hold
  · intro p hp o ho d hbody hid
    rcases List.mem_append.mp hp with hnew | hold
    · obtain ⟨-, -, o', d', hslot, hbody', -, hgeneration⟩ := hpost.renews p hnew
      obtain rfl := Option.some.inj (hslot.symm.trans ho)
      obtain rfl := Body.document.inj (hbody'.symm.trans hbody)
      exact le_of_eq hgeneration.symm
    · exact hs.renewed_bounded p hold o ho d hbody hid
  · refine List.pairwise_append.mpr ⟨renewed_pairwise c r, hs.increasing, ?_⟩
    intro new hnew old hold heq
    exact (hpost.renews new hnew).2.1 old hold heq.symm

theorem ended_rely {c : HostCall} {r : Except LeaseFailure (Option PitrCoordinationLease)}
    (hs : Global s) (hpost : Post i c r s) (hne : j ≠ i) : Rely j s (s.ended i c r) := by
  refine { Rely.refl j s with own_renewals := ?_ }
  intro p hp hown
  rcases List.mem_append.mp hp with hnew | hold
  · exact absurd (Option.some.inj (hs.owner_unique hown (hpost.renews p hnew).1)) hne
  · exact hold

section Steps

variable [DecidableEq ι]

/-- A host that has not stopped is ready after the step of another. -/
theorem step_others {s' : System ι} {t : Scope ι} {h : Host} (hs : Inv a s') (ht : Global t)
    (hrely : ∀ j, s'.stopped j = false → j ≠ i → Rely j s'.toScope t)
    (hstopped : t.stopped = s'.stopped) (hready : Ready a i t h) (j : ι)
    (hj : t.stopped j = false) : Ready a j t ((s'.host_at t i h).hosts j) := by
  by_cases hji : j = i
  · subst hji
    rw [host_at_self]
    exact hready
  · rw [host_at_ne _ _ _ hji]
    rw [hstopped] at hj
    exact (hs.ready j hj).others ⟨hrely j hj hji, ht⟩

theorem step_handles {s' : System ι} {t : Scope ι} {h : Host} (hs : Inv a s')
    (hids : ∀ p ∈ s'.ids, p ∈ t.ids) (hh : ∀ lease ∈ h.handles, t.Owns i lease.lease_id) (j : ι) :
    ∀ lease ∈ ((s'.host_at t i h).hosts j).handles, t.Owns j lease.lease_id := by
  by_cases hji : j = i
  · subst hji
    rw [host_at_self]
    exact hh
  · rw [host_at_ne _ _ _ hji]
    exact fun lease hlease => hids _ (hs.handles j lease hlease)

theorem stopped_rely (s : Scope ι) (i j : ι) :
    Rely j s { s with stopped := Function.update s.stopped i true } := by
  refine { Rely.refl j s with stopped := ?_ }
  intro k hk
  by_cases hki : k = i
  · subst hki
    exact Function.update_self _ _ _
  · exact (Function.update_of_ne hki _ _).trans hk

theorem inv_step {s t : System ι} (hs : Inv a s) (h : Step a s t) : Inv a t := by
  cases h with
  | start i c hrunning hidle hmay =>
    refine ⟨hs.shared, step_handles hs (fun _ hp => hp) (hs.handles i),
      step_others hs hs.shared (fun j _ _ => .refl j _) rfl ?_⟩
    intro c' p hdoing u hu
    obtain ⟨rfl, rfl⟩ := Prod.mk.inj (Option.some.inj hdoing)
    exact wp_body hu.2 ((allowed_of_may hs hmay).rely hu.1)
  | @call i c o k r t hrunning hdoing hworld =>
    have hwp := hs.ready i hrunning c _ hdoing s.toScope ⟨.refl i _, hs.shared⟩
    have heffect := effect_of_shared hs.shared hwp.1 hworld
    have ht := effect_global hs.shared heffect
    refine ⟨ht, step_handles hs heffect.ids fun lease hlease => heffect.ids _
      (hs.handles i lease hlease), step_others hs ht
      (fun j hj hne => effect_rely hs.shared heffect hj hne) heffect.stopped ?_⟩
    intro c' p hdoing' u hu
    obtain ⟨rfl, rfl⟩ := Prod.mk.inj (Option.some.inj hdoing')
    exact hwp.2 r u ⟨t, hworld, hu⟩
  | @finish i c r hrunning hdoing =>
    have hwp := hs.ready i hrunning c _ hdoing s.toScope ⟨.refl i _, hs.shared⟩
    have hpost := wp_ofExcept.mp hwp
    have ht := ended_global hs.shared hpost
    refine ⟨ht, step_handles hs (fun _ hp => hp) ?_, step_others hs ht
      (fun j _ hne => ended_rely hs.shared hpost hne) rfl fun _ _ hdoing' => by cases hdoing'⟩
    intro lease hlease
    rcases List.mem_append.mp hlease with hnew | hold
    · exact hpost.owned lease hnew
    · exact hs.handles i lease hold
  | stop i =>
    have hshared : Global { s.toScope with stopped := Function.update s.stopped i true } :=
      ⟨hs.shared.nodup, hs.shared.present, hs.shared.known, hs.shared.tagged, hs.shared.newest,
        hs.shared.held, hs.shared.renewed_known, hs.shared.renewed_bounded, hs.shared.increasing⟩
    refine ⟨hshared, hs.handles, ?_⟩
    intro j hj
    have hji : j ≠ i := by
      rintro rfl
      simp at hj
    have hrunning : s.stopped j = false := (Function.update_of_ne hji _ _).symm.trans hj
    exact (hs.ready j hrunning).others ⟨stopped_rely s.toScope i j, hshared⟩

theorem reachable_inv {s : System ι} (h : Reachable a s) : Inv a s := by
  obtain ⟨slot, hsteps⟩ := h
  induction hsteps with
  | refl => exact initial_inv slot
  | tail _ hstep ih => exact inv_step ih hstep

/-- The sections of two hosts do not overlap. -/
theorem sections_exclusive {s : System ι} (h : Reachable a s) :
    ∀ p ∈ s.sections, ∀ q ∈ s.sections, p = q := by
  have hinv := reachable_inv h
  intro p hp q hq
  obtain ⟨hslot, hown⟩ := hinv.shared.held p hp
  obtain ⟨hslot', hown'⟩ := hinv.shared.held q hq
  have hid : p.2 = q.2 := Option.some.inj (hslot.symm.trans hslot')
  rw [← hid] at hown'
  exact Prod.ext (Option.some.inj (hinv.shared.owner_unique hown hown')) hid

/-- An acquisition that is about to return has a lease of its own there, so nobody else's. -/
theorem acquire_returns_alone {s : System ι} (h : Reachable a s) {i : ι} {purpose owner : String}
    {ttl_seconds : ℤ} {now : Option Timestamp} {lease : PitrCoordinationLease}
    (hrunning : s.stopped i = false)
    (hreturns : (s.hosts i).doing =
      some (.acquire purpose owner ttl_seconds now, .pure (some lease))) :
    ∃ o, s.slot = some o ∧ leaseId o = some lease.lease_id ∧
      ∀ j, s.Owns j lease.lease_id ↔ j = i := by
  have hinv := reachable_inv h
  have hpost := hinv.ready i hrunning _ _ hreturns s.toScope ⟨.refl i _, hinv.shared⟩
  obtain ⟨hown, hslot⟩ := hpost.opens (i, lease.lease_id) (by simp [opened, gained])
  obtain ⟨o, hslot, hid⟩ := Option.bind_eq_some_iff.mp hslot
  refine ⟨o, hslot, hid, ?_⟩
  intro j
  constructor
  · exact fun hjown => Option.some.inj (hinv.shared.owner_unique hjown hown)
  · rintro rfl
    exact hown

/-- The generations that the renewals of one lease return increase strictly. -/
theorem renewals_increase {s : System ι} (h : Reachable a s) :
    s.renewals.Pairwise fun new old => new.1 = old.1 → old.2 < new.2 :=
  (reachable_inv h).shared.increasing

end Steps

theorem reading_assert {lease : PitrCoordinationLease} :
    (assert_coordination_lease a lease now).Calls Reading := by
  unfold assert_coordination_lease
  apply calls_bind reading_lease
  intro current
  split <;> trivial

/-- Readings that no other host disturbs. -/
theorem steps_around {β : Type} {p q : LeaseM β} (hs : Global s) (hp : p.Calls Reading)
    (h : Steps (shared a i) s p t q) : Steps (Around a i) s p t q ∧ t = s := by
  induction h with
  | refl => exact ⟨.refl _ _, rfl⟩
  | call hw _ ih =>
    obtain ⟨rfl, -⟩ := shared_reading hp.1 hw
    obtain ⟨hsteps, rfl⟩ := ih hs (hp.2 _)
    exact ⟨.call ⟨_, hw, .refl i _, hs⟩ hsteps, rfl⟩

/-- `assert_coordination_lease` lets the lease pass if the others keep still. -/
def Passes (a : LeaseAdapter) (i : ι) (s : Scope ι) (lease : PitrCoordinationLease) : Prop :=
  ∃ now current t, Ends (shared a i) s (assert_coordination_lease a lease now) (.ok current) t

theorem Passes.there (hs : Global s) {lease : PitrCoordinationLease}
    (hown : s.Owns i lease.lease_id) (h : Passes a i s lease) :
    ∃ o d observed_at, s.slot = some o ∧ o.body = .document d ∧
      lease = leaseOf a o d observed_at := by
  obtain ⟨now, current, t, hends⟩ := h
  obtain ⟨hsteps, rfl⟩ := steps_around hs reading_assert hends
  obtain ⟨-, hpassed⟩ := wp_ends (wp_assert hs) hsteps
  obtain ⟨hsame, o, -, d, observed_at, hbody, rfl, hthere⟩ := hpassed current rfl
  have hid : d.lease_id = lease.lease_id := same_lease_id hsame
  obtain ⟨observed_at', rfl⟩ := same_lease_iff.mp hsame
  exact ⟨o, d, observed_at', hthere (hid ▸ hown), hbody, rfl⟩

/-- The handles that pass are those of one host, and they are the same lease. -/
theorem one_lease_passes [DecidableEq ι] {s : System ι} (h : Reachable a s) {i j : ι}
    {x y : PitrCoordinationLease} (hx : x ∈ (s.hosts i).handles) (hy : y ∈ (s.hosts j).handles)
    (hxp : Passes a i s.toScope x) (hyp : Passes a j s.toScope y) :
    i = j ∧ same_lease x y = true := by
  have hinv := reachable_inv h
  have hxown := hinv.handles i x hx
  have hyown := hinv.handles j y hy
  obtain ⟨o, d, _, hslot, hbody, rfl⟩ := hxp.there hinv.shared hxown
  obtain ⟨o', d', _, hslot', hbody', rfl⟩ := hyp.there hinv.shared hyown
  obtain rfl := Option.some.inj (hslot.symm.trans hslot')
  obtain rfl := Body.document.inj (hbody.symm.trans hbody')
  refine ⟨Option.some.inj (hinv.shared.owner_unique hxown hyown), ?_⟩
  exact same_lease_iff.mpr ⟨_, rfl⟩

/-! ## One host by itself -/

section Example

theorem shared_stopped {o : Lease.Op} {r : Lease.Reply o} (h : shared a i o s r t) :
    t.stopped = s.stopped := by
  cases o with
  | uuid4 => exact h.2 ▸ rfl
  | head_object | get_object | put_object | delete_object =>
    obtain ⟨slot, -, -, rfl⟩ := h
    rfl

theorem host_at_same [DecidableEq ι] (s : System ι) (i : ι) : s.host_at s.toScope i (s.hosts i) = s := by
  rw [System.host_at, Function.update_eq_self]

theorem reachable_steps [DecidableEq ι] {s : System ι} {u t : Scope ι} {c : HostCall}
    {p q : LeaseM (Option PitrCoordinationLease)} (h : Reachable a s) (hu : s.toScope = u)
    (hrunning : u.stopped i = false) (hdoing : (s.hosts i).doing = some (c, p))
    (hsteps : Steps (shared a i) u p t q) :
    Reachable a (s.host_at t i ⟨(s.hosts i).handles, some (c, q)⟩) := by
  induction hsteps generalizing s with
  | refl =>
    rw [← hu, ← hdoing, host_at_same]
    exact h
  | @call u o k r v t q hworld _ ih =>
    subst hu
    obtain ⟨slot, hrun⟩ := h
    have hnext : Reachable a (s.host_at v i ⟨(s.hosts i).handles, some (c, k r)⟩) :=
      ⟨slot, hrun.tail (.call i hrunning hdoing hworld)⟩
    have hrest := ih hnext rfl ((congrFun (shared_stopped hworld) i).trans hrunning)
      (by rw [host_at_self])
    rw [host_at_self] at hrest
    simpa [System.host_at] using hrest

def longer (l : List String) (c : Char) : String :=
  String.ofList (List.replicate ((l.map String.length).sum + 1) c)

theorem longer_not_mem (l : List String) (c : Char) : longer l c ∉ l := by
  intro hmem
  have hle := List.single_le_sum (by simp) _ (List.mem_map_of_mem (f := String.length) hmem)
  simp [longer] at hle

def next_id (s : Scope ι) : String :=
  if otherDocument.lease_id ∈ s.ids.map Prod.fst then longer (s.ids.map Prod.fst) '0'
  else otherDocument.lease_id

theorem next_id_fresh (s : Scope ι) : next_id s ∉ s.ids.map Prod.fst := by
  unfold next_id
  split
  · exact longer_not_mem _ _
  · assumption

def next_etag (s : Scope ι) : String := longer (s.stored.map LeaseObject.etag) 'e'

/-- A store without faults that several hosts share. -/
def serveShared (i : ι) (o : Lease.Op) (s : Scope ι) : Lease.Reply o × Scope ι :=
  match o with
  | .uuid4 => (next_id s, { s with ids := (next_id s, some i) :: s.ids })
  | .put_object .if_none_match body digest => match s.slot with
    | none => (.ok (), s.moved (.put_object .if_none_match body digest)
        (some ⟨body, some digest, next_etag s, 0⟩))
    | some _ => (.error refused, s)
  | .put_object (.if_match etag) body digest =>
    if s.slot.map LeaseObject.etag = some etag then
      (.ok (), s.moved (.put_object (.if_match etag) body digest)
        (some ⟨body, some digest, next_etag s, 0⟩))
    else (.error refused, s)
  | .head_object => ((serve .head_object s.slot).1, s)
  | .get_object => ((serve .get_object s.slot).1, s)
  | .delete_object etag => ((serve (.delete_object etag) s.slot).1,
      s.moved (.delete_object etag) (serve (.delete_object etag) s.slot).2)

structure Coherent (s : Scope ι) : Prop where
  present : ∀ o ∈ s.slot, o ∈ s.stored
  tagged : ∀ o ∈ s.stored, ∀ o' ∈ s.stored, o.etag = o'.etag → o.body = o'.body

theorem next_etag_fresh {o : LeaseObject} (ho : o ∈ s.stored) : o.etag ≠ next_etag s := by
  intro heq
  have hmem : o.etag ∈ s.stored.map LeaseObject.etag := List.mem_map_of_mem ho
  rw [heq] at hmem
  exact longer_not_mem _ _ hmem

theorem Coherent.stored {o : Lease.Op} {new : LeaseObject} (hs : Coherent s)
    (hetag : new.etag = next_etag s) : Coherent (s.moved o (some new)) := by
  have hne : (some new : Slot) ≠ s.slot :=
    fun heq => next_etag_fresh (hs.present new heq.symm) hetag
  rw [Scope.moved, if_neg hne]
  constructor
  · intro o ho
    obtain rfl := Option.some.inj ho
    exact List.mem_cons_self
  · intro o ho o' ho' heq
    rcases List.mem_cons.mp ho with rfl | hold
    · rcases List.mem_cons.mp ho' with rfl | hold'
      · rfl
      · exact absurd (heq.symm.trans hetag) (next_etag_fresh hold')
    · rcases List.mem_cons.mp ho' with rfl | hold'
      · exact absurd (heq.trans hetag) (next_etag_fresh hold)
      · exact hs.tagged o hold o' hold' heq

theorem Coherent.removed {o : Lease.Op} (hs : Coherent s) : Coherent (s.moved o none) := by
  refine ⟨fun _ h => (Option.not_mem_none _ h).elim, ?_⟩
  have hstored : (s.moved o none).stored = s.stored := by simp [Scope.moved]
  rw [hstored]
  exact hs.tagged

theorem shared_serve (i : ι) (o : Lease.Op) (s : Scope ι) (hs : Coherent s) :
    shared exampleAdapter i o s (serveShared i o s).1 (serveShared i o s).2 ∧
      Coherent (serveShared i o s).2 := by
  have hstill (r : Lease.Reply o) (hworld : store exampleAdapter o s.slot r s.slot)
      (hnot : o ≠ .uuid4) : shared exampleAdapter i o s r s := by
    cases o with
    | uuid4 => exact absurd rfl hnot
    | head_object | get_object | put_object | delete_object =>
      exact ⟨s.slot, hworld, fun new hnew old hold => hs.tagged old hold new (hs.present new hnew),
        (moved_same s _).symm⟩
  cases o with
  | uuid4 => exact ⟨⟨next_id_fresh s, rfl⟩, hs.present, hs.tagged⟩
  | head_object => exact ⟨hstill _ (store_serve .head_object s.slot) (by simp), hs⟩
  | get_object => exact ⟨hstill _ (store_serve .get_object s.slot) (by simp), hs⟩
  | put_object condition body digest =>
    have hput (hmeets : Meets s.slot condition) :
        shared exampleAdapter i (.put_object condition body digest) s (.ok ())
          (s.moved (.put_object condition body digest)
            (some ⟨body, some digest, next_etag s, 0⟩)) := by
      refine ⟨_, .inl ⟨hmeets, _, _, rfl⟩, ?_, rfl⟩
      intro new hnew old hold heq
      obtain rfl := Option.some.inj hnew
      exact absurd heq (next_etag_fresh hold)
    have hrefused := hstill (.error refused) (.inr ⟨rfl, refused, rfl⟩) (by simp)
    cases condition with
    | if_none_match =>
      simp only [serveShared]
      split
      · next hnone => exact ⟨hput hnone, hs.stored rfl⟩
      · exact ⟨hrefused, hs⟩
    | if_match etag =>
      simp only [serveShared]
      split
      · next hsome => exact ⟨hput (meets_if_match hsome), hs.stored rfl⟩
      · exact ⟨hrefused, hs⟩
  | delete_object etag =>
    have hstore := store_serve (.delete_object etag) s.slot
    simp only [serveShared]
    simp only [serve] at hstore ⊢
    split at hstore
    · next hsome =>
      rw [if_pos hsome]
      exact ⟨⟨_, hstore, fun _ h => (Option.not_mem_none _ h).elim, rfl⟩, hs.removed⟩
    · next hother =>
      rw [if_neg hother, moved_same]
      exact ⟨hstill _ hstore (by simp), hs⟩

/-- The host has made a call that nobody disturbed and is about to return from it. -/
def returning [DecidableEq ι] (i : ι) (c : HostCall) (s : System ι) : System ι :=
  let (r, t) := (c.body exampleAdapter).run (serveShared i) s.toScope
  s.host_at t i ⟨(s.hosts i).handles, some (c, .ofExcept r)⟩

def answered [DecidableEq ι] (i : ι) (c : HostCall) (s : System ι) : System ι :=
  let (r, t) := (c.body exampleAdapter).run (serveShared i) s.toScope
  s.host_at (t.ended i c r) i ⟨gained r ++ (s.hosts i).handles, none⟩

section Alone

variable [DecidableEq ι] {s : System ι} {c : HostCall}

theorem ends_alone (i : ι) (h : Reachable exampleAdapter s) :
    Ends (shared exampleAdapter i) s.toScope (c.body exampleAdapter)
      ((c.body exampleAdapter).run (serveShared i) s.toScope).1
      ((c.body exampleAdapter).run (serveShared i) s.toScope).2 :=
  ends_run_within (shared_serve i) _
    ⟨(reachable_inv h).shared.present, (reachable_inv h).shared.tagged⟩

theorem reachable_returning (h : Reachable exampleAdapter s) (hrunning : s.stopped i = false)
    (hidle : (s.hosts i).doing = none) (hmay : s.May i c) :
    Reachable exampleAdapter (returning i c s) := by
  have hends := ends_alone (c := c) i h
  obtain ⟨slot, hrun⟩ := h
  have hstarted := hrun.tail (.start i c hrunning hidle hmay)
  have hdone := reachable_steps ⟨slot, hstarted⟩ rfl hrunning (by rw [host_at_self]) hends
  simpa [returning, System.host_at] using hdone

theorem reachable_answered (h : Reachable exampleAdapter s) (hrunning : s.stopped i = false)
    (hidle : (s.hosts i).doing = none) (hmay : s.May i c) :
    Reachable exampleAdapter (answered i c s) := by
  have hends := ends_alone (c := c) i h
  obtain ⟨slot, hrun⟩ := reachable_returning h hrunning hidle hmay
  have hstopped : ((c.body exampleAdapter).run (serveShared i) s.toScope).2.stopped = s.stopped :=
    run_preserves (f := Scope.stopped)
      (calls_all (fun _ _ _ _ hworld => shared_stopped hworld) _) hends
  have hfinished := hrun.tail (.finish i (c := c) ((congrFun hstopped i).trans hrunning)
    (by rw [returning, host_at_self]))
  refine ⟨slot, ?_⟩
  simpa [returning, answered, System.host_at] using hfinished

end Alone

end Example

def ownAcquire : HostCall := .acquire "pitr-base" "host-b" 3600 none

def heldLease (generation : ℤ) (etag : String) : PitrCoordinationLease where
  key := exampleAdapter.coordination_lease_key
  lease_id := otherDocument.lease_id
  owner := "host-b"
  purpose := "pitr-base"
  generation := generation
  ttl_seconds := 3600
  etag := etag
  acquired_at := 0
  expires_at := 3600000000
  observed_at := 0

/-- Host `true` has acquired the lease. -/
def holding : System Bool := answered true ownAcquire (initial none)

theorem reachable_initial [DecidableEq ι] (slot : Slot) :
    Reachable a (initial slot : System ι) := ⟨slot, .refl⟩

theorem reachable_holding : Reachable exampleAdapter holding :=
  reachable_answered (reachable_initial none) rfl rfl trivial

theorem holding_state : (holding.hosts true).handles = [heldLease 1 "e"] ∧
    (holding.hosts true).doing = none ∧ holding.stopped true = false ∧
    holding.sections = [(true, otherDocument.lease_id)] := by
  decide +kernel

theorem holding_exclusive : (true, otherDocument.lease_id) ∈ holding.sections ∧
    ∀ p ∈ holding.sections, ∀ q ∈ holding.sections, p = q :=
  ⟨by rw [holding_state.2.2.2]; exact List.mem_cons_self, sections_exclusive reachable_holding⟩

theorem acquire_answer : ((ownAcquire.body exampleAdapter).run (serveShared true)
    (initial none : System Bool).toScope).1 = .ok (some (heldLease 1 "e")) := by
  decide +kernel

theorem returning_alone : ∃ o, (returning true ownAcquire (initial none)).slot = some o ∧
    leaseId o = some otherDocument.lease_id ∧
    ∀ j, (returning true ownAcquire (initial none)).Owns j otherDocument.lease_id ↔ j = true := by
  have hreach : Reachable exampleAdapter (returning true ownAcquire (initial none)) :=
    reachable_returning (c := ownAcquire) (reachable_initial none) rfl rfl trivial
  have hreturns : ((returning true ownAcquire (initial none)).hosts true).doing =
      some (ownAcquire, .pure (some (heldLease 1 "e"))) := by
    rw [returning, host_at_self, acquire_answer]
    rfl
  exact acquire_returns_alone hreach (by decide +kernel) hreturns

theorem holding_passes : Passes exampleAdapter true holding.toScope (heldLease 1 "e") := by
  have hends := ends_run_within (shared_serve true)
    (assert_coordination_lease exampleAdapter (heldLease 1 "e") none)
    ⟨(reachable_inv reachable_holding).shared.present,
      (reachable_inv reachable_holding).shared.tagged⟩
  have hanswer : ((assert_coordination_lease exampleAdapter (heldLease 1 "e") none).run
      (serveShared true) holding.toScope).1 = .ok (heldLease 1 "e") := by
    decide +kernel
  rw [hanswer] at hends
  exact ⟨none, heldLease 1 "e", _, hends⟩

theorem holding_lease_passes : same_lease (heldLease 1 "e") (heldLease 1 "e") = true :=
  (one_lease_passes reachable_holding
    (by rw [holding_state.1]; exact List.mem_cons_self)
    (by rw [holding_state.1]; exact List.mem_cons_self) holding_passes holding_passes).2

/-- It has renewed it twice. -/
def renewing : System Bool := answered true (.renew (heldLease 1 "e") none) holding

def renewedTwice : System Bool := answered true (.renew (heldLease 2 "ee") none) renewing

theorem renewing_state : heldLease 2 "ee" ∈ (renewing.hosts true).handles ∧
    (renewing.hosts true).doing = none ∧ renewing.stopped true = false := by
  decide +kernel

theorem reachable_renewing : Reachable exampleAdapter renewing := by
  refine reachable_answered reachable_holding holding_state.2.2.1 holding_state.2.1 ?_
  change heldLease 1 "e" ∈ (holding.hosts true).handles
  rw [holding_state.1]
  exact List.mem_cons_self

theorem renewed_twice_increases :
    renewedTwice.renewals = [(otherDocument.lease_id, 3), (otherDocument.lease_id, 2)] ∧
      renewedTwice.renewals.Pairwise fun new old => new.1 = old.1 → old.2 < new.2 :=
  ⟨by decide +kernel, renewals_increase (reachable_answered reachable_renewing
    renewing_state.2.2 renewing_state.2.1 renewing_state.1)⟩

end LeaseExclusion
