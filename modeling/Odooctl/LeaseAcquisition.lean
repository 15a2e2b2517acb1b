import Odooctl.LeaseRelease
import Odooctl.ProgramRules

/-!
# What a failed acquisition leaves behind

A conditional create that has taken effect is found again by three `HEAD`s and a `GET`. Beside
the key a ledger records which identifier was generated, which of these looks was answered
badly while the lease was there, and how many calls of the store have failed.
-/
namespace LeaseAcquisition

open EffectPrograms ProgramRules InterleavedPrograms PitrRestoreRecord CheckedLists
open CoordinationLease LeaseRelease

structure Ledger where
  slot : Slot
  generated : Option String
  looks : ℕ
  missed : Bool
  failures : ℕ
  deriving DecidableEq

def before (slot : Slot) : Ledger := ⟨slot, none, 0, false, 0⟩

/-- What is stored is the lease with the generated identifier. -/
def Ledger.holdsOwn (g : Ledger) : Bool :=
  match g.slot.map LeaseObject.body with
  | some (.document d) => g.generated == some d.lease_id
  | _ => false

/-- A call of the store that fails; that there is no object is an answer to a `HEAD`. -/
def fails : (o : LeaseCall) → o.Answer → Bool
  | .uuid4, _ => false
  | .head_object, reply => match reply.response with
    | .ok _ => false
    | .error exc => !is_not_found exc
  | .get_object, reply => !(show Except ClientError Body from reply).isOk
  | .put_object _ _ _, reply => !(show Except ClientError Unit from reply).isOk
  | .delete_object _, reply => !(show Except ClientError Unit from reply).isOk

/-- By the time of the server the lease has lasted. -/
def lapsed (ttl_seconds : ℤ) (head : CoordinationHead) : Bool :=
  match head.info.bind WalObjectInfo.last_modified with
  | some modified => (modified : ℤ) + ttl_seconds * 1000000 ≤ head.server_time
  | none => false

variable (a : LeaseAdapter) (ttl_seconds : ℤ) (now : Option Timestamp)

/-- A look at the lease that does not show it as held. Of the three `HEAD`s the first and the
last are read with their times. -/
def overlooks (looks : ℕ) : (o : LeaseCall) → o.Answer → Bool
  | .head_object, reply =>
    if looks = 1 then match reply.response with
      | .error _ => true
      | .ok response => MAX_LEASE_BYTES < response.size
    else match coordination_info a.coordination_lease_key now reply with
      | .error _ => true
      | .ok head => looks ≠ 0 && lapsed ttl_seconds head
  | .get_object, reply => !(show Except ClientError Body from reply).isOk
  | _, _ => false

/-- What the next ledger says once a call is answered. -/
def note (g : Ledger) (slot : Slot) (o : LeaseCall) (r : o.Answer) : Ledger where
  slot := slot
  generated := match o, r with
    | .uuid4, lease_id => some lease_id
    | _, _ => g.generated
  looks := if g.holdsOwn = true ∧ o = .head_object then g.looks + 1 else g.looks
  missed := g.missed || (g.holdsOwn && overlooks a ttl_seconds now g.looks o r)
  failures := if fails o r then g.failures + 1 else g.failures

/-- `uuid.uuid4().hex`. -/
def IsHex : (o : LeaseCall) → o.Answer → Prop
  | .uuid4, value => is_lease_id value = true
  | _, _ => True

/-- The store as this host alone writes it. -/
def ledger : World Lease Ledger := fun o g r t =>
  IsHex o r ∧ ∃ slot, store a o g.slot r slot ∧ t = note a ttl_seconds now g slot o r

variable {a} {ttl_seconds} {now} {g t : Ledger}

theorem reading_keeps {o : LeaseCall} {r : o.Answer} {s u : Slot} (ho : Reading o)
    (hw : store a o s r u) : u = s := by
  cases o with
  | head_object | get_object => exact hw.1
  | uuid4 | put_object | delete_object => cases ho

theorem note_generated {o : LeaseCall} {r : o.Answer} {slot : Slot} (ho : Reading o) :
    (note a ttl_seconds now g slot o r).generated = g.generated := by
  cases o with
  | head_object | get_object => rfl
  | uuid4 | put_object | delete_object => cases ho

/-- The key holds no lease of the caller, so that no look misses it. -/
structure Foreign (slot : Slot) (generated : Option String) (g : Ledger) : Prop where
  stored : g.slot = slot
  identifier : g.generated = generated
  unseen : g.looks = 0
  unmissed : g.missed = false
  foreign : g.holdsOwn = false

theorem foreign_note (a : LeaseAdapter) (ttl_seconds : ℤ) (now : Option Timestamp) (slot' : Slot)
    (o : LeaseCall) (r : o.Answer) {slot : Slot} {generated : Option String}
    (h : Foreign slot generated g) :
    (note a ttl_seconds now g slot' o r).looks = 0 ∧
      (note a ttl_seconds now g slot' o r).missed = false := by
  simp [note, h.foreign, h.unseen, h.unmissed]

theorem foreign_step {slot : Slot} {generated : Option String} {o : LeaseCall} {r : o.Answer}
    (h : Foreign slot generated g) (ho : Reading o) (hw : ledger a ttl_seconds now o g r t) :
    Foreign slot generated t := by
  obtain ⟨-, slot', hstore, rfl⟩ := hw
  have hslot : slot' = g.slot := reading_keeps ho hstore
  have hgenerated : (note a ttl_seconds now g slot' o r).generated = g.generated :=
    note_generated ho
  obtain ⟨hlooks, hmissed⟩ := foreign_note a ttl_seconds now slot' o r h
  constructor
  · exact hslot.trans h.stored
  · exact hgenerated.trans h.identifier
  · exact hlooks
  · exact hmissed
  · have hstored : (note a ttl_seconds now g slot' o r).slot = g.slot := hslot
    have hown := h.foreign
    unfold Ledger.holdsOwn at hown ⊢
    rw [hstored, hgenerated]
    exact hown

theorem wp_foreign {slot : Slot} {generated : Option String} {ε α : Type} {p : Prog Lease ε α}
    (h : p.Calls Reading) (hg : Foreign slot generated g) :
    wp (ledger a ttl_seconds now) (fun _ _ => True) p (fun _ t => Foreign slot generated t) g :=
  wp_keeps h hg (fun _ _ _ _ => trivial) fun _ _ _ _ ho hu hw => foreign_step hu ho hw

/-! ## Looking at the landed lease -/

/-- The lease of a document has landed, and a number of `HEAD`s have seen it. -/
structure Landed (a : LeaseAdapter) (d : LeaseDocument) (etag : String) (modified : Timestamp)
    (looks : ℕ) (g : Ledger) : Prop where
  stored : g.slot = some ⟨.document d, some (a.sha256 (.document d)), etag, modified⟩
  identifier : g.generated = some d.lease_id
  looks : g.looks = looks
  unmissed : g.missed = false

/-- What a `HEAD` of it says. -/
def landed_info (a : LeaseAdapter) (d : LeaseDocument) (etag : String) (modified : Timestamp) :
    WalObjectInfo :=
  ⟨a.coordination_lease_key, a.size (.document d), a.sha256 (.document d), some etag,
    some modified⟩

/-- It is still there, and no look at it was right. -/
def Overlooked (g : Ledger) : Prop := g.holdsOwn = true ∧ g.missed = true

section Landed

variable {d : LeaseDocument} {etag : String} {modified : Timestamp} {looks : ℕ}

theorem landed_own (h : Landed a d etag modified looks g) : g.holdsOwn = true := by
  simp [Ledger.holdsOwn, h.stored, h.identifier]

/-- A look moves nothing and is counted, if it is a `HEAD`. -/
theorem landed_look {o : LeaseCall} {r : o.Answer} (h : Landed a d etag modified looks g)
    (ho : Reading o) (hw : ledger a ttl_seconds now o g r t) :
    t.holdsOwn = true ∧ t.missed = overlooks a ttl_seconds now looks o r ∧
      (overlooks a ttl_seconds now looks o r = false →
        Landed a d etag modified (if o = .head_object then looks + 1 else looks) t) := by
  obtain ⟨-, slot, hstore, rfl⟩ := hw
  have hslot : slot = g.slot := reading_keeps ho hstore
  have hgenerated : (note a ttl_seconds now g slot o r).generated = g.generated :=
    note_generated ho
  have hmissed : (note a ttl_seconds now g slot o r).missed =
      overlooks a ttl_seconds now looks o r := by
    simp [note, h.unmissed, landed_own h, h.looks]
  have hstored : (note a ttl_seconds now g slot o r).slot = g.slot := hslot
  refine ⟨?_, hmissed, ?_⟩
  · simp [Ledger.holdsOwn, hgenerated, h.identifier, hstored, h.stored]
  · intro hseen
    constructor
    · exact hslot.trans h.stored
    · exact hgenerated.trans h.identifier
    · simp [note, landed_own h, h.looks]
    · exact hmissed.trans hseen

/-- A `HEAD` of the landed lease that succeeds tells the truth. -/
theorem landed_response {r : HeadAnswer} {response : HeadResponse}
    (h : Landed a d etag modified looks g) (hw : ledger a ttl_seconds now .head_object g r t)
    (hr : r.response = .ok response) : head_info a.coordination_lease_key response =
      .ok (landed_info a d etag modified) := by
  obtain ⟨-, slot, ⟨-, htrue, -⟩, -⟩ := hw
  obtain ⟨o, ho, rfl⟩ := htrue response hr
  rw [h.stored] at ho
  cases ho
  rfl

theorem landed_present {r : HeadAnswer} {exc : ClientError}
    (h : Landed a d etag modified looks g) (hw : ledger a ttl_seconds now .head_object g r t)
    (hr : r.response = .error exc) : is_not_found exc = false := by
  obtain ⟨-, slot, ⟨-, -, habsent⟩, -⟩ := hw
  rw [Bool.eq_false_iff]
  intro hmissing
  have hnone := habsent exc hr hmissing
  rw [h.stored] at hnone
  cases hnone

theorem landed_head_info {r : HeadAnswer} {head : CoordinationHead}
    (h : Landed a d etag modified looks g) (hw : ledger a ttl_seconds now .head_object g r t)
    (hread : coordination_info a.coordination_lease_key now r = .ok head) :
    head.info = some (landed_info a d etag modified) := by
  simp only [coordination_info] at hread
  obtain ⟨server_time, -, hread⟩ := bind_eq_ok.mp hread
  cases hresponse : r.response with
  | error exc =>
    rw [hresponse] at hread
    simp [landed_present h hw hresponse] at hread
  | ok response =>
    rw [hresponse] at hread
    obtain ⟨info, hinfo, hread⟩ := bind_eq_ok.mp hread
    rw [landed_response h hw hresponse] at hinfo
    cases hinfo
    split at hread
    · cases hread
    split at hread
    · cases hread
    split at hread
    · cases hread
    · cases hread
      rfl

/-- The first and the last look. -/
theorem wp_landed_head (h : Landed a d etag modified looks g) (hlooks : looks ≠ 1) :
    wp (ledger a ttl_seconds now) (fun _ _ => True) (coordination_head a now) (fun r t =>
      match r with
      | .error _ => Overlooked t
      | .ok head => head.info = some (landed_info a d etag modified) ∧ t.holdsOwn = true ∧
          t.missed = (looks ≠ 0 && lapsed ttl_seconds head) ∧
          (t.missed = false → Landed a d etag modified (looks + 1) t)) g := by
  apply wp_perform.mpr
  refine ⟨trivial, ?_⟩
  intro r t hw
  obtain ⟨hown, hmissed, hlanded⟩ := landed_look (o := .head_object) h trivial hw
  simp only [overlooks, if_neg hlooks, if_true] at hmissed hlanded
  cases hread : coordination_info a.coordination_lease_key now r with
  | error e =>
    rw [hread] at hmissed
    exact ⟨hown, hmissed⟩
  | ok head =>
    rw [hread] at hmissed hlanded
    refine ⟨landed_head_info h hw hread, hown, hmissed, ?_⟩
    intro hseen
    exact hlanded (hmissed.symm.trans hseen)

/-- The look in between. -/
theorem wp_landed_middle (h : Landed a d etag modified 1 g) :
    wp (ledger a ttl_seconds now) (fun _ _ => True) (head a) (fun r t => match r with
      | .error _ => Overlooked t
      | .ok info => info = landed_info a d etag modified ∧ t.holdsOwn = true ∧
          t.missed = decide (MAX_LEASE_BYTES < info.size) ∧
          (t.missed = false → Landed a d etag modified 2 t)) g := by
  apply wp_perform.mpr
  refine ⟨trivial, ?_⟩
  intro r t hw
  obtain ⟨hown, hmissed, hlanded⟩ := landed_look (o := .head_object) h trivial hw
  simp only [overlooks, if_true] at hmissed hlanded
  cases hresponse : r.response with
  | error exc =>
    rw [hresponse] at hmissed
    simp only [landed_present h hw hresponse]
    exact ⟨hown, hmissed⟩
  | ok response =>
    rw [hresponse] at hmissed hlanded
    have hinfo := landed_response h hw hresponse
    have hsize : response.size = (landed_info a d etag modified).size := by
      unfold head_info at hinfo
      split at hinfo
      · cases hinfo
      · exact congrArg WalObjectInfo.size (Except.ok.inj hinfo)
    simp only [hinfo]
    simp only [hsize] at hmissed hlanded
    refine ⟨trivial, hown, hmissed, ?_⟩
    intro hseen
    exact hlanded (hmissed.symm.trans hseen)

theorem wp_landed_body (h : Landed a d etag modified looks g) :
    wp (ledger a ttl_seconds now) (fun _ _ => True) (open_remote_body a) (fun r t => match r with
      | .error _ => Overlooked t
      | .ok body => body = .document d ∧ Landed a d etag modified looks t) g := by
  apply wp_perform.mpr
  refine ⟨trivial, ?_⟩
  intro r t hw
  obtain ⟨hown, hmissed, hlanded⟩ := landed_look (o := .get_object) h trivial hw
  obtain ⟨-, slot, ⟨-, htrue⟩, -⟩ := hw
  change Except ClientError Body at r
  cases r with
  | error exc =>
    have hover : Overlooked t := ⟨hown, hmissed⟩
    by_cases hmissing : is_not_found exc = true
    · simp only [hmissing, if_true]
      exact hover
    · simp only [hmissing]
      exact hover
  | ok body =>
    obtain ⟨o, ho, rfl⟩ := htrue body rfl
    rw [h.stored] at ho
    cases ho
    exact ⟨rfl, hlanded rfl⟩

theorem wp_landed_verified (h : Landed a d etag modified 1 g) :
    wp (ledger a ttl_seconds now) (fun _ _ => True)
      (read_verified a (a.sha256 (.document d)) (a.size (.document d)) MAX_LEASE_BYTES)
      (fun r t => match r with
        | .error _ => Overlooked t
        | .ok (info, body) => info = landed_info a d etag modified ∧ body = .document d ∧
            Landed a d etag modified 2 t) g := by
  unfold read_verified
  apply wp_seq (wp_landed_middle h)
  · exact fun _ _ hover => hover
  intro info t hinfo
  obtain ⟨rfl, hown, hmissed, hlanded⟩ := hinfo
  apply wp_check_seq
  · exact fun hdigest => absurd rfl hdigest
  intro _
  apply wp_check_seq
  · exact fun hsize => absurd rfl hsize
  intro _
  apply wp_check_seq
  · intro hlarge
    exact ⟨hown, by simp [hmissed, hlarge]⟩
  intro hsmall
  apply wp_seq (wp_landed_body (hlanded (by simp [hmissed, hsmall])))
  · exact fun _ _ hover => hover
  intro body u hbody
  obtain ⟨rfl, hlanded⟩ := hbody
  apply wp_check_seq
  · exact fun hlarge => absurd hlarge hsmall
  intro _
  apply wp_check_seq
  · intro hchanged
    simp [landed_info] at hchanged
  intro _
  exact ⟨rfl, rfl, hlanded⟩

/-- The read-back finds the lease or some look of it is missed. -/
theorem wp_landed_read (h : Landed a d etag modified 0 g) :
    wp (ledger a ttl_seconds now) (fun _ _ => True) (read_stable_coordination_payload a now)
      (fun r t => match r with
        | .error _ => Overlooked t
        | .ok (head, body) => head.info = some (landed_info a d etag modified) ∧
            body = .document d ∧ t.holdsOwn = true ∧ t.missed = lapsed ttl_seconds head) g := by
  unfold read_stable_coordination_payload
  apply wp_seq (wp_landed_head h (by decide))
  · exact fun _ _ hover => hover
  intro first t hfirst
  obtain ⟨hinfo, -, hmissed, hlanded⟩ := hfirst
  rw [hinfo]
  apply wp_seq (wp_landed_verified (hlanded (by simp [hmissed])))
  · exact fun _ _ hover => hover
  intro found u hfound
  obtain ⟨info, body⟩ := found
  obtain ⟨rfl, rfl, hlanded⟩ := hfound
  apply wp_seq (wp_landed_head hlanded (by decide))
  · exact fun _ _ hover => hover
  intro last v hlast
  obtain ⟨hinfo, hown, hmissed, -⟩ := hlast
  simp only [hinfo]
  apply wp_check_seq
  · intro hchanged
    simp [landed_info] at hchanged
  intro _
  exact ⟨hinfo, rfl, hown, by simpa using hmissed⟩

end Landed

/-! ## The outcome of the call -/

/-- The call raises and leaves its lease behind exactly if a look at it was missed. -/
def LeftIffMissed {α : Type} (r : Except LeaseFailure α) (g : Ledger) : Prop :=
  ((∃ e, r = .error e) ∧ g.holdsOwn = true) ↔ g.missed = true

theorem left_foreign {α : Type} {slot : Slot} {generated : Option String}
    {r : Except LeaseFailure α} (h : Foreign slot generated g) : LeftIffMissed r g := by
  simp [LeftIffMissed, h.foreign, h.unmissed]

theorem left_overlooked {α : Type} {e : LeaseFailure} (h : Overlooked g) :
    LeftIffMissed (.error e : Except LeaseFailure α) g := by
  simp [LeftIffMissed, h.1, h.2]

theorem wp_label_seq {α : Type} {value label : String} {f : String → LeaseM α}
    {Q : Except LeaseFailure α → Ledger → Prop} (hbad : ∀ e, Q (.error e) g)
    (hok : is_label value = true →
      wp (ledger a ttl_seconds now) (fun _ _ => True) (f value) Q g) :
    wp (ledger a ttl_seconds now) (fun _ _ => True) (printable_label value label >>= f) Q g := by
  unfold printable_label
  split
  · next h => exact hok h
  · exact hbad _

theorem wp_foreign_head {slot : Slot} {generated : Option String}
    (h : Foreign slot generated g) :
    wp (ledger a ttl_seconds now) (fun _ _ => True) (coordination_head a now) (fun r t =>
      Foreign slot generated t ∧ ∀ head, r = .ok head → (head.info = none ↔ slot = none)) g := by
  apply wp_perform.mpr
  refine ⟨trivial, ?_⟩
  intro r t hw
  refine ⟨foreign_step (o := .head_object) h trivial hw, ?_⟩
  intro head hread
  obtain ⟨-, slot', hstore, -⟩ := hw
  rw [sees_absence hstore hread, h.stored]

theorem wp_uuid4 (h : Foreign none none g) :
    wp (ledger a ttl_seconds now) (fun _ _ => True)
      (.perform (F := Lease) (ε := LeaseFailure) .uuid4 .ok) (fun r t => match r with
        | .error _ => False
        | .ok lease_id => is_lease_id lease_id = true ∧ Foreign none (some lease_id) t) g := by
  apply wp_perform.mpr
  refine ⟨trivial, ?_⟩
  intro r t hw
  obtain ⟨hhex, slot, hstore, rfl⟩ := hw
  obtain ⟨hlooks, hmissed⟩ := foreign_note a ttl_seconds now slot .uuid4 r h
  have hslot : slot = none := (show slot = g.slot from hstore).trans h.stored
  refine ⟨hhex, ?_⟩
  constructor
  · exact hslot
  · rfl
  · exact hlooks
  · exact hmissed
  · simp [Ledger.holdsOwn, note, hslot]

/-- The create lands or leaves nothing, whatever is reported of it. -/
theorem wp_create {d : LeaseDocument} (h : Foreign none (some d.lease_id) g) :
    wp (ledger a ttl_seconds now) (fun _ _ => True)
      (original_error (.put_object .if_none_match (.document d) (a.sha256 (.document d))) rfl)
      (fun r t => match r with
        | .error _ => False
        | .ok _ => Foreign none (some d.lease_id) t ∨
            ∃ etag modified, Landed a d etag modified 0 t) g := by
  apply wp_perform.mpr
  refine ⟨trivial, ?_⟩
  intro r t hw
  obtain ⟨-, slot, hstore, rfl⟩ := hw
  obtain ⟨hlooks, hmissed⟩ := foreign_note a ttl_seconds now slot
    (.put_object .if_none_match (.document d) (a.sha256 (.document d))) r h
  rcases hstore with ⟨-, etag, modified, hslot⟩ | ⟨hslot, -⟩
  · right
    refine ⟨etag, modified, ?_⟩
    exact ⟨hslot, h.identifier, hlooks, hmissed⟩
  · left
    have hnone : slot = none := hslot.trans h.stored
    refine ⟨hnone, h.identifier, hlooks, hmissed, ?_⟩
    simp [Ledger.holdsOwn, note, hnone]

/-- The checks pass of the document that an acquisition writes. -/
theorem own_document_checked {lease_id owner purpose : String}
    (hid : is_lease_id lease_id = true) (howner : is_label owner = true)
    (hpurpose : is_label purpose = true) (httl : ttl_in_range ttl_seconds = true) :
    check_document a (lease_document a lease_id owner purpose 1 ttl_seconds) = .ok () := by
  simp [check_document, lease_document, hid, howner, hpurpose, httl]

theorem own_lease_decoded {d : LeaseDocument} {etag : String} {modified : Timestamp}
    {head : CoordinationHead} (hcheck : check_document a d = .ok ())
    (hinfo : head.info = some (landed_info a d etag modified)) :
    (∃ e, lease_from_payload a head (.document d) false = .error e) ↔
      lapsed d.ttl_seconds head = true := by
  simp only [lease_from_payload, lapsed, hinfo, landed_info, Option.bind_some, Option.map_some,
    hcheck, PitrCoordinationLease.expired]
  by_cases hexpired : (modified : ℤ) + d.ttl_seconds * 1000000 ≤ head.server_time <;>
    simp [hexpired, bind, Except.bind]

/-- What is made of the read-back once the lease has landed. -/
theorem wp_judge {d : LeaseDocument} {etag : String} {modified : Timestamp}
    (h : Landed a d etag modified 0 g) (hcheck : check_document a d = .ok ())
    (httl : d.ttl_seconds = ttl_seconds)
    {judge : Except LeaseFailure (CoordinationHead × Body) → LeaseM PitrCoordinationLease}
    (herror : ∀ e, ∃ e', judge (.error e) = .raise e')
    (hfound : ∀ head, judge (.ok (head, .document d)) =
      .ofExcept (lease_from_payload a head (.document d) false)) :
    wp (ledger a ttl_seconds now) (fun _ _ => True)
      (Prog.attempt (ε := LeaseFailure) (read_stable_coordination_payload a now) >>= judge)
      LeftIffMissed g := by
  apply wp_attempt_seq (wp_landed_read h)
  intro r t hr
  cases r with
  | error e =>
    obtain ⟨e', he⟩ := herror e
    rw [he]
    exact left_overlooked hr
  | ok found =>
    obtain ⟨head, body⟩ := found
    obtain ⟨hinfo, rfl, hown, hmissed⟩ := hr
    rw [hfound head]
    apply wp_ofExcept.mpr
    unfold LeftIffMissed
    rw [own_lease_decoded hcheck hinfo, httl, hown, hmissed]
    simp

theorem wp_acquire (purpose owner : String) (slot : Slot) :
    wp (ledger a ttl_seconds now) (fun _ _ => True)
      (acquire_coordination_lease a purpose owner ttl_seconds now) LeftIffMissed
      (before slot) := by
  have hbefore : Foreign slot none (before slot) := by
    constructor
    · rfl
    · rfl
    · rfl
    · rfl
    · simp only [Ledger.holdsOwn, before]
      split <;> rfl
  unfold acquire_coordination_lease
  apply wp_label_seq (fun _ => left_foreign hbefore)
  intro hpurpose
  apply wp_label_seq (fun _ => left_foreign hbefore)
  intro howner
  apply wp_check_seq
  · exact fun _ => left_foreign hbefore
  intro httl
  apply wp_seq (wp_foreign_head hbefore)
  · exact fun e t ht => left_foreign ht.1
  intro existing t ht
  obtain ⟨hforeign, hexisting⟩ := ht
  cases hinfo : existing.info with
  | some info =>
    apply wp_seq (wp_foreign reading_lease hforeign)
    · exact fun e u hu => left_foreign hu
    intro current u hu
    split
    · exact left_foreign hu
    · exact left_foreign hu
  | none =>
    obtain rfl := (hexisting existing rfl).mp hinfo
    apply wp_seq (wp_uuid4 hforeign)
    · exact fun e u hu => hu.elim
    intro lease_id u hu
    obtain ⟨hid, hforeign⟩ := hu
    apply wp_seq (wp_create hforeign)
    · exact fun e v hv => hv.elim
    intro original v hv
    rcases hv with hforeign | ⟨etag, modified, hlanded⟩
    · -- Nothing has landed, and the rest only reads.
      apply wp_post (wp_foreign ?_ hforeign)
      · exact fun r w hw => left_foreign hw
      apply calls_bind (calls_attempt reading_stable)
      intro read
      split
      · split <;> trivial
      · trivial
      · split
        · exact calls_ofExcept _
        · apply calls_bind (calls_ofExcept _)
          intro current
          split
          · trivial
          · split
            · split <;> trivial
            · trivial
    · apply wp_judge hlanded (own_document_checked hid howner hpurpose (not_not.mp httl)) rfl
      · intro e
        split
        · split <;> exact ⟨_, rfl⟩
        · next he =>
          cases he
          exact ⟨_, rfl⟩
        · next he => cases he
      · intro head
        simp

/-- However many calls of the store fail: an acquisition that raises leaves no lease of its own
exactly if no look at its lease was missed. -/
theorem acquisition_clean_iff {purpose owner : String} {slot : Slot}
    {r : Except LeaseFailure PitrCoordinationLease}
    (hrun : Ends (ledger a ttl_seconds now) (before slot)
      (acquire_coordination_lease a purpose owner ttl_seconds now) r t) :
    ((∃ e, r = .error e) → t.holdsOwn = false) ↔ t.missed = false := by
  have hleft : LeftIffMissed r t := wp_ends (wp_acquire purpose owner slot) hrun
  unfold LeftIffMissed at hleft
  rw [← Bool.not_eq_true t.missed, ← hleft, not_and, Bool.not_eq_true]

/-- A lease that was left behind keeps everybody out. -/
theorem held_lease_blocks {purpose owner : String} {o : LeaseObject} (hheld : g.slot = some o) :
    wp (ledger a ttl_seconds now) (fun _ _ => True)
      (acquire_coordination_lease a purpose owner ttl_seconds now)
      (fun r t => (∃ e, r = .error e) ∧ t.slot = some o) g := by
  have hreads : ∀ x u r v, Reading x → u.slot = some o → ledger a ttl_seconds now x u r v →
      v.slot = some o := by
    intro x u r v hx hu hw
    obtain ⟨-, slot, hstore, rfl⟩ := hw
    exact (reading_keeps hx hstore).trans hu
  unfold acquire_coordination_lease
  apply wp_label_seq (fun _ => ⟨⟨_, rfl⟩, hheld⟩)
  intro _
  apply wp_label_seq (fun _ => ⟨⟨_, rfl⟩, hheld⟩)
  intro _
  apply wp_check_seq
  · exact fun _ => ⟨⟨_, rfl⟩, hheld⟩
  intro _
  have hlook : wp (ledger a ttl_seconds now) (fun _ _ => True) (coordination_head a now)
      (fun r t => t.slot = some o ∧ ∀ head, r = .ok head → head.info ≠ none) g := by
    apply wp_perform.mpr
    refine ⟨trivial, ?_⟩
    intro r t hw
    refine ⟨hreads .head_object g r t trivial hheld hw, ?_⟩
    intro head hread hnone
    obtain ⟨-, slot, hstore, -⟩ := hw
    rw [sees_absence hstore hread, hheld] at hnone
    cases hnone
  apply wp_seq hlook
  · exact fun _ _ ht => ⟨⟨_, rfl⟩, ht.1⟩
  intro existing t ht
  obtain ⟨hslot, hsome⟩ := ht
  cases hinfo : existing.info with
  | none => exact absurd hinfo (hsome existing rfl)
  | some info =>
    apply wp_seq (wp_keeps (P := fun u => u.slot = some o) reading_lease hslot
      (fun _ _ _ _ => trivial) hreads)
    · exact fun _ _ hu => ⟨⟨_, rfl⟩, hu⟩
    intro current u hu
    split
    · exact ⟨⟨_, rfl⟩, hu⟩
    · exact ⟨⟨_, rfl⟩, hu⟩

/-! ## A lease that nobody holds -/

/-- A server of the key as the ledger sees it. -/
def attend (server : (o : Lease.Op) → Slot → Lease.Reply o × Slot) (o : Lease.Op) (g : Ledger) :
    Lease.Reply o × Ledger :=
  ((server o g.slot).1, note exampleAdapter 3600 none g (server o g.slot).2 o
    (server o g.slot).1)

def exampleAcquisition : LeaseM PitrCoordinationLease :=
  acquire_coordination_lease exampleAdapter "pitr-base" "host-b" 3600 none

theorem attend_ledger {server : (o : Lease.Op) → Slot → Lease.Reply o × Slot}
    (hhex : ∀ o s, IsHex o (server o s).1)
    (hserver : ∀ o s, store exampleAdapter o s (server o s).1 (server o s).2) (o : Lease.Op)
    (g : Ledger) :
    ledger exampleAdapter 3600 none o g (attend server o g).1 (attend server o g).2 :=
  ⟨hhex o g.slot, (server o g.slot).2, hserver o g.slot, rfl⟩

theorem serve_hex (o : Lease.Op) (s : Slot) : IsHex o (serve o s).1 := by
  cases o with
  | uuid4 =>
    change is_lease_id "11111111111111111111111111111111" = true
    decide
  | head_object | get_object | put_object | delete_object => trivial

/-- Every call is answered and the lease is returned. -/
theorem answered_acquisition_clean :
    (exampleAcquisition.run (attend serve) (before none)).1.isOk = true ∧
      ((∃ e, (exampleAcquisition.run (attend serve) (before none)).1 = .error e) →
        (exampleAcquisition.run (attend serve) (before none)).2.holdsOwn = false) :=
  ⟨by decide +kernel,
    (acquisition_clean_iff (ends_run (attend_ledger serve_hex store_serve) exampleAcquisition
      (before none))).mpr (by decide +kernel)⟩

def unavailable : ClientError := ⟨"ServiceUnavailable", some 503, "reduce your request rate"⟩

/-- The first `HEAD` after the create is refused. -/
def serveOverloaded (o : Lease.Op) (s : Slot) : Lease.Reply o × Slot :=
  match o, s with
  | .head_object, some _ => (⟨.error unavailable, .at 0, 0⟩, s)
  | o, s => serve o s

theorem overloaded_store (o : Lease.Op) (s : Slot) :
    store exampleAdapter o s (serveOverloaded o s).1 (serveOverloaded o s).2 := by
  cases o with
  | head_object =>
    cases s with
    | none => exact store_serve .head_object none
    | some o =>
      refine ⟨rfl, ?_, ?_⟩
      · intro response h
        cases h
      · intro exc h hmissing
        cases h
        cases hmissing
  | uuid4 => exact store_serve .uuid4 s
  | get_object => exact store_serve .get_object s
  | put_object condition body digest => exact store_serve (.put_object condition body digest) s
  | delete_object etag => exact store_serve (.delete_object etag) s

theorem overloaded_hex (o : Lease.Op) (s : Slot) : IsHex o (serveOverloaded o s).1 := by
  cases o with
  | uuid4 => exact serve_hex .uuid4 s
  | head_object | get_object | put_object | delete_object => trivial

/-- One call fails, and a lease is left behind that blocks everybody. -/
theorem lease_left_behind : ∃ r t,
    Ends (ledger exampleAdapter 3600 none) (before none) exampleAcquisition r t ∧
      t.failures = 1 ∧ (∃ e, r = .error e) ∧ t.holdsOwn = true := by
  refine ⟨_, _, ends_run (attend_ledger overloaded_hex overloaded_store) exampleAcquisition
    (before none), ?_, ?_, ?_⟩
  · decide +kernel
  · exact ⟨provider_error ("head " ++ exampleAdapter.coordination_lease_key) unavailable, rfl⟩
  · decide +kernel

end LeaseAcquisition
