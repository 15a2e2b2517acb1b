import Odooctl.InterleavedPrograms
import Odooctl.ObjectFilestore

/-!
# The active pointer and the markers it names

Any number of hosts publish and delete markers of one object filestore, one request at a
time and in any order; a host that crashed takes no further step.
-/
namespace ActivePointer

open EffectPrograms InterleavedPrograms FilestoreManifest ObjectFilestore

/-! ## The object store -/

structure Stored where
  body : Body
  sha256 : Option String
  etag : String
  deriving DecidableEq, Repr

/-- `deleted_since` notes for each host the markers deleted since it last read them, and
`pointed_since` the migrations to which the pointer was put since it last read the pointer. -/
structure Shelf (ι : Type) where
  objects : Key → Option Stored
  deleted_since : ι → String → Bool
  pointed_since : ι → String → Bool

variable {ι : Type} {a : ObjectFilestoreAdapter}

/-- The migration that a body names as active. -/
def pointed_id (a : ObjectFilestoreAdapter) (body : Body) : Option String :=
  match read_pointer a body with
  | .ok named => some named.1
  | .error _ => none

def Names (a : ObjectFilestoreAdapter) (s : Shelf ι) (id : String) : Prop :=
  ∃ o, s.objects .active = some o ∧ pointed_id a o.body = some id

def Present (s : Shelf ι) (id : String) : Prop := (s.objects (.migration id)).isSome = true

def accepts (s : Shelf ι) (key : Key) : Condition → Prop
  | .always => True
  | .if_none_match => s.objects key = none
  | .if_match etag => ∃ o, s.objects key = some o ∧ o.etag = etag

section Effects

variable [DecidableEq ι] (s : Shelf ι) (i : ι)

def Shelf.put (a : ObjectFilestoreAdapter) (key : Key) (o : Stored) : Shelf ι where
  objects := Function.update s.objects key (some o)
  deleted_since := s.deleted_since
  pointed_since := fun j id =>
    s.pointed_since j id || decide (key = .active ∧ pointed_id a o.body = some id)

def Shelf.delete (key : Key) : Shelf ι where
  objects := Function.update s.objects key none
  deleted_since := fun j id => s.deleted_since j id || decide (key = .migration id)
  pointed_since := s.pointed_since

/-- The host has read what is under the key. -/
def Shelf.note_read (key : Key) : Shelf ι where
  objects := s.objects
  deleted_since := fun j id =>
    if j = i ∧ key = .migration id then false else s.deleted_since j id
  pointed_since := fun j id => if j = i ∧ key = .active then false else s.pointed_since j id

end Effects

/-- A request may take effect and still report failure. What a read finds is there, and what
is said not to be found is not. -/
def storeWorld [DecidableEq ι] (a : ObjectFilestoreAdapter) (i : ι) : World Store (Shelf ι) :=
  fun o s r t => match (o : StoreCall), r with
  | .head_object key, r => t = s.note_read i key ∧
    (∀ info, r = .ok info → ∃ o, s.objects key = some o ∧ info.key = key ∧
      info.size = a.length o.body ∧ info.sha256 = o.sha256 ∧ info.etag = some o.etag) ∧
    ∀ e, r = .error e → e.not_found = true → s.objects key = none
  | .get_object key, r => t = s.note_read i key ∧
    ∀ body, r = .ok body → ∃ o, s.objects key = some o ∧ body = o.body
  | .put_object key body sha256 condition, r =>
    (accepts s key condition ∧ ∃ etag, t = s.put a key ⟨body, some sha256, etag⟩) ∨
    (∃ e, r = .error e) ∧ t = s
  | .delete_object key, r => t = s.delete key ∨ (∃ e, r = .error e) ∧ t = s

/-- The step meets the condition: the pointer is put to no migration whose marker has been
deleted since the host read it, and no marker is deleted that the pointer, put to it since
the host read the pointer, names. -/
def Met (a : ObjectFilestoreAdapter) (i : ι) (o : StoreCall) (s : Shelf ι) : Prop :=
  match o with
  | .put_object .active body _ condition => accepts s .active condition →
    ∀ id, pointed_id a body = some id → s.deleted_since i id = false
  | .delete_object (.migration id) => s.pointed_since i id = true → ¬ Names a s id
  | _ => True

def timelyWorld [DecidableEq ι] (a : ObjectFilestoreAdapter) (i : ι) : World Store (Shelf ι) :=
  fun o s r t => storeWorld a i o s r t ∧ Met a i o s

/-! ## The hosts -/

inductive Request (a : ObjectFilestoreAdapter) where
  | publish (manifest : Manifest a) (expected_previous_migration_id : Option String)
  | delete (migration_id : String) (confirm_not_active : Bool)

def Request.run : Request a → StoreM Unit
  | .publish manifest expected => do
    let _ ← publish_active manifest expected
    .pure ()
  | .delete id confirm => do
    let _ ← delete_migration_manifest a id confirm
    .pure ()

/-- The requests of one host, one after another, whatever each of them raises. -/
def host : List (Request a) → StoreM Unit
  | [] => .pure ()
  | request :: rest => do
    let _ ← Prog.attempt (ε := StoreFailure) request.run
    host rest

abbrev Hosts (ι : Type) := Pool (fun _ : ι => Store) (fun _ => StoreFailure) (fun _ => Unit)

def hosts (requests : ι → List (Request a)) : Hosts ι := fun i => host (requests i)

/-! ## What each host relies on -/

/-- Every migration that the pointer names has its marker. -/
def Sound (a : ObjectFilestoreAdapter) (s : Shelf ι) : Prop := ∀ id, Names a s id → Present s id

/-- Where no marker of this id was deleted since, one that was there still is; where the pointer
was not put to it since, a pointer that did not name it still does not. -/
structure Around (a : ObjectFilestoreAdapter) (i : ι) (s t : Shelf ι) : Prop where
  marker : ∀ id, t.deleted_since i id = false →
    s.deleted_since i id = false ∧ (Present s id → Present t id)
  pointer : ∀ id, t.pointed_since i id = false →
    s.pointed_since i id = false ∧ (¬ Names a s id → ¬ Names a t id)

/-- The host has seen the marker; it is there unless it was deleted since. -/
def Seen (i : ι) (id : String) (s : Shelf ι) : Prop := s.deleted_since i id = false → Present s id

/-- The host has seen a pointer to something else. -/
def Apart (a : ObjectFilestoreAdapter) (i : ι) (id : String) (s : Shelf ι) : Prop :=
  s.pointed_since i id = false → ¬ Names a s id

def hostGuard (a : ObjectFilestoreAdapter) (i : ι) (o : StoreCall) (s : Shelf ι) : Prop :=
  match o with
  | .put_object .active body _ _ => ∀ id, pointed_id a body = some id → Seen i id s
  | .delete_object (.migration id) => Apart a i id s
  | .put_object _ _ _ _ | .delete_object _ => False
  | _ => True

variable {i j : ι} {s t u : Shelf ι} {id : String}

theorem Around.refl (a : ObjectFilestoreAdapter) (i : ι) (s : Shelf ι) : Around a i s s :=
  ⟨fun _ h => ⟨h, fun k => k⟩, fun _ h => ⟨h, fun k => k⟩⟩

theorem Around.trans (h : Around a i s t) (k : Around a i t u) : Around a i s u := by
  constructor
  · intro id hu
    obtain ⟨ht, hkept⟩ := k.marker id hu
    obtain ⟨hs, hkept'⟩ := h.marker id ht
    exact ⟨hs, fun hpresent => hkept (hkept' hpresent)⟩
  · intro id hu
    obtain ⟨ht, hkept⟩ := k.pointer id hu
    obtain ⟨hs, hkept'⟩ := h.pointer id ht
    exact ⟨hs, fun hnot => hkept (hkept' hnot)⟩

theorem Seen.around (h : Seen i id s) (hr : Around a i s t) : Seen i id t := by
  intro ht
  obtain ⟨hs, hkept⟩ := hr.marker id ht
  exact hkept (h hs)

theorem Apart.around (h : Apart a i id s) (hr : Around a i s t) : Apart a i id t := by
  intro ht
  obtain ⟨hs, hkept⟩ := hr.pointer id ht
  exact hkept (h hs)

def contract (a : ObjectFilestoreAdapter) : Contract (fun _ : ι => Store) (Shelf ι) where
  invariant := Sound a
  rely := Around a
  guard := hostGuard a
  rely_refl := Around.refl a
  rely_trans := fun _ _ _ _ => Around.trans

/-! ## One step -/

/-- The marker of what the pointer is put to is there. -/
theorem put_honours {o : Stored}
    (hpresent : ∀ id, pointed_id a o.body = some id → Present s id) :
    Sound a (s.put a .active o) ∧ ∀ j, Around a j s (s.put a .active o) := by
  constructor
  · intro id ⟨o', ho', hid⟩
    obtain rfl : o = o' := by simpa [Shelf.put] using ho'
    simpa [Present, Shelf.put] using hpresent id hid
  · intro j
    constructor
    · intro id ht
      exact ⟨ht, fun h => by simpa [Present, Shelf.put] using h⟩
    · intro id ht
      simp only [Shelf.put, Bool.or_eq_false_iff, true_and, decide_eq_false_iff_not] at ht
      refine ⟨ht.1, ?_⟩
      intro _ ⟨o', ho', hid⟩
      obtain rfl : o = o' := by simpa [Shelf.put] using ho'
      exact ht.2 hid

theorem delete_honours (hs : Sound a s) (hnot : ¬ Names a s id) :
    Sound a (s.delete (.migration id)) ∧ ∀ j, Around a j s (s.delete (.migration id)) := by
  have hnames : ∀ other, Names a (s.delete (.migration id)) other ↔ Names a s other := by
    intro other
    simp [Names, Shelf.delete]
  have hkept : ∀ other, other ≠ id → Present s other → Present (s.delete (.migration id)) other := by
    intro other hne h
    simpa [Present, Shelf.delete, hne] using h
  constructor
  · intro other h
    have hnamed := (hnames other).mp h
    by_cases hid : other = id
    · subst hid
      exact absurd hnamed hnot
    · exact hkept other hid (hs other hnamed)
  · intro j
    constructor
    · intro other ht
      simp only [Shelf.delete, Bool.or_eq_false_iff, Key.migration.injEq,
        decide_eq_false_iff_not] at ht
      exact ⟨ht.1, hkept other fun h => ht.2 h.symm⟩
    · intro other ht
      exact ⟨ht, fun h => fun k => h ((hnames other).mp k)⟩

section Step

variable [DecidableEq ι]

theorem note_read_honours {key : Key} (hs : Sound a s) :
    Sound a (s.note_read i key) ∧ ∀ j, j ≠ i → Around a j s (s.note_read i key) := by
  refine ⟨hs, ?_⟩
  intro j hj
  constructor
  · intro id ht
    exact ⟨by simpa [Shelf.note_read, hj] using ht, fun h => h⟩
  · intro id ht
    exact ⟨by simpa [Shelf.note_read, hj] using ht, fun h => h⟩

theorem hosts_honour : (contract a).Honoured (timelyWorld (ι := ι) a) := by
  intro i o s r t hs hg ⟨hw, hmet⟩
  change StoreCall at o
  cases o with
  | head_object key =>
    obtain ⟨rfl, -⟩ := hw
    exact note_read_honours hs
  | get_object key =>
    obtain ⟨rfl, -⟩ := hw
    exact note_read_honours hs
  | put_object key body sha256 condition =>
    rcases hw with ⟨haccepts, etag, rfl⟩ | ⟨-, rfl⟩
    · cases key with
      | active =>
        obtain ⟨ht, haround⟩ := put_honours (o := ⟨body, some sha256, etag⟩)
          fun id hid => hg id hid (hmet haccepts id hid)
        exact ⟨ht, fun j _ => haround j⟩
      | migration id => exact hg.elim
      | object digest => exact hg.elim
    · exact ⟨hs, fun j _ => Around.refl a j _⟩
  | delete_object key =>
    rcases hw with rfl | ⟨-, rfl⟩
    · cases key with
      | migration id =>
        have hnot : ¬ Names a s id := by
          by_cases hpointed : s.pointed_since i id = true
          · exact hmet hpointed
          · exact hg (by simpa using hpointed)
        obtain ⟨ht, haround⟩ := delete_honours hs hnot
        exact ⟨ht, fun j _ => haround j⟩
      | active => exact hg.elim
      | object digest => exact hg.elim
    · exact ⟨hs, fun j _ => Around.refl a j _⟩

end Step

/-! ## Reading -/

/-- A read of the pointer or of an object. -/
def ReadsNoMarker (o : StoreCall) : Prop :=
  match o with
  | .head_object key | .get_object key => ∀ id, key ≠ .migration id
  | _ => False

section Calls

variable {D : StoreCall → Prop} {α : Type}

theorem calls_refuse_if {c : Prop} [Decidable c] {e : StoreFailure} :
    (refuse_if c e).Calls D :=
  calls_ite (calls_raise _) (calls_pure _)

theorem calls_scoped_key {k : Key} : (scoped_key a k).Calls D :=
  calls_ite (calls_raise _) (calls_pure _)

theorem calls_read_verified_object {k : Key} {expected : Option String} {most : Option ℕ}
    (hhead : D (.head_object k)) (hget : D (.get_object k)) :
    (read_verified_object a k expected most).Calls D := by
  apply calls_bind
  · apply calls_bind (calls_perform.mpr hhead)
    intro info
    exact calls_bind calls_refuse_if fun _ => calls_bind calls_refuse_if fun _ => calls_pure _
  · intro info
    apply calls_bind calls_refuse_if
    intro _
    apply calls_bind (calls_perform.mpr hget)
    intro body
    exact calls_bind calls_refuse_if fun _ => calls_bind calls_refuse_if fun _ => calls_pure _

theorem calls_read_active : (read_active a).Calls ReadsNoMarker := by
  apply calls_bind (calls_mapError calls_scoped_key)
  intro _
  apply calls_bind (calls_perform.mpr fun _ => nofun)
  intro found
  apply calls_ite (calls_pure _)
  apply calls_bind (calls_read_verified_object (fun _ => nofun) (fun _ => nofun))
  intro read
  apply calls_bind (calls_ofExcept _)
  intro (id, inventory)
  cases read.1.etag with
  | none => exact calls_raise _
  | some etag => exact calls_bind calls_refuse_if fun _ => calls_pure _

theorem calls_object_key {value : String} {f : Key → StoreM α}
    (h : ∀ d, (f (.object d)).Calls D) : (object_key a value >>= f).Calls D := by
  simp only [object_key, Prog.bind_eq]
  cases digest value with
  | error e => exact calls_raise _
  | ok d =>
    by_cases hlong : 1024 < (a.key (.object d)).utf8ByteSize
    · simp only [Prog.ofExcept, Prog.bind, scoped_key, if_pos hlong]
      exact calls_raise _
    · simp only [Prog.ofExcept, Prog.bind, scoped_key, if_neg hlong]
      exact h d

theorem calls_verify_entries (entries : List FilestoreObjectEntry) :
    (verify_entries a entries).Calls ReadsNoMarker := by
  induction entries with
  | nil => exact calls_pure _
  | cons entry entries ih =>
    apply calls_object_key
    intro d
    apply calls_bind
    · exact calls_bind (calls_read_verified_object (fun _ => nofun) (fun _ => nofun))
        fun _ => calls_pure _
    · intro info
      exact calls_bind calls_refuse_if fun _ => ih

theorem calls_confirm_active {manifest : Manifest a} {put : Except StoreException Unit} :
    (confirm_active manifest put).Calls ReadsNoMarker := by
  apply calls_bind (calls_mapError calls_read_active)
  intro published
  cases published with
  | none => cases put <;> exact calls_raise _
  | some generation =>
    apply calls_ite (calls_pure _)
    cases put <;> exact calls_raise _

end Calls

/-! ## One host -/

theorem reads_guarded {o : StoreCall} (h : ReadsNoMarker o) (s : Shelf ι) : hostGuard a i o s := by
  cases o with
  | head_object key => trivial
  | get_object key => trivial
  | put_object key body sha256 condition => exact h.elim
  | delete_object key => exact h.elim

theorem migration_id_ok {value : String} (h : migration_id value = .ok id) : value = id := by
  unfold migration_id at h
  split at h
  · exact Except.ok.inj h
  · cases h

/-- The pointer is put to the manifest that was verified. -/
theorem pointer_names {manifest : Manifest a} (h : pointed_id a (pointer_to manifest) = some id) :
    id = manifest.migration_id := by
  have hread : read_pointer a (pointer_to manifest) = (if _ then .error _ else do
    let id ← migration_id manifest.migration_id
    let inventory ← digest manifest.inventory_sha256
    return (id, inventory)) := rfl
  rw [pointed_id, hread] at h
  split at h
  next named hok =>
    split at hok
    · cases hok
    · cases hid : migration_id manifest.migration_id with
      | error e =>
        rw [hid] at hok
        cases hok
      | ok safe_id =>
        cases hdigest : digest manifest.inventory_sha256 with
        | error e =>
          rw [hid, hdigest] at hok
          cases hok
        | ok inventory =>
          rw [hid, hdigest] at hok
          obtain rfl := Except.ok.inj hok
          exact (Option.some.inj h).symm.trans (migration_id_ok hid).symm
  · cases h

section Host

variable [DecidableEq ι]

/-- What is returned was there when the host read it. -/
def WasRead (a : ObjectFilestoreAdapter) (i : ι) (key : Key) (body : Body) (t : Shelf ι) : Prop :=
  ∃ (u : Shelf ι) (o : Stored), u.objects key = some o ∧ o.body = body ∧ Around a i (u.note_read i key) t

abbrev Runs {α : Type} (a : ObjectFilestoreAdapter) (i : ι) (p : StoreM α)
    (Q : Except StoreFailure α → Shelf ι → Prop) (s : Shelf ι) : Prop :=
  wp ((contract a).around (timelyWorld a) i) (hostGuard a i) p Q s

theorem runs_refuse_if {α : Type} {c : Prop} [Decidable c] {e : StoreFailure} {f : Unit → StoreM α}
    {Q : Except StoreFailure α → Shelf ι → Prop} (herr : c → Q (.error e) s)
    (hok : ¬ c → Runs a i (f ()) Q s) : Runs a i (refuse_if c e >>= f) Q s := by
  by_cases hc : c
  · simp only [refuse_if, if_pos hc]
    exact herr hc
  · simp only [refuse_if, if_neg hc]
    exact hok hc

/-- Reading anything but markers leaves what is known of a marker. -/
theorem seen_kept {α : Type} {p : StoreM α} (hp : p.Calls ReadsNoMarker) (hs : Seen i id s) :
    Runs a i p (fun _ t => Seen i id t) s := by
  apply wp_keeps hp hs
  · intro o u ho _
    exact reads_guarded ho u
  · intro o u r t ho hu ⟨v, ⟨hw, _⟩, hrely, _⟩
    have hnoted : ∀ key, (∀ other, key ≠ .migration other) → v = u.note_read i key → Seen i id v := by
      intro key hkey hv hflag
      subst hv
      exact hu (by simpa [Shelf.note_read, hkey id] using hflag)
    apply Seen.around _ hrely
    cases o with
    | head_object key => exact hnoted key ho hw.1
    | get_object key => exact hnoted key ho hw.1
    | put_object key body sha256 condition => exact ho.elim
    | delete_object key => exact ho.elim

theorem runs_read_verified_object {key : Key} {expected : Option String} {most : Option ℕ} :
    Runs a i (read_verified_object a key expected most)
      (fun r t => ∀ read, r = .ok read → WasRead a i key read.2 t) s := by
  apply wp_bind'.mpr
  apply wp_bind'.mpr
  refine wp_perform.mpr ⟨trivial, ?_⟩
  intro r t _
  cases r with
  | error e => exact fun _ h => nomatch h
  | ok info =>
    apply runs_refuse_if (fun _ _ h => nomatch h)
    intro _
    apply runs_refuse_if (fun _ _ h => nomatch h)
    intro _
    apply runs_refuse_if (fun _ _ h => nomatch h)
    intro _
    apply wp_bind'.mpr
    refine wp_perform.mpr ⟨trivial, ?_⟩
    intro r v ⟨w, ⟨⟨hw, hfound⟩, _⟩, hrely, _⟩
    cases r with
    | error e => exact fun _ h => nomatch h
    | ok body =>
      apply runs_refuse_if (fun _ _ h => nomatch h)
      intro _
      apply runs_refuse_if (fun _ _ h => nomatch h)
      intro _ read hread
      obtain rfl := Except.ok.inj hread
      obtain ⟨o, ho, hbody⟩ := hfound body rfl
      subst hw
      exact ⟨t, o, ho, hbody.symm, hrely⟩

theorem WasRead.seen {body : Body} (h : WasRead a i (.migration id) body t) : Seen i id t := by
  obtain ⟨u, o, ho, -, hrely⟩ := h
  have hu : Seen i id (u.note_read i (.migration id)) := by
    intro _
    simp [Present, Shelf.note_read, ho]
  exact hu.around hrely

theorem WasRead.apart {body : Body} (h : WasRead a i .active body t)
    (hne : pointed_id a body ≠ some id) : Apart a i id t := by
  obtain ⟨u, o, ho, hbody, hrely⟩ := h
  have hu : Apart a i id (u.note_read i .active) := by
    intro _ ⟨o', ho', hid⟩
    obtain rfl : o = o' := Option.some.inj (ho.symm.trans ho')
    rw [hbody] at hid
    exact hne hid
  exact hu.around hrely

/-- The marker that a verified inventory needs has been read. -/
theorem runs_verify_inventory {manifest : Manifest a} :
    Runs a i (verify_inventory manifest)
      (fun r t => ∀ v, r = .ok v → Seen i manifest.migration_id t) s := by
  apply runs_refuse_if (fun _ _ h => nomatch h)
  intro _
  simp only [migration_manifest_key, migration_id]
  by_cases hid : PitrRestoreRecord.matchesComponent manifest.migration_id.toList
  · rw [if_pos hid]
    by_cases hlong : 1024 < (a.key (.migration manifest.migration_id)).utf8ByteSize
    · simp only [scoped_key, Prog.ofExcept, Prog.bind_eq, Prog.bind, if_pos hlong]
      exact fun _ h => nomatch h
    · simp only [scoped_key, Prog.ofExcept, Prog.bind_eq, Prog.bind, if_neg hlong]
      apply wp_bind.mpr
      apply wp_post runs_read_verified_object
      intro r t hr
      cases r with
      | error e => exact fun _ h => nomatch h
      | ok read =>
        have hseen := (hr read rfl).seen
        apply runs_refuse_if (fun _ _ h => nomatch h)
        intro _
        apply wp_bind.mpr
        apply wp_post (seen_kept (calls_verify_entries _) hseen)
        intro r u hu
        cases r with
        | error e => exact fun _ h => nomatch h
        | ok done => exact fun _ _ => hu
  · rw [if_neg hid]
    exact fun _ h => nomatch h

/-- The pointer names nothing but what is returned, unless it was put since. -/
theorem runs_read_active : Runs a i (read_active a) (fun r t => ∀ current, r = .ok current →
    ∀ id, current.map ActiveFilestoreGeneration.migration_id ≠ some id → Apart a i id t) s := by
  by_cases hlong : 1024 < (a.key .active).utf8ByteSize
  · simp only [read_active, scoped_key, if_pos hlong]
    exact fun _ h => by cases h
  simp only [read_active, scoped_key, if_neg hlong]
  apply wp_bind'.mpr
  apply wp_bind'.mpr
  refine wp_perform.mpr ⟨trivial, ?_⟩
  rintro r t ⟨u, ⟨⟨hu, -, habsent⟩, -⟩, hrely, -⟩
  cases r with
  | error e =>
    by_cases hmissing : e.not_found = true
    · simp only [if_pos hmissing, if_true]
      intro current hcurrent id _
      have hnone : Apart a i id u := by
        subst hu
        rintro _ ⟨o, ho, -⟩
        rw [Shelf.note_read, habsent e rfl hmissing] at ho
        cases ho
      exact hnone.around hrely
    · simp only [if_neg hmissing]
      exact fun _ h => by cases h
  | ok info =>
    apply wp_bind'.mpr
    apply wp_post runs_read_verified_object
    intro r v hr
    cases r with
    | error e => exact fun _ h => by cases h
    | ok read =>
      have hread := hr read rfl
      apply wp_bind'.mpr
      apply wp_ofExcept.mpr
      cases hpointer : read_pointer a read.2 with
      | error e => exact fun _ h => by cases h
      | ok named =>
        have hid : pointed_id a read.2 = some named.1 := by
          rw [pointed_id, hpointer]
        dsimp only
        cases read.1.etag with
        | none => exact fun _ h => by cases h
        | some etag =>
          apply runs_refuse_if (fun _ _ h => by cases h)
          intro _ current hcurrent id hne
          obtain rfl := Except.ok.inj hcurrent
          apply hread.apart
          rw [hid]
          exact hne

theorem runs_publish_active {manifest : Manifest a} {expected : Option String} :
    Runs a i (publish_active manifest expected) (fun _ _ => True) s := by
  apply runs_refuse_if (fun _ => trivial)
  intro _
  apply wp_bind'.mpr
  apply wp_post runs_verify_inventory
  intro r t hr
  cases r with
  | error e => trivial
  | ok v =>
    have hseen := hr v rfl
    apply wp_bind'.mpr
    apply wp_post (seen_kept calls_read_active hseen)
    intro r u hu
    cases r with
    | error e => trivial
    | ok current =>
      dsimp only
      cases current.filter (names manifest) with
      | some generation => trivial
      | none =>
        apply runs_refuse_if (fun _ => trivial)
        intro _
        apply wp_bind'.mpr
        refine wp_perform.mpr ⟨?_, ?_⟩
        · intro id hid
          rw [pointer_names hid]
          exact hu
        · intro r v _
          apply wp_of_calls calls_confirm_active
          intro o w ho
          exact reads_guarded ho w

theorem runs_delete_migration_manifest {confirm : Bool} :
    Runs a i (delete_migration_manifest a id confirm) (fun _ _ => True) s := by
  apply runs_refuse_if (fun _ => trivial)
  intro _
  apply wp_bind'.mpr
  apply wp_post runs_read_active
  intro r t hr
  cases r with
  | error e => trivial
  | ok active =>
    apply wp_bind'.mpr
    apply wp_ofExcept.mpr
    cases hsafe : migration_id id with
    | error e => trivial
    | ok safe_id =>
      obtain rfl := migration_id_ok hsafe
      apply runs_refuse_if (fun _ => trivial)
      intro hinactive
      have hapart : Apart a i id t := hr active rfl id hinactive
      simp only [migration_manifest_key, hsafe]
      by_cases hlong : 1024 < (a.key (.migration id)).utf8ByteSize
      · simp only [scoped_key, Prog.ofExcept, Prog.bind_eq, Prog.bind, if_pos hlong]
        trivial
      · simp only [scoped_key, Prog.ofExcept, Prog.bind_eq, Prog.bind, if_neg hlong]
        apply wp_bind.mpr
        refine wp_perform.mpr ⟨hapart, ?_⟩
        intro r u _
        cases r with
        | error e => trivial
        | ok done => trivial

theorem runs_host (requests : List (Request a)) : ∀ s,
    Runs a i (host requests) (fun _ _ => True) s := by
  induction requests with
  | nil =>
    intro s
    trivial
  | cons request rest ih =>
    intro s
    have hrequest : Runs a i request.run (fun _ _ => True) s := by
      cases request with
      | publish manifest expected =>
        apply wp_bind'.mpr
        apply wp_post runs_publish_active
        intro r t _
        cases r with
        | error e => trivial
        | ok generation => trivial
      | delete id confirm =>
        apply wp_bind'.mpr
        apply wp_post runs_delete_migration_manifest
        intro r t _
        cases r with
        | error e => trivial
        | ok key => trivial
    apply wp_bind'.mpr
    apply wp_attempt.mpr
    exact wp_post hrequest fun _ t _ => ih t

/-- In every interleaving whose steps meet the condition, the marker of the migration that the
pointer names exists. -/
theorem pointer_never_dangles (a : ObjectFilestoreAdapter) (requests : ι → List (Request a))
    (s t : Shelf ι) (qs : Hosts ι) (hs : Sound a s)
    (h : Interleaved (timelyWorld a) s (hosts requests) t qs) :
    ∀ id, Names a t id → Present t id := by
  have hholds : (contract a).Holds (timelyWorld a) (fun _ _ _ => True) s (hosts requests) :=
    ⟨hs, fun i t _ _ => runs_host (requests i) t⟩
  exact (hholds.run hosts_honour h).invariant

end Host

/-! ## A deletion around a publication -/

/-- Every document has a digest of its own kind. -/
def exampleHash : Body → String
  | .inventory _ => String.ofList (List.replicate 64 '1')
  | .manifest _ => String.ofList (List.replicate 64 '2')
  | .pointer _ => String.ofList (List.replicate 64 '3')
  | .content _ => String.ofList (List.replicate 64 '4')

def exampleAdapter : ObjectFilestoreAdapter where
  project := "acme"
  environment := "prod"
  bucket := "files"
  scope := "acme/prod"
  sha256 := exampleHash
  document_length := fun _ => 200
  json_loads := fun _ => none

def exampleFields : MigrationFields where
  migration_id := "m1"
  project := "acme"
  environment := "prod"
  source_backend := .local_
  target_backend := .object_mirror
  source_location := "/srv/filestore"
  target_location := "s3://files/acme/prod/migrations/m1/manifest.json"
  entries := []
  inventory_sha256 := exampleHash (.inventory [])
  total_size := 0
  created_at := 0

theorem exampleFields_valid : exampleFields.faults exampleHash = [] := by decide +kernel

def exampleManifest : Manifest exampleAdapter := ⟨exampleFields, exampleFields_valid⟩

/-- The marker of the migration is there and nothing is active. -/
def uploaded : Shelf Bool where
  objects := fun key => if key = .migration "m1" then
    some ⟨.manifest exampleFields.document, some (exampleHash (.manifest exampleFields.document)), "e0"⟩
    else none
  deleted_since := fun _ _ => false
  pointed_since := fun _ _ => false

def examplePointer : Stored :=
  ⟨pointer_to exampleManifest, some (exampleHash (pointer_to exampleManifest)), "e1"⟩

theorem examplePointer_names : pointed_id exampleAdapter examplePointer.body = some "m1" := by
  decide +kernel

def refused : StoreException := ⟨false, "PreconditionFailed"⟩

/-- A store that answers at once, and rejects deletions where told to. -/
def serveStore (deletes : Bool) (i : Bool) (o : StoreCall) (s : Shelf Bool) :
    Except StoreException o.Answer × Shelf Bool :=
  match o with
  | .head_object key =>
    (match s.objects key with
      | some o => .ok ⟨key, exampleAdapter.length o.body, o.sha256, some o.etag⟩
      | none => .error ⟨true, "Not Found"⟩, s.note_read i key)
  | .get_object key =>
    (match s.objects key with
      | some o => .ok o.body
      | none => .error ⟨true, "Not Found"⟩, s.note_read i key)
  | .put_object key body sha256 .if_none_match =>
    match s.objects key with
    | none => (.ok (), s.put exampleAdapter key ⟨body, some sha256, "e1"⟩)
    | some _ => (.error refused, s)
  | .put_object _ _ _ _ => (.error refused, s)
  | .delete_object key => if deletes then (.ok (), s.delete key) else (.error refused, s)

theorem storeWorld_serve (deletes i : Bool) (o : StoreCall) (s : Shelf Bool) :
    storeWorld exampleAdapter i o s (serveStore deletes i o s).1 (serveStore deletes i o s).2 := by
  cases o with
  | head_object key =>
    refine ⟨rfl, ?_, ?_⟩
    · intro info h
      cases hobject : s.objects key with
      | none =>
        simp only [serveStore, hobject] at h
        cases h
      | some o =>
        simp only [serveStore, hobject] at h
        obtain rfl := Except.ok.inj h
        exact ⟨o, rfl, rfl, rfl, rfl, rfl⟩
    · intro e h _
      cases hobject : s.objects key with
      | none => rfl
      | some o =>
        simp only [serveStore, hobject] at h
        cases h
  | get_object key =>
    refine ⟨rfl, ?_⟩
    intro body h
    cases hobject : s.objects key with
    | none =>
      simp only [serveStore, hobject] at h
      cases h
    | some o =>
      simp only [serveStore, hobject] at h
      obtain rfl := Except.ok.inj h
      exact ⟨o, rfl, rfl⟩
  | put_object key body sha256 condition =>
    cases condition with
    | always => exact .inr ⟨⟨_, rfl⟩, rfl⟩
    | if_match etag => exact .inr ⟨⟨_, rfl⟩, rfl⟩
    | if_none_match =>
      cases hobject : s.objects key with
      | none =>
        simp only [serveStore, hobject]
        exact .inl ⟨hobject, "e1", rfl⟩
      | some o =>
        simp only [serveStore, hobject]
        exact .inr ⟨⟨_, rfl⟩, rfl⟩
  | delete_object key =>
    cases deletes with
    | true => exact .inl rfl
    | false => exact .inr ⟨⟨_, rfl⟩, rfl⟩

/-- `true` publishes what `false` deletes. -/
def requests : Bool → List (Request exampleAdapter)
  | true => [.publish exampleManifest none]
  | false => [.delete "m1" true]

/-- The deleting host has found no active pointer. -/
def foundInactive : StoreM Unit × Shelf Bool :=
  (host (requests false)).play (fun (_ : Unit) => serveStore true false) [()] uploaded

def published : Except StoreFailure Unit × Shelf Bool :=
  (host (requests true)).run (serveStore true true) foundInactive.2

def deletedAfterwards : Except StoreFailure Unit × Shelf Bool :=
  foundInactive.1.run (serveStore true false) published.2

/-- The deletion returns, and the pointer names a migration without a marker. -/
theorem pointer_dangles : Sound exampleAdapter uploaded ∧ ∃ qs : Hosts Bool,
    Interleaved (storeWorld exampleAdapter) uploaded (hosts requests) deletedAfterwards.2 qs ∧
    Names exampleAdapter deletedAfterwards.2 "m1" ∧ ¬ Present deletedAfterwards.2 "m1" := by
  have hfound := Interleaved.run (W := storeWorld exampleAdapter) (p := hosts requests) false
    (steps_play (fun (_ : Unit) => storeWorld_serve true false) [()] (host (requests false)) uploaded)
  have hpublished := Interleaved.run (W := storeWorld exampleAdapter)
    (p := Function.update (hosts requests) false foundInactive.1) true
    (ends_run (storeWorld_serve true true) (host (requests true)) foundInactive.2)
  have hdeleted := Interleaved.run (W := storeWorld exampleAdapter)
    (p := Function.update (Function.update (hosts requests) false foundInactive.1) true
      (.ofExcept published.1)) false
    (ends_run (storeWorld_serve true false) foundInactive.1 published.2)
  refine ⟨?_, _, (hfound.trans hpublished).trans hdeleted, ⟨examplePointer, ?_, examplePointer_names⟩, ?_⟩
  · intro id ⟨o, ho, _⟩
    cases ho
  · decide +kernel
  · rw [Present]
    decide +kernel

def activated : Shelf Bool := uploaded.put exampleAdapter .active examplePointer

/-- The deletion reads the pointer and is refused. -/
def refusedDeletion : StoreM Unit × Shelf Bool :=
  (host (requests false)).play (fun (_ : Unit) => serveStore true false) [(), (), ()] activated

theorem refused_steps : Steps (timelyWorld exampleAdapter false) activated (host (requests false))
    refusedDeletion.2 refusedDeletion.1 :=
  .call ⟨storeWorld_serve true false (.head_object .active) _, trivial⟩
    (.call ⟨storeWorld_serve true false (.head_object .active) _, trivial⟩
      (.call ⟨storeWorld_serve true false (.get_object .active) _, trivial⟩ (.refl _ _)))

theorem pointer_never_dangles_refused : Present refusedDeletion.2 "m1" := by
  have hrun := Interleaved.run (W := timelyWorld exampleAdapter) (p := hosts requests) false
    refused_steps
  have hsound : Sound exampleAdapter activated := by
    intro id ⟨o, ho, hid⟩
    obtain rfl : examplePointer = o := Option.some.inj ho
    obtain rfl : "m1" = id := Option.some.inj (examplePointer_names.symm.trans hid)
    rfl
  exact pointer_never_dangles exampleAdapter requests activated _ _ hsound hrun "m1"
    ⟨examplePointer, rfl, examplePointer_names⟩

end ActivePointer
