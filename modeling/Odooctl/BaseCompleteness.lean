import Odooctl.BaseBackups
import Odooctl.ImmutableObjects

/-!
# Advertised bases are complete

One upload for each base id, and any number of deletions of bases whose marker was listed,
take their requests in any order and may stop anywhere. A marker is put once, over a
complete payload, and nothing of a payload is deleted before its marker is gone for good.
-/
namespace BaseCompleteness

open EffectPrograms InterleavedPrograms PythonJson S3Objects ImmutableObjects BaseBackups

inductive Role where
  | upload (id : String) (dir : LocalBase)
  | retire (id : String) (renewing : Bool)

def Role.run (v : Values) (a : WalS3Adapter) : Role → S3M Unit
  | .upload id dir => do
    let _ ← upload_base_backup v a id dir
    .pure ()
  | .retire id renewing => do
    let _ ← BaseBackups.retire a id renewing
    .pure ()

/-- The artifact is stored with the recorded checksum and size. -/
def Match (a : WalS3Adapter) (id : String) (e : ArtifactExpectation) (s : Bucket) : Prop :=
  ∃ o, s.objects (.base id e.path) = some o ∧ a.sha256 o.body = e.sha256 ∧
    ∀ size ∈ e.size, o.body.length = size

/-- The bytes are a manifest of the base whose artifacts are all stored. -/
def Described (v : Values) (a : WalS3Adapter) (id : String) (source : Bytes) (s : Bucket) : Prop :=
  ∃ m, parse_base_manifest v a source id = .ok m ∧ ∀ e ∈ m.artifacts, Match a id e s

def Complete (v : Values) (a : WalS3Adapter) (s : Bucket) : Prop :=
  ∀ id o, s.objects (marker id) = some o → Described v a id o.body s

/-- The marker has been stored at some time. -/
def Seen (id : String) (s : Bucket) : Prop := ∃ x, s.ever (marker id) x

variable {v : Values} {a : WalS3Adapter} {s t u : Bucket} {id other : String} {α : Type}
  {ι : Type}

/-! ## The contract -/

structure Sound (v : Values) (a : WalS3Adapter) (s : Bucket) : Prop where
  complete : Complete v a s
  noted : ∀ k o, s.objects k = some o → s.ever k o.body

/-- A marker that was deleted stays away; until the marker of an upload is stored, nobody
else touches its base. -/
structure Leaves (role : Role) (s t : Bucket) : Prop where
  ever : ∀ k x, s.ever k x → t.ever k x
  gone : ∀ id, Seen id s → s.objects (marker id) = none → t.objects (marker id) = none
  unseen : ∀ id dir, role = .upload id dir → Seen id t → Seen id s
  untouched : ∀ id dir, role = .upload id dir → ¬ Seen id s →
    ∀ path, t.objects (.base id path) = s.objects (.base id path)

theorem Leaves.refl (role : Role) (s : Bucket) : Leaves role s s :=
  ⟨fun _ _ h => h, fun _ _ h => h, fun _ _ _ h => h, fun _ _ _ _ _ => rfl⟩

theorem Seen.mono (h : ∀ k x, s.ever k x → t.ever k x) (hs : Seen id s) : Seen id t := by
  obtain ⟨x, hx⟩ := hs
  exact ⟨x, h _ _ hx⟩

theorem Leaves.trans {role : Role} (h : Leaves role s t) (k : Leaves role t u) :
    Leaves role s u := by
  constructor
  · exact fun key x hx => k.ever key x (h.ever key x hx)
  · exact fun id hseen hnone => k.gone id (hseen.mono h.ever) (h.gone id hseen hnone)
  · exact fun id dir hrole hseen => h.unseen id dir hrole (k.unseen id dir hrole hseen)
  · intro id dir hrole hunseen path
    have hunseen' : ¬ Seen id t := fun hs => hunseen (h.unseen id dir hrole hs)
    exact (k.untouched id dir hrole hunseen' path).trans (h.untouched id dir hrole hunseen path)

/-- An upload puts into its base while the marker has never been stored, the marker itself
over a complete payload. A payload is deleted when its marker is gone. -/
def Permitted (v : Values) (a : WalS3Adapter) (role : Role) (o : S3.Op) (s : Bucket) : Prop :=
  match (o : S3Call) with
  | .put_object key body _ => ∃ id dir path, role = .upload id dir ∧ key = .base id path ∧
      ¬ Seen id s ∧ (path = BASE_COMPLETION_MARKER → Described v a id body s)
  | .delete_object key => ∃ id path, key = .base id path ∧ Seen id s ∧
      (path ≠ BASE_COMPLETION_MARKER → s.objects (marker id) = none)
  | _ => True

def contract (v : Values) (a : WalS3Adapter) (role : ι → Role) :
    Contract (fun _ : ι => S3) Bucket where
  invariant := Sound v a
  rely := fun i => Leaves (role i)
  guard := fun i => Permitted v a (role i)
  rely_refl := fun i => .refl (role i)
  rely_trans := fun _ _ _ _ => .trans

/-- At most one upload of a base id. -/
def Once (role : ι → Role) : Prop :=
  ∀ i j id dir dir', role i = .upload id dir → role j = .upload id dir' → i = j

theorem match_of_unchanged {e : ArtifactExpectation} (h : Match a id e s)
    (hsame : ∀ o, s.objects (.base id e.path) = some o → t.objects (.base id e.path) = some o) :
    Match a id e t := by
  obtain ⟨o, ho, hrest⟩ := h
  exact ⟨o, hsame o ho, hrest⟩

theorem described_of_unchanged {source : Bytes} (h : Described v a id source s)
    (hsame : ∀ path o, s.objects (.base id path) = some o → t.objects (.base id path) = some o) :
    Described v a id source t := by
  obtain ⟨m, hm, hall⟩ := h
  exact ⟨m, hm, fun e he => match_of_unchanged (hall e he) (hsame e.path)⟩

theorem sound_put {key : Key} {o : Stored} (h : Sound v a s) (habsent : s.objects key = none)
    (hmarker : ∀ id, key = marker id → Described v a id o.body s) : Sound v a (s.put key o) := by
  have hkept : ∀ k x, s.objects k = some x → (s.put key o).objects k = some x := by
    intro k x hx
    have hne : k ≠ key := by
      rintro rfl
      rw [habsent] at hx
      cases hx
    simpa [Bucket.put, Function.update_of_ne hne] using hx
  constructor
  · intro id x hx
    by_cases hk : marker id = key
    · have hxo : x = o := by simpa [Bucket.put, hk] using hx.symm
      rw [hxo]
      exact described_of_unchanged (hmarker id hk.symm) fun path => hkept _
    · have hx : s.objects (marker id) = some x := by
        simpa [Bucket.put, Function.update_of_ne hk] using hx
      exact described_of_unchanged (h.complete id x hx) fun path => hkept _
  · intro k x hx
    by_cases hk : k = key
    · subst hk
      have hxo : x = o := by simpa [Bucket.put] using hx.symm
      exact .inr ⟨rfl, by rw [hxo]⟩
    · exact .inl (h.noted k x (by simpa [Bucket.put, Function.update_of_ne hk] using hx))

theorem sound_delete {path : String} (h : Sound v a s)
    (hgone : path ≠ BASE_COMPLETION_MARKER → s.objects (marker id) = none) :
    Sound v a (s.delete (.base id path)) := by
  have hold : ∀ k x, (s.delete (.base id path)).objects k = some x → s.objects k = some x := by
    intro k x hx
    by_cases hk : k = .base id path
    · subst hk
      simp [Bucket.delete] at hx
    · simpa [Bucket.delete, Function.update_of_ne hk] using hx
  constructor
  · intro other x hx
    have hne : other ≠ id := by
      rintro rfl
      by_cases hpath : path = BASE_COMPLETION_MARKER
      · subst hpath
        simp [Bucket.delete, marker] at hx
      · have hx := hold _ _ hx
        rw [hgone hpath] at hx
        cases hx
    refine described_of_unchanged (h.complete other x (hold _ _ hx)) fun p y hy => ?_
    have hkey : Key.base other p ≠ Key.base id path := by
      simp [hne]
    simpa [Bucket.delete, Function.update_of_ne hkey] using hy
  · exact fun k x hx => h.noted k x (hold k x hx)

theorem sound_step {role : Role} {o : S3Call} {r : o.Answer} (h : Sound v a s)
    (hg : Permitted v a role o s) (hb : bucket o s r t) : Sound v a t := by
  cases o with
  | put_object key body d =>
    rcases hb with ⟨habsent, rfl⟩ | ⟨rfl, -⟩
    · obtain ⟨id, dir, path, -, rfl, -, hdescribed⟩ := hg
      refine sound_put h habsent fun other hkey => ?_
      obtain ⟨rfl, rfl⟩ : id = other ∧ path = BASE_COMPLETION_MARKER := by
        simpa [marker] using hkey
      exact hdescribed rfl
    · exact h
  | delete_object key =>
    rcases hb with rfl | ⟨rfl, -⟩
    · obtain ⟨id, path, rfl, -, hgone⟩ := hg
      exact sound_delete h hgone
    · exact h
  | head_object | get_object | list_markers => rw [hb.1]; exact h
  | list_base | before_delete =>
    obtain rfl : t = s := hb
    exact h

theorem leaves_put {role : Role} {path : String} {o : Stored}
    (hunseen : ¬ Seen id s) (hother : ∀ dir', role ≠ .upload id dir') :
    Leaves role s (s.put (.base id path) o) := by
  have hid : ∀ {other dir'}, role = .upload other dir' → other ≠ id := by
    rintro other dir' hrole rfl
    exact hother dir' hrole
  constructor
  · exact fun _ _ h => .inl h
  · intro other hseen hnone
    have hne : marker other ≠ .base id path := by
      intro hkey
      obtain ⟨rfl, -⟩ : other = id ∧ BASE_COMPLETION_MARKER = path := by simpa [marker] using hkey
      exact hunseen hseen
    simpa [Bucket.put, Function.update_of_ne hne] using hnone
  · rintro other dir' hrole ⟨x, hx | ⟨hkey, -⟩⟩
    · exact ⟨x, hx⟩
    · obtain ⟨rfl, -⟩ : other = id ∧ BASE_COMPLETION_MARKER = path := by simpa [marker] using hkey
      exact absurd rfl (hid hrole)
  · intro other dir' hrole _ p
    have hne : Key.base other p ≠ .base id path := by
      simp [hid hrole]
    simp [Bucket.put, Function.update_of_ne hne]

theorem leaves_delete {role : Role} {path : String} (hseen : Seen id s) :
    Leaves role s (s.delete (.base id path)) := by
  constructor
  · exact fun _ _ h => h
  · intro other _ hnone
    by_cases hkey : marker other = .base id path
    · rw [hkey]
      simp [Bucket.delete]
    · simpa [Bucket.delete, Function.update_of_ne hkey] using hnone
  · exact fun _ _ _ h => h
  · intro other dir' _ hunseen p
    have hne : Key.base other p ≠ .base id path := by
      rintro h
      obtain ⟨rfl, -⟩ : other = id ∧ p = path := by simpa using h
      exact hunseen hseen
    simp [Bucket.delete, Function.update_of_ne hne]

variable {role : ι → Role} {W : ι → World S3 Bucket}

theorem contract_honoured (hrole : Once role) (hW : ∀ i o s r t, W i o s r t → bucket o s r t) :
    (contract v a role).Honoured W := by
  intro i o s r t hinv hg hw
  have hb := hW _ _ _ _ _ hw
  refine ⟨sound_step hinv hg hb, fun j hj => ?_⟩
  change Leaves (role j) s t
  cases o with
  | put_object key body d =>
    rcases hb with ⟨-, rfl⟩ | ⟨rfl, -⟩
    · obtain ⟨id, dir, path, hi, rfl, hunseen, -⟩ := hg
      exact leaves_put hunseen fun dir' hj' => hj (hrole j i id dir' dir hj' hi)
    · exact .refl _ _
  | delete_object key =>
    rcases hb with rfl | ⟨rfl, -⟩
    · obtain ⟨id, path, rfl, hseen, -⟩ := hg
      exact leaves_delete hseen
    · exact .refl _ _
  | head_object | get_object | list_markers =>
    rw [hb.1]
    exact .refl _ _
  | list_base | before_delete =>
    obtain rfl : t = s := hb
    exact .refl _ _

/-! ## Programs that read -/

variable {i : ι} {P : Bucket → Prop}

/-- Requests that change nothing. -/
def Reads : S3Call → Prop
  | .put_object _ _ _ | .delete_object _ => False
  | _ => True

theorem bucket_reads {o : S3Call} {r : o.Answer} (ho : Reads o) (hb : bucket o s r t) : t = s := by
  cases o with
  | put_object | delete_object => exact ho.elim
  | head_object | get_object | list_markers => exact hb.1
  | list_base | before_delete => exact hb

theorem permitted_reads {role : Role} {o : S3Call} (ho : Reads o) : Permitted v a role o s := by
  cases o with
  | put_object | delete_object => exact ho.elim
  | head_object | get_object | list_markers | list_base | before_delete => trivial

/-- What the others keep, a program that only reads keeps. -/
theorem wp_reads (hW : ∀ i o s r t, W i o s r t → bucket o s r t)
    (hP : ∀ s t, Leaves (role i) s t → P s → P t) {p : S3M α} (hp : p.Calls Reads) (hs : P s) :
    wp ((contract v a role).around W i) ((contract v a role).guard i) p (fun _ t => P t) s := by
  induction p generalizing s with
  | pure x => exact hs
  | raise e => exact hs
  | call o k ih =>
    refine ⟨permitted_reads hp.1, ?_⟩
    rintro r u ⟨w, hw, hwu, -⟩
    obtain rfl := bucket_reads hp.1 (hW _ _ _ _ _ hw)
    exact ih r (hp.2 r) (hP _ _ hwu hs)

theorem reads_verified {key : Key} {expected : Option String} {n m : Option ℕ} :
    (read_verified a key expected n m).Calls Reads := calls_read_verified trivial trivial

theorem reads_artifacts {es : List ArtifactExpectation} : (verify_artifacts a id es).Calls Reads := by
  induction es with
  | nil => exact calls_pure _
  | cons e es ih => exact calls_bind reads_verified fun _ => calls_bind ih fun _ => calls_pure _

theorem calls_checked {D : S3.Op → Prop} {r : Checked α} : (checked r).Calls D := calls_ofExcept r

theorem calls_refuse_if {D : S3.Op → Prop} {c : Prop} [Decidable c] {e : WalS3Error} :
    (refuse_if c e).Calls D := by
  unfold refuse_if
  split
  · exact calls_raise _
  · exact calls_pure _

theorem reads_list : (list_base a id).Calls Reads := calls_perform.mpr trivial

theorem reads_verify : (verify_base_backup v a id).Calls Reads := by
  refine calls_bind ?_ fun _ => calls_pure _
  refine calls_bind calls_checked fun _ => calls_bind reads_verified fun _ => ?_
  refine calls_bind calls_checked fun _ => calls_bind reads_list fun _ => ?_
  exact calls_bind calls_refuse_if fun _ => calls_bind reads_artifacts fun _ => calls_pure _

/-! ## Uploading -/

/-- The marker has never been stored, and what was verified is still there. -/
def Staged (a : WalS3Adapter) (id : String) (done : List ArtifactExpectation) (s : Bucket) : Prop :=
  ¬ Seen id s ∧ ∀ e ∈ done, Match a id e s

theorem Staged.leaves {dir : LocalBase} {done : List ArtifactExpectation}
    (hrole : role i = .upload id dir) (h : Leaves (role i) s t) (hs : Staged a id done s) :
    Staged a id done t := by
  obtain ⟨hunseen, hdone⟩ := hs
  refine ⟨fun hseen => hunseen (h.unseen id dir hrole hseen), fun e he => ?_⟩
  refine match_of_unchanged (hdone e he) fun o ho => ?_
  rw [h.untouched id dir hrole hunseen]
  exact ho

section Upload

variable {dir : LocalBase} {done : List ArtifactExpectation}

/-- What an upload verifies stays as it was verified. -/
theorem wp_read_artifact (hW : ∀ i o s r t, W i o s r t → bucket o s r t)
    (hrole : role i = .upload id dir) {e : ArtifactExpectation} (hdigest : is_digest e.sha256 = true)
    (hs : Staged a id done s) :
    wp ((contract v a role).around W i) ((contract v a role).guard i)
      (read_verified a (.base id e.path) (some e.sha256) e.size none)
      (fun r t => Staged a id done t ∧ ∀ x, r = .ok x → Match a id e t) s := by
  have herr : ∀ {t : Bucket} {err : WalS3Error}, Staged a id done t → Staged a id done t ∧
      ∀ x, (.error err : Checked (WalObjectInfo × Bytes)) = .ok x → Match a id e t :=
    fun ht => ⟨ht, fun x hx => by cases hx⟩
  unfold read_verified
  apply wp_bind'.mpr
  refine wp_perform.mpr ⟨trivial, ?_⟩
  rintro r t ⟨w, hhead, hwt, -⟩
  obtain ⟨rfl, -⟩ := hW _ _ _ _ _ hhead
  have ht := hs.leaves hrole hwt
  cases head_info a (.base id e.path) r with
  | error err => exact herr ht
  | ok info =>
  refine wp_refuse_if (fun _ => herr ht) fun _ => ?_
  refine wp_refuse_if (fun _ => herr ht) fun _ => ?_
  refine wp_refuse_if (fun _ => herr ht) fun hsize => ?_
  refine wp_refuse_if (fun _ => herr ht) fun _ => ?_
  apply wp_bind'.mpr
  refine wp_perform.mpr ⟨trivial, ?_⟩
  rintro r u ⟨w', hget, hwu, -⟩
  obtain ⟨rfl, htrue⟩ := hW _ _ _ _ _ hget
  have hu := ht.leaves hrole hwu
  cases r with
  | missing => exact herr hu
  | failed message => exact herr hu
  | found body =>
  refine wp_refuse_if (fun _ => herr hu) fun _ => ?_
  refine wp_refuse_if (fun _ => herr hu) fun hsame => ⟨hu, fun _ _ => ?_⟩
  obtain ⟨o, ho, rfl⟩ := htrue body rfl
  have hmatch : Match a id e w' := by
    refine ⟨o, ho, ?_, fun size hmem => ?_⟩
    · by_contra hne
      refine hsame (.inr fun h => hne ?_)
      simpa [toLower_of_digest hdigest] using h
    · by_contra hne
      refine hsame (.inl fun h => hsize ⟨size, hmem, ?_⟩)
      rw [← h]
      exact hne
  refine match_of_unchanged hmatch fun x hx => ?_
  rw [hwu.untouched id dir hrole ht.1]
  exact hx

theorem wp_verify_artifacts (hW : ∀ i o s r t, W i o s r t → bucket o s r t)
    (hrole : role i = .upload id dir) {es : List ArtifactExpectation}
    (hdigests : ∀ e ∈ es, is_digest e.sha256 = true) (hs : Staged a id done s) :
    wp ((contract v a role).around W i) ((contract v a role).guard i) (verify_artifacts a id es)
      (fun r t => Staged a id done t ∧ ∀ x, r = .ok x → ∀ e ∈ es, Match a id e t) s := by
  induction es generalizing done s with
  | nil => exact ⟨hs, fun _ _ _ he => by cases he⟩
  | cons e es ih =>
    apply wp_bind'.mpr
    refine wp_post (wp_read_artifact hW hrole (hdigests e List.mem_cons_self) hs) fun r t ht => ?_
    cases r with
    | error err => exact ⟨ht.1, fun x hx => by cases hx⟩
    | ok read =>
      have hstaged : Staged a id (e :: done) t := by
        refine ⟨ht.1.1, fun x hx => ?_⟩
        rcases List.mem_cons.mp hx with rfl | hx
        · exact ht.2 read rfl
        · exact ht.1.2 x hx
      apply wp_bind'.mpr
      refine wp_post (ih (fun x hx => hdigests x (List.mem_cons_of_mem _ hx)) hstaged)
        fun r u hu => ?_
      have hdone : Staged a id done u :=
        ⟨hu.1.1, fun x hx => hu.1.2 x (List.mem_cons_of_mem _ hx)⟩
      cases r with
      | error err => exact ⟨hdone, fun x hx => by cases hx⟩
      | ok infos =>
        refine ⟨hdone, fun _ _ x hx => ?_⟩
        rcases List.mem_cons.mp hx with rfl | hx
        · exact hu.1.2 x List.mem_cons_self
        · exact hu.2 infos rfl x hx

theorem reads_after_create {key : Key} {body : Bytes} {r : Except String Unit} :
    (after_create a key body r).Calls Reads := by
  cases r with
  | ok _ => exact calls_bind reads_verified fun _ => calls_pure _
  | error e => exact calls_bind (calls_mapError (calls_mapError reads_verified)) fun _ => calls_pure _

theorem wp_put_file (hW : ∀ i o s r t, W i o s r t → bucket o s r t)
    (hrole : role i = .upload id dir) {path : String} (hpath : path ≠ BASE_COMPLETION_MARKER)
    {body : Bytes} (hs : Staged a id [] s) :
    wp ((contract v a role).around W i) ((contract v a role).guard i)
      (put_bytes_immutable a body (.base id path)) (fun _ t => Staged a id [] t) s := by
  apply wp_bind'.mpr
  refine wp_perform.mpr ⟨⟨id, dir, path, hrole, rfl, hs.1, fun h => absurd h hpath⟩, ?_⟩
  rintro r t ⟨w, hput, hwt, -⟩
  have hw : Staged a id [] w := by
    refine ⟨?_, fun e he => by cases he⟩
    rcases hW _ _ _ _ _ hput with ⟨-, rfl⟩ | ⟨rfl, -⟩
    · rintro ⟨x, hx | ⟨hkey, -⟩⟩
      · exact hs.1 ⟨x, hx⟩
      · exact hpath (by simpa [marker] using hkey.symm)
    · exact hs.1
  exact wp_reads hW (fun _ _ h hP => hP.leaves hrole h) reads_after_create (hw.leaves hrole hwt)

theorem wp_put_payload (hW : ∀ i o s r t, W i o s r t → bucket o s r t)
    (hrole : role i = .upload id dir) {files : List (String × Bytes)}
    (hfiles : ∀ f ∈ files, relative_path f.1 = .ok f.1 ∧ f.1 ≠ BASE_COMPLETION_MARKER)
    (hs : Staged a id [] s) :
    wp ((contract v a role).around W i) ((contract v a role).guard i) (put_payload a id files)
      (fun _ t => Staged a id [] t) s := by
  induction files generalizing s with
  | nil => exact hs
  | cons f files ih =>
    obtain ⟨hnormal, hpath⟩ := hfiles f List.mem_cons_self
    rw [put_payload, hnormal]
    apply wp_bind'.mpr
    refine wp_ofExcept.mpr (wp_bind'.mpr ?_)
    refine wp_post (wp_put_file hW hrole hpath hs) fun r t ht => ?_
    cases r with
    | error e => exact ht
    | ok receipt =>
      apply wp_bind'.mpr
      refine wp_post (ih (fun x hx => hfiles x (List.mem_cons_of_mem _ hx)) ht) fun r u hu => ?_
      cases r <;> exact hu

theorem Seen.leaves {role : Role} (h : Leaves role s t) (hs : Seen id s) : Seen id t := hs.mono h.ever

/-- A marker whose create is reported is stored. -/
theorem wp_put_marker (hW : ∀ i o s r t, W i o s r t → bucket o s r t)
    (hrole : role i = .upload id dir) {source : Bytes} (hunseen : ¬ Seen id s)
    (hdescribed : Described v a id source s) :
    wp ((contract v a role).around W i) ((contract v a role).guard i)
      (put_bytes_immutable a source (marker id))
      (fun r t => ∀ receipt, r = .ok receipt → receipt.idempotent = false → Seen id t) s := by
  apply wp_bind'.mpr
  refine wp_perform.mpr ⟨⟨id, dir, _, hrole, rfl, hunseen, fun _ => hdescribed⟩, ?_⟩
  rintro r t ⟨w, hput, hwt, -⟩
  cases r with
  | ok _ =>
    have hw : Seen id w := by
      rcases hW _ _ _ _ _ hput with ⟨-, rfl⟩ | ⟨-, e, he⟩
      · exact ⟨source, .inr ⟨rfl, rfl⟩⟩
      · cases he
    exact wp_post (wp_reads hW (fun _ _ h hP => hP.leaves h) reads_after_create (hw.leaves hwt))
      fun _ _ h _ _ _ => h
  | error original =>
    apply wp_bind'.mpr
    refine wp_post (wp_reads (P := fun _ => True) hW (fun _ _ _ _ => trivial)
      (calls_mapError (calls_mapError reads_verified)) trivial) fun r u _ => ?_
    cases r with
    | error e => exact fun receipt h => by cases h
    | ok read =>
      intro receipt h hidem
      cases h
      cases hidem

theorem safe_id_eq {safe_id : String} (h : base_backup_id id = .ok safe_id) : safe_id = id := by
  unfold base_backup_id at h
  split at h
  · split at h
    · exact (Except.ok.inj h).symm
    · cases h
  · cases h

theorem wp_checked_bind {β : Type} {V : World S3 Bucket} {G : S3.Op → Bucket → Prop} {r : Checked α}
    {f : α → S3M β} {Q : Except WalS3Error β → Bucket → Prop} (herr : ∀ e, r = .error e → Q (.error e) s)
    (hok : ∀ x, r = .ok x → wp V G (f x) Q s) : wp V G (checked r >>= f) Q s := by
  apply wp_bind'.mpr
  refine wp_ofExcept.mpr ?_
  cases hr : r with
  | error e => exact herr e hr
  | ok x => exact hok x hr

theorem wp_publish (hW : ∀ i o s r t, W i o s r t → bucket o s r t)
    (hrole : role i = .upload id dir) {source : Bytes} (hs : Staged a id [] s) :
    wp ((contract v a role).around W i) ((contract v a role).guard i)
      (publish_base_manifest v a id source) (fun _ _ => True) s := by
  unfold publish_base_manifest
  refine wp_checked_bind (fun _ _ => trivial) fun safe_id hsafe => ?_
  obtain rfl := safe_id_eq hsafe
  refine wp_refuse_if (fun _ => trivial) fun _ => ?_
  refine wp_checked_bind (fun _ _ => trivial) fun m hm => ?_
  apply wp_bind'.mpr
  refine wp_post (wp_verify_artifacts hW hrole (manifest_digests hm) hs) fun r t ht => ?_
  cases r with
  | error e => trivial
  | ok infos =>
  have hstaged : Staged a safe_id m.artifacts t := ⟨ht.1.1, ht.2 infos rfl⟩
  apply wp_bind'.mpr
  refine wp_post (wp_reads hW (fun _ _ h hP => hP.leaves hrole h) reads_list hstaged)
    fun r u hu => ?_
  cases r with
  | error e => trivial
  | ok listed =>
  refine wp_refuse_if (fun _ => trivial) fun _ => ?_
  apply wp_bind'.mpr
  refine wp_post (wp_put_marker hW hrole hu.1 ⟨m, hm, hu.2⟩) fun r x hx => ?_
  cases r with
  | error e => trivial
  | ok receipt =>
  apply wp_bind'.mpr
  refine wp_attempt.mpr (wp_post (wp_reads (P := fun y => receipt.idempotent = false → Seen safe_id y)
    hW (fun _ _ h hP hidem => (hP hidem).leaves h) reads_verify (hx receipt rfl)) fun r y hy => ?_)
  cases r with
  | ok base => trivial
  | error e =>
    change wp _ _ (if _ then _ else _) _ _
    split
    · trivial
    · next hidem =>
      apply wp_bind'.mpr
      refine wp_perform.mpr ⟨⟨safe_id, _, rfl, hy (by simpa using hidem), fun h => absurd rfl h⟩, ?_⟩
      intro r z _
      cases r <;> trivial

theorem wp_upload (hW : ∀ i o s r t, W i o s r t → bucket o s r t)
    (hrole : role i = .upload id dir) (hs : ¬ Seen id s) :
    wp ((contract v a role).around W i) ((contract v a role).guard i)
      (upload_base_backup v a id dir) (fun _ _ => True) s := by
  unfold upload_base_backup
  refine wp_checked_bind (fun _ _ => trivial) fun safe_id hsafe => ?_
  obtain rfl := safe_id_eq hsafe
  refine wp_checked_bind (fun _ _ => trivial) fun source _ => ?_
  refine wp_checked_bind (fun _ _ => trivial) fun m _ => ?_
  refine wp_checked_bind (fun _ _ => trivial) fun _ _ => ?_
  apply wp_bind'.mpr
  unfold upload_base_payload
  refine wp_checked_bind (fun _ _ => trivial) fun id' hid' => ?_
  obtain rfl := safe_id_eq hid'
  refine wp_checked_bind (fun _ _ => trivial) fun files hfiles => ?_
  have hnormal : ∀ f ∈ payload_files files,
      relative_path f.1 = .ok f.1 ∧ f.1 ≠ BASE_COMPLETION_MARKER := by
    intro f hf
    obtain ⟨hmem, hne⟩ := List.mem_filter.mp hf
    exact ⟨dir.normalised files hfiles f hmem, of_decide_eq_true hne⟩
  refine wp_post (wp_put_payload hW hrole hnormal ⟨hs, fun e he => by cases he⟩) fun r t ht => ?_
  cases r with
  | error e => trivial
  | ok receipts => exact wp_publish hW hrole ht

end Upload

/-! ## Deleting -/

/-- The marker was stored and is gone. -/
def Unpublished (id : String) (s : Bucket) : Prop := Seen id s ∧ s.objects (marker id) = none

theorem Unpublished.leaves {role : Role} (h : Leaves role s t) (hs : Unpublished id s) :
    Unpublished id t := ⟨hs.1.leaves h, h.gone id hs.1 hs.2⟩

theorem reads_before_delete {renewing : Bool} {key : Key} :
    (before_delete renewing key).Calls Reads := by
  unfold before_delete
  split
  · exact calls_perform.mpr trivial
  · exact calls_pure _

theorem wp_delete_payload (hW : ∀ i o s r t, W i o s r t → bucket o s r t) {renewing : Bool}
    {paths : List String} (hs : Unpublished id s) :
    wp ((contract v a role).around W i) ((contract v a role).guard i)
      (delete_keys a renewing (paths.map (Key.base id))) (fun _ _ => True) s := by
  induction paths generalizing s with
  | nil => trivial
  | cons path paths ih =>
    rw [List.map_cons, delete_keys]
    apply wp_bind'.mpr
    refine wp_post (wp_reads hW (fun _ _ h hP => hP.leaves h) reads_before_delete hs) fun r t ht => ?_
    cases r with
    | error e => trivial
    | ok _ =>
    apply wp_bind'.mpr
    refine wp_perform.mpr ⟨⟨id, path, rfl, ht.1, fun _ => ht.2⟩, ?_⟩
    rintro r u ⟨w, hdelete, hwu, -⟩
    cases r with
    | error e => trivial
    | ok _ =>
    have hw : Unpublished id w := by
      rcases hW _ _ _ _ _ hdelete with rfl | ⟨rfl, -⟩
      · refine ⟨ht.1, ?_⟩
        by_cases hkey : marker id = .base id path
        · rw [hkey]
          simp [Bucket.delete]
        · simpa [Bucket.delete, Function.update_of_ne hkey] using ht.2
      · exact ht
    exact ih (hw.leaves hwu)

theorem wp_delete_base (hW : ∀ i o s r t, W i o s r t → bucket o s r t) {renewing : Bool}
    (hs : Seen id s) :
    wp ((contract v a role).around W i) ((contract v a role).guard i)
      (delete_base_backup a id renewing) (fun _ _ => True) s := by
  unfold delete_base_backup
  refine wp_checked_bind (fun _ _ => trivial) fun safe_id hsafe => ?_
  obtain rfl := safe_id_eq hsafe
  apply wp_bind'.mpr
  refine wp_post (wp_reads hW (fun _ _ h hP => hP.leaves h) reads_list hs) fun r t ht => ?_
  cases r with
  | error e => trivial
  | ok listed =>
  refine wp_checked_bind (fun _ _ => trivial) fun paths _ => ?_
  apply wp_bind'.mpr
  rw [delete_keys]
  apply wp_bind'.mpr
  refine wp_post (wp_reads hW (fun _ _ h hP => hP.leaves h) reads_before_delete ht) fun r u hu => ?_
  cases r with
  | error e => trivial
  | ok _ =>
  apply wp_bind'.mpr
  refine wp_perform.mpr ⟨⟨safe_id, _, rfl, hu, fun h => absurd rfl h⟩, ?_⟩
  rintro r x ⟨w, hdelete, hwx, -⟩
  cases r with
  | error e => trivial
  | ok _ =>
  have hw : Unpublished safe_id w := by
    rcases hW _ _ _ _ _ hdelete with rfl | ⟨-, e, he⟩
    · exact ⟨hu, by simp [Bucket.delete]⟩
    · cases he
  refine wp_post (wp_delete_payload hW (hw.leaves hwx)) fun r _ _ => ?_
  cases r <;> trivial

theorem wp_retire (hW : ∀ i o s r t, W i o s r t → bucket o s r t) {renewing : Bool}
    (hs : Sound v a s) :
    wp ((contract v a role).around W i) ((contract v a role).guard i) (retire a id renewing)
      (fun _ _ => True) s := by
  apply wp_bind'.mpr
  refine wp_perform.mpr ⟨trivial, ?_⟩
  rintro r t ⟨w, hlist, hwt, -⟩
  obtain ⟨rfl, htrue⟩ := hW _ _ _ _ _ hlist
  cases r with
  | error e => trivial
  | ok ids =>
  change wp _ _ (if _ then _ else _) _ _
  split
  · next hmem =>
    obtain ⟨o, ho⟩ := Option.isSome_iff_exists.mp (htrue ids rfl id hmem)
    have hseen : Seen id w := ⟨_, hs.noted _ o ho⟩
    exact wp_delete_base hW (hseen.leaves hwt)
  · trivial

/-! ## Runs -/

/-- Bases that are advertised at the start are complete, and no upload is of one of them. -/
structure Initial (v : Values) (a : WalS3Adapter) (role : ι → Role)
    (objects : Key → Option Stored) : Prop where
  complete : Complete v a (opened objects)
  fresh : ∀ i id dir, role i = .upload id dir → objects (marker id) = none

section Runs

variable [DecidableEq ι] {objects : Key → Option Stored}
  {qs : Pool (fun _ : ι => S3) (fun _ => WalS3Error) fun _ => Unit}

/-- Whenever a completion marker is stored, its bytes are a manifest of its base and every
artifact in it is stored with the recorded checksum and size. -/
theorem advertised_bases_complete (hrole : Once role) (hinit : Initial v a role objects)
    (hrun : Interleaved (fun _ => bucket) (opened objects) (fun i => (role i).run v a) t qs) :
    Complete v a t := by
  have hW : ∀ (i : ι) o s r t, (fun _ => bucket : ι → World S3 Bucket) i o s r t →
      bucket o s r t := fun _ _ _ _ _ h => h
  have hsound : Sound v a (opened objects) := ⟨hinit.complete, fun k o ho => ⟨o, ho, rfl⟩⟩
  have hholds : (contract v a role).Holds (fun _ => bucket) (fun _ _ _ => True) (opened objects)
      fun i => (role i).run v a := by
    refine ⟨hsound, fun i u hrely hu => ?_⟩
    cases hi : role i with
    | upload id dir =>
      have hunseen : ¬ Seen id u := by
        intro hseen
        obtain ⟨x, o, ho, -⟩ := hrely.unseen id dir hi hseen
        rw [hinit.fresh i id dir hi] at ho
        cases ho
      refine wp_bind'.mpr (wp_post (wp_upload hW hi hunseen) fun r _ _ => ?_)
      cases r <;> trivial
    | retire id renewing =>
      refine wp_bind'.mpr (wp_post (wp_retire hW hu) fun r _ _ => ?_)
      cases r <;> trivial
  exact (hholds.run (contract_honoured hrole hW) hrun).invariant.complete

end Runs

/-! ## One upload -/

/-- A server that completes every request and lists what is stored under two names. -/
def serve : (o : S3Call) → Bucket → o.Answer × Bucket
  | .list_base id, s =>
    (.ok (["manifest.json", "PG_VERSION"].filter fun path => (s.objects (.base id path)).isSome), s)
  | o, s => ImmutableObjects.serve o s

theorem serve_bucket (o : S3Call) (s : Bucket) : bucket o s (serve o s).1 (serve o s).2 := by
  cases o with
  | list_base id => rfl
  | put_object key body digest => exact (ImmutableObjects.serve_bucket (.put_object key body digest) s).1
  | head_object key => exact (ImmutableObjects.serve_bucket (.head_object key) s).1
  | get_object key => exact (ImmutableObjects.serve_bucket (.get_object key) s).1
  | delete_object key => exact (ImmutableObjects.serve_bucket (.delete_object key) s).1
  | list_markers => exact (ImmutableObjects.serve_bucket .list_markers s).1
  | before_delete key => exact (ImmutableObjects.serve_bucket (.before_delete key) s).1

def exampleManifest : Items :=
  [("base_id", .str "20240101T000000Z"), ("project", .str "acme"), ("cluster_id", .str "main"),
    ("system_identifier", .str "7400000000000000001"), ("environment", .str "production"),
    ("status", .str "complete"),
    ("artifacts", .dict [("PG_VERSION", .str (exampleAdapter.sha256 [1]))])]

/-- The bytes `[2]` stand for the text of the manifest. -/
def exampleValues : Values where
  json_loads := fun source => if source = [2] then some (.dict exampleManifest) else none
  int_of := fun _ => none
  str_of := fun _ => ""
  equal := fun _ _ => false

def exampleBase : LocalBase where
  manifest := some [2]
  files := .ok [("PG_VERSION", [1]), ("manifest.json", [2])]
  normalised := by
    intro files h
    cases h
    decide +kernel

def exampleRole : Unit → Role := fun _ => .upload "20240101T000000Z" exampleBase

def uploaded : Except WalS3Error Unit × Bucket :=
  ((exampleRole ()).run exampleValues exampleAdapter).run (F := S3) serve (opened fun _ => none)

/-- After an upload the marker is stored, over a complete payload. -/
theorem advertised_bases_complete_after_upload :
    uploaded.2.objects (marker "20240101T000000Z") = some ⟨[2], some (exampleAdapter.sha256 [2])⟩ ∧
      Described exampleValues exampleAdapter "20240101T000000Z" [2] uploaded.2 := by
  have hstored : uploaded.2.objects (marker "20240101T000000Z") =
      some ⟨[2], some (exampleAdapter.sha256 [2])⟩ := by decide +kernel
  have hrun := Interleaved.run (W := fun _ => bucket)
    (p := fun i : Unit => (exampleRole i).run exampleValues exampleAdapter) ()
    (ends_run (W := bucket) serve_bucket _ (opened fun _ => none))
  have honce : Once exampleRole := fun _ _ _ _ _ _ _ => rfl
  have hcomplete : Complete exampleValues exampleAdapter uploaded.2 :=
    advertised_bases_complete honce
      ⟨fun _ _ ho => (Option.some_ne_none _ ho.symm).elim, fun _ _ _ _ => rfl⟩ hrun
  exact ⟨hstored, hcomplete _ _ hstored⟩

end BaseCompleteness
