import Odooctl.InterleavedPrograms
import Odooctl.RemoteWorld

/-!
# An advertised remote backup is complete

One publication for each backup id and any number of retention passes take their operations
in any order and may stop anywhere. A completion marker is put once, over a payload that has
been read back, and nothing of a payload is deleted unless its backup is fenced or its marker
is gone for good.
-/
namespace RemoteCompleteness

open EffectPrograms InterleavedPrograms ProgramRules PythonJson BackupManifests RemoteStore
open RemoteBackups RemoteWorld
open PitrRetention (newestFirst)
open S3Objects (is_digest toLower_of_digest)

inductive Job where
  | publish (ctx : BackupContext) (backup_dir : String) (manifest : BackupManifest)
  | prune (ctx : BackupContext) (environment : String) (protected_backup_ids : List String)

def Job.run (a : S3Adapter) : Job → BackupM Unit
  | .publish ctx backup_dir manifest => do
    let _ ← publish_remote_backup a ctx backup_dir manifest
    .pure ()
  | .prune ctx environment protected_backup_ids => do
    let _ ← prune_remote_backups a ctx environment protected_backup_ids
    .pure ()

def Job.Publishes (job : Job) (id : String) : Prop := ∃ ctx manifest, job = .publish ctx id manifest

/-- The manifest records this digest for an artifact. -/
def Recorded (a : S3Adapter) (body : Body) (artifact : String × String) (digest : String) : Prop :=
  ∃ manifest checksums text, a.loads body = .ok (.dict manifest) ∧
    get manifest "checksums" = some (.dict checksums) ∧
    (get checksums artifact.2).or (get checksums artifact.1) = some (.str text) ∧
    digest = text.toLower

/-- Every required artifact is there with the digest that the manifest records. -/
def Covered (a : S3Adapter) (s : Store) (id : String) (body : Body) : Prop :=
  ∀ artifact ∈ REQUIRED_ARTIFACT_CHECKSUMS, ∃ digest o, Recorded a body artifact digest ∧
    s.objects [id, artifact.1] = some o ∧ a.sha256 o.body = digest

def Complete (a : S3Adapter) (s : Store) : Prop :=
  ∀ id o, s.objects (manifest_key id) = some o → ¬ Fenced s id → Covered a s id o.body

variable {a : S3Adapter} {ctx : BackupContext} {job : Job} {s t u : Store} {id : String}
  {ι α β : Type}

/-! ## The contract -/

structure Sound (a : S3Adapter) (s : Store) : Prop where
  complete : Complete a s
  noted : ∀ id, Advertised s id → s.marked id

/-- Nobody touches the backup that another job publishes until its marker has been stored,
except that what is fenced may be deleted. -/
structure Leaves (job : Job) (s t : Store) : Prop where
  marked : ∀ id, s.marked id → t.marked id
  fenced : ∀ id, Fenced s id → Fenced t id
  gone : ∀ id, s.marked id → ¬ Advertised s id → ¬ Advertised t id
  unmarked : ∀ id, job.Publishes id → t.marked id → s.marked id
  files : ∀ id, job.Publishes id → ∀ relative,
    t.files (.backup id relative) = s.files (.backup id relative)
  untouched : ∀ id, job.Publishes id → ¬ s.marked id → ∀ relative,
    t.objects (id :: relative) = s.objects (id :: relative) ∨
      Fenced s id ∧ t.objects (id :: relative) = none

theorem Leaves.refl (job : Job) (s : Store) : Leaves job s s :=
  ⟨fun _ h => h, fun _ h => h, fun _ _ h => h, fun _ _ h => h, fun _ _ _ => rfl,
    fun _ _ _ _ => .inl rfl⟩

theorem Leaves.unfenced (h : Leaves job s t) (hjob : job.Publishes id) (hs : ¬ s.marked id)
    (hfence : ¬ Fenced s id) (relative : List String) :
    t.objects (id :: relative) = s.objects (id :: relative) := by
  rcases h.untouched id hjob hs relative with h | ⟨h, -⟩
  · exact h
  · exact absurd h hfence

theorem Leaves.still_unfenced (h : Leaves job s t) (hjob : job.Publishes id)
    (hs : ¬ s.marked id) (hfence : ¬ Fenced s id) : ¬ Fenced t id := by
  unfold Fenced abandonment_key
  rw [h.unfenced hjob hs hfence]
  exact hfence

theorem Leaves.trans (h : Leaves job s t) (k : Leaves job t u) : Leaves job s u where
  marked := fun id hid => k.marked id (h.marked id hid)
  fenced := fun id hid => k.fenced id (h.fenced id hid)
  gone := fun id hid hnot => k.gone id (h.marked id hid) (h.gone id hid hnot)
  unmarked := fun id hjob hid => h.unmarked id hjob (k.unmarked id hjob hid)
  files := fun id hjob relative => (k.files id hjob relative).trans (h.files id hjob relative)
  untouched := by
    intro id hjob hs relative
    have ht : ¬ t.marked id := fun hid => hs (h.unmarked id hjob hid)
    by_cases hfence : Fenced s id
    · rcases k.untouched id hjob ht relative with hu | ⟨-, hu⟩
      · rw [hu]
        exact h.untouched id hjob hs relative
      · exact .inr ⟨hfence, hu⟩
    · have hfence' := h.still_unfenced hjob hs hfence
      exact .inl ((k.unfenced hjob ht hfence' relative).trans
        (h.unfenced hjob hs hfence relative))

/-- A job writes to the state directory and, where it publishes, beside the artifacts. -/
def Writable (job : Job) (path : LocalPath) : Prop :=
  ∀ dir relative, path = .backup dir relative → job.Publishes dir ∧
    ∀ artifact ∈ REQUIRED_ARTIFACT_CHECKSUMS, relative ≠ [artifact.1]

def Permitted (a : S3Adapter) (job : Job) (o : BackupCall) (s : Store) : Prop :=
  match o with
  | .upload_file source key _ => ∃ id relative, key = id :: relative ∧
      (relative = [COMPLETION_MARKER] ∧ job.Publishes id ∧ ¬ s.marked id ∧ ¬ Fenced s id ∧
          (∀ body, s.files source = some body → Covered a s id body) ∨
        relative = [ABANDONMENT_MARKER] ∧ (job.Publishes id ∨ s.marked id) ∨
        relative ≠ [COMPLETION_MARKER] ∧ job.Publishes id ∧ ¬ s.marked id)
  | .delete_object key => ∃ id relative, key = id :: relative ∧ relative ≠ [ABANDONMENT_MARKER] ∧
      (relative = [COMPLETION_MARKER] ∨ Fenced s id ∨ s.marked id ∧ ¬ Advertised s id)
  | .write_file path _ | .create_file path _ | .unlink path => Writable job path
  | .replace source target => Writable job source ∧ Writable job target
  | .produce .. | .rename .. | .mkdir .. | .rmdir .. => False
  | _ => True

def contract (a : S3Adapter) (job : ι → Job) : Contract (fun _ : ι => Backups) Store where
  invariant := Sound a
  rely := fun i => Leaves (job i)
  guard := fun i => Permitted a (job i)
  rely_refl := fun i => .refl (job i)
  rely_trans := fun _ _ _ _ => .trans

/-- At most one publication of a backup id. -/
def Once (job : ι → Job) : Prop :=
  ∀ i j id, (job i).Publishes id → (job j).Publishes id → i = j

theorem covered_of_same {body : Body} (h : Covered a s id body)
    (hsame : ∀ artifact ∈ REQUIRED_ARTIFACT_CHECKSUMS,
      t.objects [id, artifact.1] = s.objects [id, artifact.1]) : Covered a t id body := by
  intro artifact hartifact
  obtain ⟨digest, o, hrecorded, ho, hdigest⟩ := h artifact hartifact
  exact ⟨digest, o, hrecorded, (hsame artifact hartifact).trans ho, hdigest⟩

theorem artifact_ne_marker {artifact : String × String}
    (h : artifact ∈ REQUIRED_ARTIFACT_CHECKSUMS) :
    artifact.1 ≠ COMPLETION_MARKER ∧ artifact.1 ≠ ABANDONMENT_MARKER := by
  simp only [REQUIRED_ARTIFACT_CHECKSUMS, List.mem_cons, List.not_mem_nil, or_false] at h
  rcases h with rfl | rfl <;> decide

/-! ## What an operation does -/

/-- The objects are as they were, and the files but for some. -/
structure Filed (job : Job) (s t : Store) : Prop where
  objects : t.objects = s.objects
  marked : t.marked = s.marked
  files : ∀ path, ¬ Writable job path → t.files path = s.files path

theorem Filed.refl (job : Job) (s : Store) : Filed job s s := ⟨rfl, rfl, fun _ _ => rfl⟩

theorem Filed.trans (h : Filed job s t) (k : Filed job t u) : Filed job s u :=
  ⟨k.objects.trans h.objects, k.marked.trans h.marked,
    fun path hpath => (k.files path hpath).trans (h.files path hpath)⟩

theorem filed_update {path : LocalPath} (h : Writable job path) (body : Option Body) :
    Filed job s { s with files := Function.update s.files path body } where
  objects := rfl
  marked := rfl
  files := by
    intro other hother
    apply Function.update_of_ne
    rintro rfl
    exact hother h

theorem filed_writes {path : LocalPath} {body : Body} {r : Except String Unit}
    (h : Writable job path) (hw : writes s path body r t) : Filed job s t := by
  rcases hw with rfl | ⟨-, rfl | ⟨other, rfl⟩⟩
  · exact filed_update h _
  · exact .refl job t
  · exact filed_update h _

/-- A permitted operation writes local files, stores an object or deletes one. -/
theorem step_cases {o : BackupCall} {r : o.Answer} (h : Permitted a job o s)
    (hw : storeWorld a o s r t) : Filed job s t ∨
      (∃ source key digest body time, o = .upload_file source key digest ∧
        s.files source = some body ∧ t = s.put key ⟨body, some digest, time⟩) ∨
      ∃ key, o = .delete_object key ∧ t = s.delete key := by
  cases o with
  | produce | rename | mkdir | rmdir => cases h
  | upload_file source key digest =>
    rcases hw with ⟨body, time, hbody, ht⟩ | ⟨rfl, -⟩
    · exact .inr (.inl ⟨source, key, digest, body, time, rfl, hbody, ht⟩)
    · exact .inl (.refl job t)
  | delete_object key =>
    rcases hw with ht | ⟨rfl, -⟩
    · exact .inr (.inr ⟨key, rfl, ht⟩)
    · exact .inl (.refl job t)
  | write_file path body => exact .inl (filed_writes h hw)
  | create_file path body =>
    rcases hw with ⟨-, hw⟩ | ⟨rfl, -⟩
    · exact .inl (filed_writes h hw)
    · exact .inl (.refl job t)
  | unlink path =>
    rcases hw with rfl | rfl
    · exact .inl (filed_update h none)
    · exact .inl (.refl job t)
  | replace source target =>
    rcases hw with ⟨body, -, rfl⟩ | ⟨rfl, -⟩
    · exact .inl ((filed_update h.2 (some body)).trans (filed_update h.1 none))
    · exact .inl (.refl job t)
  | head_object | list_objects | get_object | download_file | read_file =>
    obtain rfl := hw.1
    exact .inl (.refl job t)
  | now | random_hex | kind | modified | iterdir | rglob | fsync | odoo_config | git_commit
  | metadata =>
    obtain rfl : t = s := hw
    exact .inl (.refl job t)

theorem filed_sound (h : Sound a s) (hst : Filed job s t) : Sound a t := by
  constructor
  · intro id o ho hfence
    unfold Fenced at hfence
    rw [hst.objects] at ho hfence
    exact covered_of_same (h.complete id o ho hfence) fun _ _ => by rw [hst.objects]
  · intro id hid
    unfold Advertised at hid
    rw [hst.objects] at hid
    rw [hst.marked]
    exact h.noted id hid

theorem put_other {key : Key} {o : Stored} {head : String} {relative : List String}
    (h : head :: relative ≠ key) :
    (s.put key o).objects (head :: relative) = s.objects (head :: relative) :=
  Function.update_of_ne h _ _

theorem delete_other {key : Key} {head : String} {relative : List String}
    (h : head :: relative ≠ key) :
    (s.delete key).objects (head :: relative) = s.objects (head :: relative) :=
  Function.update_of_ne h _ _

theorem put_sound {source : LocalPath} {key : Key} {digest : String} {body : Body} {o : Stored}
    (h : Sound a s) (hp : Permitted a job (.upload_file source key digest) s)
    (hbody : s.files source = some body) (ho : o.body = body) : Sound a (s.put key o) := by
  obtain ⟨id, relative, rfl, hp⟩ := hp
  constructor
  · intro other x hx hfence
    by_cases hid : other = id
    · subst hid
      rcases hp with ⟨rfl, -, -, -, hcovered⟩ | ⟨rfl, -⟩ | ⟨hrel, -, hmarked⟩
      · have hxo : x = o := by simpa [Store.put, manifest_key] using hx.symm
        rw [hxo, ho]
        apply covered_of_same (hcovered body hbody)
        intro artifact hartifact
        apply put_other
        simpa using (artifact_ne_marker hartifact).1
      · refine absurd ?_ hfence
        simp [Fenced, Store.put, abandonment_key]
      · have hx' : s.objects (manifest_key other) = some x := by
          rw [← hx]
          exact (put_other (by simpa using Ne.symm hrel)).symm
        exact absurd (h.noted other (by simp [Advertised, hx'])) hmarked
    · have hsame : ∀ rest, (s.put (id :: relative) o).objects (other :: rest) =
          s.objects (other :: rest) := fun rest => put_other (by simp [hid])
      unfold Fenced abandonment_key at hfence
      unfold manifest_key at hx
      rw [hsame] at hx hfence
      exact covered_of_same (h.complete other x hx hfence) fun artifact _ => hsame _
  · intro other hother
    by_cases hkey : id :: relative = manifest_key other
    · exact .inr hkey
    · left
      apply h.noted
      unfold Advertised manifest_key at *
      rwa [put_other (Ne.symm hkey)] at hother

theorem delete_sound {key : Key} (h : Sound a s)
    (hp : Permitted a job (.delete_object key) s) : Sound a (s.delete key) := by
  obtain ⟨id, relative, rfl, hfence, hp⟩ := hp
  have hkept : ∀ other, Fenced s other → Fenced (s.delete (id :: relative)) other := by
    intro other hother
    unfold Fenced abandonment_key at *
    rwa [delete_other (by simp [Ne.symm hfence])]
  have hmarker : ∀ other x, (s.delete (id :: relative)).objects (manifest_key other) = some x →
      manifest_key other ≠ id :: relative ∧ s.objects (manifest_key other) = some x := by
    intro other x hx
    have hne : manifest_key other ≠ id :: relative := by
      intro heq
      rw [heq] at hx
      simp [Store.delete] at hx
    exact ⟨hne, (delete_other hne).symm.trans hx⟩
  constructor
  · intro other x hx hunfenced
    obtain ⟨hne, hthere⟩ := hmarker other x hx
    have hold : ¬ Fenced s other := fun hf => hunfenced (hkept other hf)
    apply covered_of_same (h.complete other x hthere hold)
    intro artifact _
    apply delete_other
    intro heq
    obtain ⟨rfl, hrel⟩ := List.cons.inj heq
    rcases hp with rfl | hf | ⟨-, hgone⟩
    · exact hne rfl
    · exact hold hf
    · exact hgone (by simp [Advertised, hthere])
  · intro other hother
    obtain ⟨x, hx⟩ := Option.isSome_iff_exists.mp hother
    exact h.noted other (by simp [Advertised, (hmarker other x hx).2])

theorem sound_step {o : BackupCall} {r : o.Answer} (h : Sound a s) (hp : Permitted a job o s)
    (hw : storeWorld a o s r t) : Sound a t := by
  rcases step_cases hp hw with hfiled | ⟨source, key, digest, body, time, rfl, hbody, rfl⟩ |
    ⟨key, rfl, rfl⟩
  · exact filed_sound h hfiled
  · exact put_sound h hp hbody rfl
  · exact delete_sound h hp

/-! ## What the others see of it -/

section Others

variable {other : Job} (hapart : ∀ id, other.Publishes id → ¬ job.Publishes id)

include hapart

theorem filed_leaves (h : Filed job s t) : Leaves other s t where
  marked := fun id hid => by rwa [h.marked]
  fenced := fun id hid => by
    unfold Fenced
    rwa [h.objects]
  gone := fun id _ hid => by
    unfold Advertised
    rwa [h.objects]
  unmarked := fun id _ hid => by rwa [h.marked] at hid
  files := by
    intro id hid relative
    apply h.files
    intro hwritable
    exact hapart id hid (hwritable id relative rfl).1
  untouched := fun id _ _ relative => .inl (by rw [h.objects])

theorem put_leaves {source : LocalPath} {key : Key} {digest : String} {o : Stored}
    (hp : Permitted a job (.upload_file source key digest) s) : Leaves other s (s.put key o) := by
  obtain ⟨id, relative, rfl, hp⟩ := hp
  constructor
  · exact fun _ h => .inl h
  · intro i hi
    unfold Fenced Store.put at *
    by_cases hkey : abandonment_key i = id :: relative
    · simp [hkey]
    · simpa [Function.update_of_ne hkey] using hi
  · intro i hi hgone
    unfold Advertised Store.put at *
    by_cases hkey : manifest_key i = id :: relative
    · obtain ⟨rfl, rfl⟩ := List.cons.inj hkey
      rcases hp with ⟨-, -, hnot, -⟩ | ⟨hrel, -⟩ | ⟨hrel, -⟩
      · exact absurd hi hnot
      · exact absurd hrel (by decide)
      · exact absurd rfl hrel
    · simpa [Function.update_of_ne hkey] using hgone
  · rintro i hi (hmarked | hkey)
    · exact hmarked
    · obtain ⟨rfl, rfl⟩ := List.cons.inj hkey
      rcases hp with ⟨-, hpub, -⟩ | ⟨hrel, -⟩ | ⟨hrel, -⟩
      · exact absurd hpub (hapart _ hi)
      · exact absurd hrel (by decide)
      · exact absurd rfl hrel
  · exact fun _ _ _ => rfl
  · intro i hi hnot rest
    left
    apply put_other
    intro heq
    obtain ⟨rfl, -⟩ := List.cons.inj heq
    rcases hp with ⟨-, hpub, -⟩ | ⟨-, hpub | hmarked⟩ | ⟨-, hpub, -⟩
    · exact hapart _ hi hpub
    · exact hapart _ hi hpub
    · exact hnot hmarked
    · exact hapart _ hi hpub

omit hapart in
theorem delete_leaves {key : Key} (h : Sound a s) (hp : Permitted a job (.delete_object key) s) :
    Leaves other s (s.delete key) := by
  obtain ⟨id, relative, rfl, hfence, hp⟩ := hp
  constructor
  · exact fun _ h => h
  · intro i hi
    unfold Fenced abandonment_key at *
    rwa [delete_other (by simp [Ne.symm hfence])]
  · intro i _ hgone
    unfold Advertised Store.delete at *
    by_cases hkey : manifest_key i = id :: relative
    · simp [hkey]
    · simpa [Function.update_of_ne hkey] using hgone
  · exact fun _ _ h => h
  · exact fun _ _ _ => rfl
  · intro i _ hnot rest
    by_cases heq : i :: rest = id :: relative
    · obtain ⟨rfl, rfl⟩ := List.cons.inj heq
      have hdeleted : (s.delete (i :: rest)).objects (i :: rest) = none := by simp [Store.delete]
      rcases hp with rfl | hf | ⟨hmarked, -⟩
      · have hnone : s.objects (i :: [COMPLETION_MARKER]) = none := by
          by_contra hsome
          exact hnot (h.noted i (Option.isSome_iff_ne_none.mpr hsome))
        exact .inl (hdeleted.trans hnone.symm)
      · exact .inr ⟨hf, hdeleted⟩
      · exact absurd hmarked hnot
    · exact .inl (delete_other heq)

theorem leaves_step {o : BackupCall} {r : o.Answer} (h : Sound a s) (hp : Permitted a job o s)
    (hw : storeWorld a o s r t) : Leaves other s t := by
  rcases step_cases hp hw with hfiled | ⟨source, key, digest, body, time, rfl, -, rfl⟩ |
    ⟨key, rfl, rfl⟩
  · exact filed_leaves hapart hfiled
  · exact put_leaves hapart hp
  · exact delete_leaves h hp

end Others

theorem jobs_honour {job : ι → Job} (honce : Once job) :
    (contract a job).Honoured fun _ => storeWorld a := by
  intro i o s r t hinv hp hw
  refine ⟨sound_step hinv hp hw, ?_⟩
  intro j hj
  exact leaves_step (fun id hjd hid => hj (honce j i id hjd hid)) hinv hp hw

/-! ## Free operations -/

/-- What a job may do anywhere, once it may fence the backups in `P`. -/
def Free (job : Job) (P : String → Prop) (o : BackupCall) : Prop :=
  match o with
  | .upload_file _ key _ => ∃ id, P id ∧ key = abandonment_key id
  | .delete_object key => ∃ id, key = manifest_key id
  | .write_file path _ | .create_file path _ | .unlink path => Writable job path
  | .replace source target => Writable job source ∧ Writable job target
  | .produce .. | .rename .. | .mkdir .. | .rmdir .. => False
  | _ => True

def Authorised (job : Job) (P : String → Prop) (s : Store) : Prop :=
  ∀ id, P id → job.Publishes id ∨ s.marked id

/-- What the others do, and that they keep the invariant. -/
def Around (a : S3Adapter) (job : Job) (s t : Store) : Prop :=
  Leaves job s t ∧ (Sound a s → Sound a t)

theorem steady : Steady (Around a job) where
  refl := fun s => ⟨.refl job s, id⟩
  trans := fun _ _ _ h k => ⟨h.1.trans k.1, fun hs => k.2 (h.2 hs)⟩

variable {P : String → Prop} {o : BackupCall}

theorem permitted_look (h : Look o) : Permitted a job o s := by
  cases o with
  | upload_file | delete_object | write_file | create_file | replace | unlink | produce | rename
  | mkdir | rmdir => cases h
  | head_object | list_objects | get_object | download_file | read_file | now | random_hex | kind
  | modified | iterdir | rglob | fsync | odoo_config | git_commit | metadata => trivial

theorem free_look (h : Look o) : Free job P o := by
  cases o with
  | upload_file | delete_object | write_file | create_file | replace | unlink | produce | rename
  | mkdir | rmdir => cases h
  | head_object | list_objects | get_object | download_file | read_file | now | random_hex | kind
  | modified | iterdir | rglob | fsync | odoo_config | git_commit | metadata => trivial

theorem permitted_free (h : Free job P o) (hP : Authorised job P s) : Permitted a job o s := by
  cases o with
  | upload_file source key digest =>
    obtain ⟨id, hid, rfl⟩ := h
    exact ⟨id, [ABANDONMENT_MARKER], rfl, .inr (.inl ⟨rfl, hP id hid⟩)⟩
  | delete_object key =>
    obtain ⟨id, rfl⟩ := h
    exact ⟨id, [COMPLETION_MARKER], rfl, by decide, .inl rfl⟩
  | write_file | create_file | unlink | replace => exact h
  | produce | rename | mkdir | rmdir => cases h
  | head_object | list_objects | get_object | download_file | read_file | now | random_hex | kind
  | modified | iterdir | rglob | fsync | odoo_config | git_commit | metadata => trivial

theorem marked_step {r : o.Answer} (hp : Permitted a job o s) (hw : storeWorld a o s r t)
    (h : s.marked id) : t.marked id := by
  rcases step_cases hp hw with hfiled | ⟨source, key, digest, body, time, rfl, -, rfl⟩ |
    ⟨key, rfl, rfl⟩
  · rwa [hfiled.marked]
  · exact .inl h
  · exact h

theorem Authorised.leaves (h : Authorised job P s) (hst : Leaves job s t) :
    Authorised job P t := fun id hid => (h id hid).imp_right (hst.marked id)

theorem Authorised.step {r : o.Answer} (h : Authorised job P s) (hp : Permitted a job o s)
    (hw : storeWorld a o s r t) : Authorised job P t :=
  fun id hid => (h id hid).imp_right (marked_step hp hw)

theorem authorised_own : Authorised job job.Publishes s := fun _ h => .inl h

abbrev jobWorld (a : S3Adapter) (job : Job) : World Backups Store := met a (Around a job)

theorem wp_free {p : BackupM α} (hP : Authorised job P s) (h : p.Calls (Free job P)) :
    wp (jobWorld a job) (Permitted a job) p (fun _ t => Authorised job P t) s := by
  apply wp_keeps h hP (fun o u ho hu => permitted_free ho hu)
  intro o u r t ho hu hw
  obtain ⟨v, hw, haround⟩ := hw
  exact (hu.step (permitted_free ho hu) hw).leaves haround.1

section Calls

theorem free_of_look {p : BackupM α} (h : p.Calls Look) : p.Calls (Free job P) :=
  calls_mono h fun _ => free_look

theorem writable_state {name : String} : Writable job (.state name) := by
  intro dir relative h
  cases h

theorem artifact_dotless {artifact : String × String}
    (h : artifact ∈ REQUIRED_ARTIFACT_CHECKSUMS) : artifact.1.toList.head? ≠ some '.' := by
  simp only [REQUIRED_ARTIFACT_CHECKSUMS, List.mem_cons, List.not_mem_nil, or_false] at h
  rcases h with rfl | rfl <;> decide

theorem writable_dotted {dir name : String} (h : job.Publishes dir)
    (hname : name.toList.head? = some '.') : Writable job (.backup dir [name]) := by
  intro dir' relative heq
  obtain ⟨rfl, rfl⟩ := LocalPath.backup.inj heq
  refine ⟨h, ?_⟩
  intro artifact hartifact heq
  obtain rfl := (List.cons.inj heq).1
  exact artifact_dotless hartifact hname

theorem dotted {x y : String} (h : x.toList.head? = some '.') :
    (x ++ y).toList.head? = some '.' := by
  rw [String.toList_append, List.head?_append, h]
  rfl

theorem writable_manifest {dir : String} (h : job.Publishes dir) :
    Writable job (.backup dir [COMPLETION_MARKER]) := by
  intro dir' relative heq
  obtain ⟨rfl, rfl⟩ := LocalPath.backup.inj heq
  refine ⟨h, ?_⟩
  intro artifact hartifact heq
  exact (artifact_ne_marker hartifact).1 (List.cons.inj heq).1.symm

theorem free_write_atomic {path : LocalPath} {payload : Body} (h : Writable job path)
    (htemporary : ∀ token : String, Writable job (path.sibling fun name => s!".{name}.{token}.tmp")) :
    (write_atomic path payload).Calls (Free job P) := by
  unfold write_atomic
  apply calls_bind (calls_perform.mpr trivial)
  intro token
  apply calls_ensuring
  · exact calls_bind (calls_perform.mpr (htemporary token)) fun _ =>
      calls_bind (calls_perform.mpr ⟨htemporary token, h⟩) fun _ => calls_perform.mpr trivial
  · exact calls_perform.mpr (htemporary token)

theorem free_persist {dir : String} {manifest : BackupManifest} (h : job.Publishes dir) :
    (persist_local_manifest dir manifest).Calls (Free job P) := by
  unfold persist_local_manifest
  apply calls_bind calls_refuse_if
  intro _
  apply calls_bind (calls_perform.mpr trivial)
  intro _
  apply calls_bind calls_refuse_if
  intro _
  apply calls_bind
  · apply free_write_atomic (writable_manifest h)
    intro token
    exact writable_dotted h (dotted (dotted (dotted (dotted rfl))))
  · exact fun _ => calls_perform.mpr trivial

theorem free_mark_abandoned {manifest : BackupManifest} (h : P manifest.backup_id) :
    (mark_remote_abandoned a manifest).Calls (Free job P) := by
  unfold mark_remote_abandoned
  apply calls_bind (calls_perform.mpr trivial)
  intro _
  apply calls_bind (calls_perform.mpr trivial)
  intro _
  apply calls_bind (calls_perform.mpr trivial)
  intro token
  apply calls_ensuring
  · apply calls_bind (free_write_atomic writable_state fun _ => writable_state)
    intro _
    apply calls_backup_name_bind
    apply calls_bind
    · unfold upload_object
      apply calls_bind (calls_perform.mpr trivial)
      intro _
      apply calls_bind calls_refuse_if
      intro _
      apply calls_ofExcept_bind
      intro key hkey
      obtain rfl := scoped_key_eq hkey
      apply calls_bind (calls_perform.mpr trivial)
      intro _
      apply calls_bind (calls_perform.mpr ⟨manifest.backup_id, h, rfl⟩)
      exact fun _ => free_of_look looks_verify
    · intro uploaded
      apply calls_bind (calls_perform.mpr trivial)
      exact fun _ => calls_bind (free_of_look looks_verify_content) fun _ => calls_pure _
  · exact calls_perform.mpr writable_state

theorem free_mark_incomplete {manifest : BackupManifest} (h : P manifest.backup_id) :
    (mark_incomplete_for_cleanup a manifest).Calls (Free job P) := by
  unfold mark_incomplete_for_cleanup
  apply calls_bind (free_of_look looks_list_objects)
  intro objects
  dsimp only
  split
  · exact calls_pure _
  split
  · exact calls_pure _
  · exact free_mark_abandoned h

theorem free_delete_marker {name : String} :
    (delete_completion_marker a name).Calls (Free job P) := calls_perform.mpr ⟨name, rfl⟩

theorem free_remove_marker {name : String} :
    (remove_completion_marker a name).Calls (Free job P) := by
  unfold remove_completion_marker
  exact calls_bind calls_backup_name fun _ => calls_bind (free_of_look looks_list_objects) fun _ =>
    calls_bind free_delete_marker fun _ => calls_pure _

theorem free_stage {dir : String} {manifest : BackupManifest} (h : job.Publishes dir) :
    (stage_manifest dir manifest).Calls (Free job P) := by
  unfold stage_manifest
  apply calls_bind (calls_perform.mpr trivial)
  intro token
  apply calls_bind
  · apply calls_perform.mpr
    exact writable_dotted h (dotted (dotted rfl))
  · exact fun _ => calls_pure _

theorem free_withdraw {remote : RemoteBackupConfig} {dir : String} {pending : BackupManifest}
    {e : BackupError} (h : job.Publishes dir) (hP : P pending.backup_id) :
    (withdraw a remote dir pending e).Calls (Free job P) := by
  unfold withdraw
  apply calls_bind (calls_attempt free_remove_marker)
  intro cleanup
  apply calls_bind (calls_attempt (free_mark_incomplete hP))
  intro abandonment
  apply calls_bind (free_persist h)
  intro _
  exact calls_ite (calls_raise _) (calls_pure _)

theorem free_conclude {remote : RemoteBackupConfig} {dir : String} {pending : BackupManifest}
    {outcome : Except BackupError BackupManifest} (h : job.Publishes dir)
    (hP : P pending.backup_id) : (conclude a remote dir pending outcome).Calls (Free job P) := by
  cases outcome with
  | ok complete => exact calls_pure _
  | error e => exact free_withdraw h hP

end Calls

end RemoteCompleteness
