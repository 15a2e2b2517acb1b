import Odooctl.ProgramRules
import Odooctl.RemoteBackups
import Mathlib.Logic.Function.Basic

/-!
# What the object store does

A request takes effect during the call that issues it, or not at all, and may fail either
way. Reads and listings are current. Paths of different hosts are told apart by identifiers
of their own.
-/
namespace RemoteWorld

open EffectPrograms ProgramRules BackupManifests RemoteStore RemoteBackups
open PitrRestoreRecord (Timestamp)

structure Stored where
  body : Body
  sha256 : Option String
  last_modified : Option Timestamp
  deriving DecidableEq, Repr

/-- The objects under the prefix, the local files, and the backups whose completion marker
has ever been stored. -/
structure Store where
  objects : Key → Option Stored
  files : LocalPath → Option Body
  marked : String → Prop

def Store.put (s : Store) (key : Key) (o : Stored) : Store where
  objects := Function.update s.objects key (some o)
  files := s.files
  marked := fun id => s.marked id ∨ key = manifest_key id

def Store.delete (s : Store) (key : Key) : Store :=
  { s with objects := Function.update s.objects key none }

def Store.write (s : Store) (path : LocalPath) (body : Body) : Store :=
  { s with files := Function.update s.files path (some body) }

def Store.remove (s : Store) (path : LocalPath) : Store :=
  { s with files := Function.update s.files path none }

def Fenced (s : Store) (id : String) : Prop := (s.objects (abandonment_key id)).isSome = true

def Advertised (s : Store) (id : String) : Prop := (s.objects (manifest_key id)).isSome = true

/-- The keys that a request for a listing is about. -/
def InScope (name : Option String) (key : Key) : Prop :=
  ∀ n ∈ name, key.head? = some n ∧ 2 ≤ key.length

structure Lists (a : S3Adapter) (s : Store) (name : Option String) (items : List S3ObjectInfo) :
    Prop where
  all : ∀ key o, s.objects key = some o → InScope name key → key ∈ items.map S3ObjectInfo.key
  current : ∀ item ∈ items, ∃ o, s.objects item.key = some o ∧ item.size = a.size o.body ∧
    item.last_modified = o.last_modified
  within : ∀ item ∈ items, InScope name item.key

def heads (a : S3Adapter) (s : Store) (key : Key) : HeadReply → Prop
  | .found size sha256 => ∃ o, s.objects key = some o ∧ size = a.size o.body ∧ sha256 = o.sha256
  | .error true _ => s.objects key = none
  | .error false _ => True

/-- A file is written, or nothing is, or something else before a failure. -/
def writes (s : Store) (path : LocalPath) (body : Body) (r : Except String Unit) (t : Store) :
    Prop :=
  t = s.write path body ∨ (∃ e, r = .error e) ∧ (t = s ∨ ∃ other, t = s.write path other)

def storeWorld (a : S3Adapter) : World Backups Store
  | .head_object key, s, r, t => t = s ∧ heads a s key r
  | .list_objects name, s, r, t => t = s ∧ ∀ items, r = .ok items → Lists a s name items
  | .upload_file source key digest, s, r, t =>
      (∃ body time, s.files source = some body ∧ t = s.put key ⟨body, some digest, time⟩) ∨
      t = s ∧ ∃ e, r = .error e
  | .get_object key, s, r, t | .download_file key, s, r, t =>
      t = s ∧ ∀ body, r = .ok body → ∃ o, s.objects key = some o ∧ body = o.body
  | .delete_object key, s, r, t => t = s.delete key ∨ t = s ∧ ∃ e, r = .error e
  | .read_file path, s, r, t => t = s ∧ ∀ body, r = .ok body → s.files path = some body
  | .write_file path body, s, r, t => writes s path body r t
  | .create_file path body, s, r, t => s.files path = none ∧ writes s path body r t ∨
      t = s ∧ ∃ e, r = .error e
  | .replace source target, s, r, t =>
      (∃ body, s.files source = some body ∧ t = (s.write target body).remove source) ∨
      t = s ∧ ∃ e, r = .error e
  | .unlink path, s, _, t => t = s.remove path ∨ t = s
  | .produce path, s, _, t => t = s ∨ ∃ body, t = s.write path body
  | .rename _ _, s, _, t => ∃ files, t = { s with files := files }
  | _, s, _, t => t = s

/-! ## Reading -/

/-- The operations that change nothing modelled here. -/
def Look : BackupCall → Prop
  | .upload_file .. | .delete_object .. | .write_file .. | .create_file .. | .replace ..
  | .unlink .. | .produce .. | .rename .. | .mkdir .. | .rmdir .. => False
  | _ => True

variable {a : S3Adapter} {ctx : BackupContext} {s t u : Store}

theorem look_still {o : BackupCall} {r : o.Answer} (h : Look o) (hw : storeWorld a o s r t) :
    t = s := by
  cases o with
  | upload_file | delete_object | write_file | create_file | replace | unlink | produce | rename
  | mkdir | rmdir => cases h
  | head_object | list_objects | get_object | download_file | read_file => exact hw.1
  | now | random_hex | kind | modified | iterdir | rglob | fsync | odoo_config | git_commit
  | metadata => exact hw

section Calls

variable {D : BackupCall → Prop} {α β : Type}

theorem calls_refuse_if {c : Prop} [Decidable c] {k : ErrorKind} {message : String} :
    (refuse_if c k message).Calls D := by
  unfold refuse_if fail
  split <;> trivial

theorem calls_backup_name {value : String} : (backup_name value).Calls D := by
  unfold backup_name fail
  split <;> trivial

/-- A name that is checked is used as it is. -/
theorem calls_backup_name_bind {value : String} {f : String → BackupM α} (h : (f value).Calls D) :
    (backup_name value >>= f).Calls D := by
  unfold backup_name fail
  split
  · exact calls_raise _
  · exact h

theorem looks_fence {name : String} : (abandonment_fence_exists a name).Calls Look := by
  unfold abandonment_fence_exists
  exact calls_bind calls_backup_name fun _ => calls_perform.mpr trivial

theorem looks_not_abandoned {name : String} : (assert_not_abandoned a name).Calls Look := by
  unfold assert_not_abandoned
  exact calls_bind calls_backup_name fun _ => calls_bind looks_fence fun _ => calls_refuse_if

theorem looks_head {key : Key} : (head_object a key).Calls Look := by
  unfold head_object
  exact calls_bind (calls_ofExcept _) fun _ => calls_perform.mpr trivial

theorem looks_verify {key : Key} {digest : Option String} {size : Option ℕ} {b : Bool} :
    (verify_object a key digest size b).Calls Look := by
  unfold verify_object
  exact calls_bind looks_head fun _ => calls_bind calls_refuse_if fun _ =>
    calls_bind calls_refuse_if fun _ => calls_bind calls_refuse_if fun _ =>
    calls_bind calls_refuse_if fun _ => calls_pure _

theorem looks_read_verified {key : Key} {digest : Option String} {most : Option ℕ} {b : Bool} :
    (read_verified_object a key digest most b).Calls Look := by
  unfold read_verified_object
  exact calls_bind looks_verify fun _ => calls_bind calls_refuse_if fun _ =>
    calls_bind (calls_perform.mpr trivial) fun _ => calls_bind calls_refuse_if fun _ =>
    calls_bind calls_refuse_if fun _ => calls_pure _

theorem looks_verify_content {key : Key} {digest : Option String} :
    (verify_object_content a key digest).Calls Look :=
  calls_bind looks_read_verified fun _ => calls_pure _

theorem looks_download_verified {key : Key} {digest : Option String} {b : Bool} :
    (download_verified a key digest b).Calls Look := by
  unfold download_verified
  exact calls_bind looks_verify fun _ => calls_bind (calls_perform.mpr trivial) fun _ =>
    calls_bind calls_refuse_if fun _ => calls_pure _

theorem looks_download_object {key : Key} : (download_object a key).Calls Look :=
  calls_bind (calls_ofExcept _) fun _ => looks_download_verified

theorem looks_download_manifest {name : String} : (download_manifest a name).Calls Look := by
  unfold download_manifest
  exact calls_bind looks_not_abandoned fun _ => calls_bind looks_download_verified fun _ =>
    calls_bind looks_not_abandoned fun _ => calls_pure _

theorem looks_list_objects {name : Option String} : (list_objects a name).Calls Look := by
  unfold list_objects
  have hname : (listing_name name).Calls Look := by
    cases name with
    | none => exact calls_pure _
    | some value => exact calls_bind calls_backup_name fun _ => calls_pure _
  exact calls_bind hname fun _ => calls_bind (calls_perform.mpr trivial) fun _ =>
    calls_bind (calls_ofExcept _) fun _ => calls_pure _

theorem looks_unfenced {names : List String} : (unfenced a names).Calls Look := by
  induction names with
  | nil => trivial
  | cons name rest ih => exact calls_bind looks_fence fun _ => calls_bind ih fun _ => calls_pure _

theorem looks_list_backups : (list_backups a).Calls Look :=
  calls_bind looks_list_objects fun _ => looks_unfenced

theorem looks_backup_files {dir : String} : (backup_files dir).Calls Look := by
  unfold backup_files
  exact calls_bind (calls_perform.mpr trivial) fun _ => calls_bind calls_refuse_if fun _ =>
    calls_bind calls_backup_name fun _ => calls_bind (calls_perform.mpr trivial) fun _ =>
    calls_bind (calls_ofExcept _) fun _ => calls_bind (calls_perform.mpr trivial) fun _ =>
    calls_bind calls_refuse_if fun _ => calls_pure _

theorem looks_read_file {path : LocalPath} : (read_file path).Calls Look :=
  calls_perform.mpr trivial

theorem looks_kind {path : LocalPath} : (kind path).Calls Look := calls_perform.mpr trivial

theorem looks_clock : clock.Calls Look := calls_perform.mpr trivial

theorem looks_random_hex : random_hex.Calls Look := calls_perform.mpr trivial

theorem looks_expectations {source : LocalPath} {name : String} :
    (upload_manifest_expectations a source name).Calls Look := by
  unfold upload_manifest_expectations
  exact calls_bind looks_read_file fun _ => calls_bind calls_refuse_if fun _ =>
    calls_bind (calls_attempt looks_read_file) fun _ => calls_ofExcept _

theorem looks_payloads {name : String} {expected : List (String × String)} :
    (verify_manifest_payloads a name expected).Calls Look := by
  induction expected with
  | nil => trivial
  | cons p rest ih =>
    unfold verify_manifest_payloads
    apply calls_bind looks_head
    intro info
    cases info.sha256 with
    | none => exact calls_bind looks_read_verified fun _ => ih
    | some digest => exact calls_bind looks_verify fun _ => ih

theorem looks_check_upload {source : LocalPath} {name : String} :
    (check_manifest_upload a source name).Calls Look := by
  unfold check_manifest_upload
  exact calls_bind looks_expectations fun _ => calls_bind looks_payloads fun _ =>
    looks_not_abandoned

theorem looks_verify_contents {items : List S3ObjectInfo} :
    (verify_contents a items).Calls Look := by
  induction items with
  | nil => trivial
  | cons item rest ih =>
    exact calls_bind looks_verify_content fun _ => calls_bind ih fun _ => calls_pure _

theorem looks_load_marker {backup_id environment : String} :
    (load_abandonment_marker a ctx backup_id environment).Calls Look := by
  unfold load_abandonment_marker
  exact calls_bind calls_backup_name fun _ => calls_bind looks_download_object fun _ =>
    calls_bind (calls_ofExcept _) fun _ => calls_pure _

theorem looks_load_manifest {environment backup_id : String} :
    (load_remote_manifest a ctx environment backup_id).Calls Look := by
  unfold load_remote_manifest
  exact calls_bind looks_not_abandoned fun _ => calls_bind looks_download_manifest fun _ =>
    calls_bind looks_not_abandoned fun _ => calls_bind (calls_perform.mpr trivial) fun _ =>
    calls_ofExcept _

theorem looks_recognise {environment backup_id : String} {inventory : List S3ObjectInfo} :
    (recognise a ctx environment inventory backup_id).Calls Look := by
  unfold recognise
  apply calls_bind looks_fence
  intro fenced
  cases fenced with
  | true => exact calls_pure _
  | false => exact calls_bind looks_load_manifest fun _ => calls_pure _

theorem looks_collect {environment : String} {inventory : List S3ObjectInfo} {ids : List String} :
    (collect a ctx environment inventory ids).Calls Look := by
  induction ids with
  | nil => trivial
  | cons backup_id rest ih =>
    unfold collect
    split
    · exact ih
    apply calls_bind (calls_attempt looks_recognise)
    intro found
    apply calls_bind ih
    intro others
    split
    · exact calls_pure _
    · exact calls_pure _
    · exact calls_ite (calls_pure _) (calls_pure _)

theorem looks_recheck {environment : String} {manifest : BackupManifest} :
    (recheck a ctx environment manifest).Calls Look :=
  calls_bind looks_load_manifest fun _ => calls_refuse_if

theorem looks_groups : (scoped_object_groups a).Calls Look :=
  calls_bind looks_list_objects fun _ => calls_pure _

theorem looks_inventory : (take_inventory a).Calls Look :=
  calls_bind looks_list_objects fun _ => calls_bind looks_list_backups fun _ => calls_pure _

theorem looks_require_env {environment : String} : (require_env ctx environment).Calls Look :=
  calls_refuse_if

theorem looks_remote_config : (remote_config ctx).Calls Look := by
  unfold remote_config fail
  split
  · trivial
  · split <;> trivial

end Calls

/-! ## What reads show -/

section Facts

/-- How others move the store: possibly not at all, and in any number of steps. -/
structure Steady (R : Store → Store → Prop) : Prop where
  refl : ∀ s, R s s
  trans : ∀ s t u, R s t → R t u → R s u

variable {R : Store → Store → Prop} {G : BackupCall → Store → Prop} {α β : Type}
  {key : Key} {name : String} {digest : Option String}

abbrev met (a : S3Adapter) (R : Store → Store → Prop) : World Backups Store :=
  (storeWorld a).under R

theorem wp_looks (hR : Steady R) (hG : ∀ o u, Look o → G o u) {p : BackupM α}
    (h : p.Calls Look) : wp (met a R) G p (fun _ t => R s t) s :=
  wp_under_still hR.refl hR.trans (fun _ _ _ _ => look_still) hG h

/-- One operation that changes nothing. -/
theorem wp_look (hG : ∀ o u, Look o → G o u) {o : BackupCall} (ho : Look o)
    {reply : o.Answer → Except BackupError α} {Q : Except BackupError α → Store → Prop}
    (h : ∀ r t, storeWorld a o s r s → R s t → Q (reply r) t) :
    wp (met a R) G (.perform (F := Backups) o reply) Q s := by
  apply wp_perform_under (hG o s ho)
  intro r u hw t hR
  obtain rfl := look_still ho hw
  exact h r t hw hR

variable {W : World Backups Store} {Q : Except BackupError α → Store → Prop}

theorem wp_backup_name_seq {f : String → BackupM α} (herr : ∀ e, Q (.error e) s)
    (hok : wp W G (f name) Q s) : wp W G (backup_name name >>= f) Q s := by
  unfold backup_name fail
  split
  · exact herr _
  · exact hok

theorem wp_refuse_if_seq {c : Prop} [Decidable c] {k : ErrorKind} {message : String}
    {f : Unit → BackupM α} (herr : ∀ e, Q (.error e) s) (hok : ¬ c → wp W G (f ()) Q s) :
    wp W G (refuse_if c k message >>= f) Q s := by
  unfold refuse_if fail
  split
  · exact herr _
  · exact hok ‹_›

theorem wp_fence (hR : Steady R) (hG : ∀ o u, Look o → G o u) :
    wp (met a R) G (abandonment_fence_exists a name) (fun r t =>
      R s t ∧ ∀ b, r = .ok b → (b = true ↔ Fenced s name)) s := by
  unfold abandonment_fence_exists
  apply wp_backup_name_seq (fun _ => ⟨hR.refl s, fun _ h => nomatch h⟩)
  apply wp_look hG (o := .head_object _) trivial
  intro r t hw ht
  refine ⟨ht, ?_⟩
  intro b hb
  have hheads := hw.2
  rcases r with ⟨size, sha256⟩ | ⟨missing, message⟩
  · obtain ⟨o, ho, -⟩ := hheads
    cases hb
    simp [Fenced, ho]
  · cases missing with
    | false => cases hb
    | true =>
      have hnone : s.objects (abandonment_key name) = none := hheads
      cases hb
      simp [Fenced, hnone]

theorem wp_not_abandoned (hR : Steady R) (hG : ∀ o u, Look o → G o u) :
    wp (met a R) G (assert_not_abandoned a name) (fun r t =>
      R s t ∧ (r = .ok () → ¬ Fenced s name)) s := by
  unfold assert_not_abandoned
  apply wp_backup_name_seq (fun _ => ⟨hR.refl s, fun h => nomatch h⟩)
  apply wp_seq (wp_fence hR hG)
  · exact fun e t h => ⟨h.1, fun h => nomatch h⟩
  intro fenced t ht
  unfold refuse_if fail
  split
  · exact ⟨ht.1, fun h => nomatch h⟩
  · next hnot => exact ⟨ht.1, fun _ hfenced => hnot ((ht.2 fenced rfl).mpr hfenced)⟩

theorem scoped_key_eq {key' : Key} (h : scoped_key a key = .ok key') : key' = key := by
  unfold scoped_key at h
  split at h
  · cases h
  split at h
  · cases h
  split at h
  · cases h
  · exact (Except.ok.inj h).symm

/-- What a HEAD of an object says. -/
def Headed (s : Store) (key : Key) (info : S3ObjectInfo) : Prop :=
  info.key = key ∧ ∃ o, s.objects key = some o ∧ info.sha256 = o.sha256

theorem wp_head (hR : Steady R) (hG : ∀ o u, Look o → G o u) :
    wp (met a R) G (head_object a key) (fun r t =>
      R s t ∧ ∀ info, r = .ok info → Headed s key info) s := by
  unfold head_object
  apply wp_ofExcept_seq (fun _ _ => ⟨hR.refl s, fun _ h => nomatch h⟩)
  intro key' hkey
  obtain rfl := scoped_key_eq hkey
  apply wp_look hG (o := .head_object _) trivial
  intro r t hw ht
  refine ⟨ht, ?_⟩
  intro info hinfo
  have hheads := hw.2
  rcases r with ⟨size, sha256⟩ | ⟨missing, message⟩
  · obtain ⟨o, ho, -, hsha⟩ := hheads
    cases hinfo
    exact ⟨rfl, o, ho, hsha⟩
  · cases hinfo

theorem wp_verify (hR : Steady R) (hG : ∀ o u, Look o → G o u) {size : Option ℕ} {missing : Bool} :
    wp (met a R) G (verify_object a key digest size missing) (fun r t =>
      R s t ∧ ∀ info, r = .ok info → Headed s key info ∧
        ∀ e ∈ digest, ∀ d ∈ info.sha256, d = e.toLower) s := by
  unfold verify_object
  apply wp_seq (wp_head hR hG)
  · exact fun e t h => ⟨h.1, fun _ h => nomatch h⟩
  intro info t ht
  apply wp_refuse_if_seq (fun _ => ⟨ht.1, fun _ h => nomatch h⟩)
  intro _
  apply wp_refuse_if_seq (fun _ => ⟨ht.1, fun _ h => nomatch h⟩)
  intro _
  apply wp_refuse_if_seq (fun _ => ⟨ht.1, fun _ h => nomatch h⟩)
  intro hsame
  apply wp_refuse_if_seq (fun _ => ⟨ht.1, fun _ h => nomatch h⟩)
  intro _
  refine ⟨ht.1, ?_⟩
  intro info' hinfo
  obtain rfl := Except.ok.inj hinfo
  refine ⟨ht.2 info rfl, ?_⟩
  intro e he d hd
  by_contra hne
  exact hsame ⟨e, he, d, hd, hne⟩

/-- The object was there at some moment since, with these bytes. -/
def Seen (R : Store → Store → Prop) (s : Store) (key : Key) (body : Body) (t : Store) : Prop :=
  ∃ u o, R s u ∧ R u t ∧ u.objects key = some o ∧ o.body = body

theorem Seen.later {body : Body} (hR : Steady R) (h : Seen R s key body t) (htu : R t u) :
    Seen R s key body u := by
  obtain ⟨v, o, hsv, hvt, ho, hbody⟩ := h
  exact ⟨v, o, hsv, hR.trans v t u hvt htu, ho, hbody⟩

theorem Seen.earlier {body : Body} (hR : Steady R) (hst : R s t) (h : Seen R t key body u) :
    Seen R s key body u := by
  obtain ⟨v, o, htv, hvu, ho, hbody⟩ := h
  exact ⟨v, o, hR.trans s t v hst htv, hvu, ho, hbody⟩

theorem wp_read_verified (hR : Steady R) (hG : ∀ o u, Look o → G o u) {most : Option ℕ}
    {missing : Bool} :
    wp (met a R) G (read_verified_object a key digest most missing) (fun r t =>
      R s t ∧ ∀ read, r = .ok read → Seen R s key read.2 t ∧
        ∀ e ∈ digest, a.sha256 read.2 = e.toLower) s := by
  unfold read_verified_object
  apply wp_seq (wp_verify hR hG)
  · exact fun e t h => ⟨h.1, fun _ h => nomatch h⟩
  intro info t ht
  have hkey : info.key = key := (ht.2 info rfl).1.1
  apply wp_refuse_if_seq (fun _ => ⟨ht.1, fun _ h => nomatch h⟩)
  intro _
  apply wp_bind'.mpr
  apply wp_look hG (o := .get_object _) trivial
  intro r v hw hv
  have hsv := hR.trans s t v ht.1 hv
  cases r with
  | error e => exact ⟨hsv, fun _ h => nomatch h⟩
  | ok body =>
    apply wp_refuse_if_seq (fun _ => ⟨hsv, fun _ h => nomatch h⟩)
    intro _
    apply wp_refuse_if_seq (fun _ => ⟨hsv, fun _ h => nomatch h⟩)
    intro hmatch
    refine ⟨hsv, ?_⟩
    intro read hread
    obtain rfl := Except.ok.inj hread
    obtain ⟨o, ho, hbody⟩ := hw.2 body rfl
    rw [hkey] at ho
    refine ⟨⟨t, o, ht.1, hv, ho, hbody.symm⟩, ?_⟩
    intro e he
    obtain ⟨-, hdigest⟩ := not_not.mp hmatch
    have hexpected : digest = some e := he
    exact hdigest e.toLower (by simp [hexpected])

theorem wp_download (hR : Steady R) (hG : ∀ o u, Look o → G o u) {missing : Bool} :
    wp (met a R) G (download_verified a key digest missing) (fun r t =>
      R s t ∧ ∀ read, r = .ok read → Seen R s key read.2 t) s := by
  unfold download_verified
  apply wp_seq (wp_verify hR hG)
  · exact fun e t h => ⟨h.1, fun _ h => nomatch h⟩
  intro info t ht
  have hkey : info.key = key := (ht.2 info rfl).1.1
  apply wp_bind'.mpr
  apply wp_look hG (o := .download_file _) trivial
  intro r v hw hv
  have hsv := hR.trans s t v ht.1 hv
  cases r with
  | error e => exact ⟨hsv, fun _ h => nomatch h⟩
  | ok body =>
    apply wp_refuse_if_seq (fun _ => ⟨hsv, fun _ h => nomatch h⟩)
    intro _
    refine ⟨hsv, ?_⟩
    intro read hread
    obtain rfl := Except.ok.inj hread
    obtain ⟨o, ho, hbody⟩ := hw.2 body rfl
    rw [hkey] at ho
    exact ⟨t, o, ht.1, hv, ho, hbody.symm⟩

theorem wp_download_manifest (hR : Steady R) (hG : ∀ o u, Look o → G o u) :
    wp (met a R) G (download_manifest a name) (fun r t =>
      R s t ∧ ∀ body, r = .ok body → Seen R s (manifest_key name) body t) s := by
  unfold download_manifest
  apply wp_seq (wp_looks hR hG looks_not_abandoned)
  · exact fun e t h => ⟨h, fun _ h => nomatch h⟩
  intro _ t₁ h₁
  apply wp_seq (wp_download hR hG)
  · exact fun e t h => ⟨hR.trans _ _ _ h₁ h.1, fun _ h => nomatch h⟩
  intro read t₂ h₂
  apply wp_seq (wp_looks hR hG looks_not_abandoned)
  · exact fun e t h => ⟨hR.trans _ _ _ h₁ (hR.trans _ _ _ h₂.1 h), fun _ h => nomatch h⟩
  intro _ t₃ h₃
  refine ⟨hR.trans _ _ _ h₁ (hR.trans _ _ _ h₂.1 h₃), ?_⟩
  intro body hbody
  obtain rfl := Except.ok.inj hbody
  exact ((h₂.2 read rfl).later hR h₃).earlier hR h₁

/-- A manifest that was loaded was that of the backup's completion marker. -/
theorem wp_load_manifest (hR : Steady R) (hG : ∀ o u, Look o → G o u)
    {environment backup_id : String} :
    wp (met a R) G (load_remote_manifest a ctx environment backup_id) (fun r t =>
      R s t ∧ ∀ m, r = .ok m → ∃ body now, Seen R s (manifest_key backup_id) body t ∧
        manifest_of a ctx environment backup_id now body = .ok m) s := by
  unfold load_remote_manifest
  apply wp_seq (wp_looks hR hG looks_not_abandoned)
  · exact fun e t h => ⟨h, fun _ h => nomatch h⟩
  intro _ t₁ h₁
  apply wp_seq (wp_download_manifest hR hG)
  · exact fun e t h => ⟨hR.trans _ _ _ h₁ h.1, fun _ h => nomatch h⟩
  intro body t₂ h₂
  have hs₂ := hR.trans _ _ _ h₁ h₂.1
  apply wp_seq (wp_looks hR hG looks_not_abandoned)
  · exact fun e t h => ⟨hR.trans _ _ _ hs₂ h, fun _ h => nomatch h⟩
  intro _ t₃ h₃
  have hs₃ := hR.trans _ _ _ hs₂ h₃
  apply wp_bind'.mpr
  apply wp_look hG (o := .now) trivial
  intro now t₄ _ h₄
  apply wp_ofExcept.mpr
  refine ⟨hR.trans _ _ _ hs₃ h₄, ?_⟩
  intro m hm
  have hseen := (h₂.2 body rfl).later hR (hR.trans _ _ _ h₃ h₄)
  exact ⟨body, now, hseen.earlier hR h₁, hm⟩

theorem mem_keyed {item : S3ObjectInfo} {items : List S3ObjectInfo} (h : item ∈ keyed items) :
    item ∈ items := by
  induction items with
  | nil => cases h
  | cons first rest ih =>
    unfold keyed at h
    split at h
    · exact List.mem_cons_of_mem _ (ih h)
    · rcases List.mem_cons.mp h with rfl | h
      · exact List.mem_cons_self
      · exact List.mem_cons_of_mem _ (ih h)

theorem key_mem_keyed {items : List S3ObjectInfo} (h : key ∈ items.map S3ObjectInfo.key) :
    key ∈ (keyed items).map S3ObjectInfo.key := by
  induction items with
  | nil => cases h
  | cons first rest ih =>
    unfold keyed
    split
    · next hmem =>
      rcases List.mem_cons.mp h with rfl | h
      · exact ih hmem
      · exact ih h
    · rcases List.mem_cons.mp h with rfl | h
      · exact List.mem_cons_self
      · exact List.mem_cons_of_mem _ (ih h)

theorem mem_sorted {item : S3ObjectInfo} {items : List S3ObjectInfo} :
    item ∈ sorted_objects a items ↔ item ∈ keyed items :=
  (List.perm_insertionSort _ _).mem_iff

variable {scope : Option String}

theorem Lists.sorted {items : List S3ObjectInfo} (h : Lists a s scope items) :
    Lists a s scope (sorted_objects a items) where
  all := by
    intro key o ho hscope
    obtain ⟨item, hitem, hkey⟩ := List.mem_map.mp (key_mem_keyed (h.all key o ho hscope))
    exact List.mem_map.mpr ⟨item, mem_sorted.mpr hitem, hkey⟩
  current := fun item hitem => h.current item (mem_keyed (mem_sorted.mp hitem))
  within := fun item hitem => h.within item (mem_keyed (mem_sorted.mp hitem))

theorem listed_eq {item item' : S3ObjectInfo} (h : listed a scope item = .ok item') :
    item' = item := by
  unfold listed at h
  obtain ⟨key, -, h⟩ := CheckedLists.bind_eq_ok.mp h
  split at h
  · exact (Except.ok.inj h).symm
  · cases h

theorem mapM_listed_eq {items items' : List S3ObjectInfo}
    (h : items.mapM (listed a scope) = .ok items') : items' = items := by
  have hall := CheckedLists.mapM_eq_ok.mp h
  clear h
  induction hall with
  | nil => rfl
  | cons hfirst _ ih => rw [listed_eq hfirst, ih]

theorem wp_list (hR : Steady R) (hG : ∀ o u, Look o → G o u) :
    wp (met a R) G (list_objects a scope) (fun r t =>
      R s t ∧ ∀ items, r = .ok items → Lists a s scope items) s := by
  have hrest : wp (met a R) G (do
      let items ← .perform (F := Backups) (.list_objects scope) (Except.mapError
        (provider_error a s!"list prefix {PythonText.quoted (query_text a scope)}"))
      let items ← .ofExcept (items.mapM (listed a scope))
      .pure (sorted_objects a items)) (fun r t =>
      R s t ∧ ∀ items, r = .ok items → Lists a s scope items) s := by
    apply wp_bind'.mpr
    apply wp_look hG (o := .list_objects _) trivial
    intro r t hw ht
    cases r with
    | error e => exact ⟨ht, fun _ h => nomatch h⟩
    | ok items =>
      apply wp_ofExcept_seq (fun _ _ => ⟨ht, fun _ h => nomatch h⟩)
      intro items' hitems
      obtain rfl := mapM_listed_eq hitems
      refine ⟨ht, ?_⟩
      intro sorted hsorted
      obtain rfl := Except.ok.inj hsorted
      exact (hw.2 items' rfl).sorted
  unfold list_objects listing_name
  cases scope with
  | none => exact hrest
  | some n =>
    apply wp_bind'.mpr
    apply wp_backup_name_seq (fun _ => ⟨hR.refl s, fun _ h => nomatch h⟩)
    exact hrest

end Facts

/-! ## A store that answers -/

/-- The objects and the files as lists, and every key that was ever stored. -/
structure Shelf where
  objects : List (Key × Stored)
  files : List (LocalPath × Body)
  stored : List Key
  deriving DecidableEq, Repr

def Shelf.store (s : Shelf) : Store where
  objects := fun key => s.objects.lookup key
  files := fun path => s.files.lookup path
  marked := fun id => manifest_key id ∈ s.stored

/-- The entries of the other keys. -/
def others {κ β : Type} [DecidableEq κ] (key : κ) (entries : List (κ × β)) : List (κ × β) :=
  entries.filter fun e => e.1 ≠ key

instance (name : Option String) (key : Key) : Decidable (InScope name key) :=
  inferInstanceAs (Decidable (∀ n ∈ name, _))

def Shelf.listing (a : S3Adapter) (s : Shelf) (name : Option String) : List S3ObjectInfo :=
  (s.objects.filter fun e => InScope name e.1).filterMap fun e =>
    (s.objects.lookup e.1).map fun o =>
      { key := e.1, size := a.size o.body, last_modified := o.last_modified }

def Shelf.read (s : Shelf) (key : Key) : Except String Body :=
  match s.objects.lookup key with
  | some o => .ok o.body
  | none => .error "NoSuchKey"

/-- Every request is completed and objects are stamped with the current time. -/
def serve (a : S3Adapter) (now : Timestamp) : (o : BackupCall) → Shelf → o.Answer × Shelf
  | .head_object key, s => match s.objects.lookup key with
    | some o => (.found (a.size o.body) o.sha256, s)
    | none => (.error true "NoSuchKey", s)
  | .list_objects name, s => (.ok (s.listing a name), s)
  | .upload_file source key sha256, s => match s.files.lookup source with
    | some body => (.ok (), { s with
        objects := (key, ⟨body, some sha256, some now⟩) :: s.objects, stored := key :: s.stored })
    | none => (.error "No such file or directory", s)
  | .get_object key, s | .download_file key, s => (s.read key, s)
  | .delete_object key, s => (.ok (), { s with objects := others key s.objects })
  | .now, s => (now, s)
  | .random_hex, s => ("5eed", s)
  | .kind path, s => (match path with
    | .backup _ [] => .directory
    | path => if (s.files.lookup path).isSome then .file else .absent, s)
  | .modified _, s | .iterdir, s | .odoo_config, s | .git_commit, s => (.error "unavailable", s)
  | .rglob dir, s => (.ok (s.files.filterMap fun e => match e.1 with
    | .backup other relative => if other = dir then some (relative, .file) else none
    | .state _ => none), s)
  | .read_file path, s => match s.files.lookup path with
    | some body => (.ok body, s)
    | none => (.error "No such file or directory", s)
  | .write_file path body, s => (.ok (), { s with files := (path, body) :: s.files })
  | .create_file path body, s => match s.files.lookup path with
    | some _ => (.error "File exists", s)
    | none => (.ok (), { s with files := (path, body) :: s.files })
  | .replace source target, s => match s.files.lookup source with
    | some body => (.ok (), { s with files := others source ((target, body) :: s.files) })
    | none => (.error "No such file or directory", s)
  | .unlink path, s => (.ok (), { s with files := others path s.files })
  | .mkdir _, s | .rmdir _, s | .rename .., s | .produce _, s => (.error "Permission denied", s)
  | .fsync _, s | .metadata _, s => (.ok (), s)

section Serving

variable {κ β : Type} [DecidableEq κ] [BEq κ] [LawfulBEq κ]

theorem lookup_update (key : κ) (value : β) (entries : List (κ × β)) :
    (fun k => List.lookup k ((key, value) :: entries)) =
      Function.update (fun k => List.lookup k entries) key (some value) := by
  funext k
  by_cases h : k = key
  · subst h
    simp
  · have hne : (k == key) = false := by simpa using h
    simp [List.lookup_cons, hne, Function.update_of_ne h]

theorem lookup_others (key : κ) (entries : List (κ × β)) :
    (fun k => List.lookup k (others key entries)) =
      Function.update (fun k => List.lookup k entries) key none := by
  funext k
  induction entries with
  | nil => simp [others, Function.update_apply]
  | cons e rest ih =>
    obtain ⟨k', value⟩ := e
    unfold others at ih ⊢
    by_cases hkey : k' = key
    · subst hkey
      rw [List.filter_cons_of_neg (by simp), ih]
      by_cases hk : k = k'
      · simp [hk]
      · have hne : (k == k') = false := by simpa using hk
        simp [Function.update_of_ne hk, List.lookup_cons, hne]
    · rw [List.filter_cons_of_pos (by simpa using hkey)]
      by_cases hk : k = k'
      · subst hk
        simp [List.lookup_cons, Function.update_of_ne hkey]
      · have hne : (k == k') = false := by simpa using hk
        rw [List.lookup_cons, hne, ih]
        simp [Function.update_apply, List.lookup_cons, hne]

end Serving

variable {now : Timestamp} {v : Shelf}

theorem Shelf.put {key : Key} {o : Stored} :
    (Shelf.mk ((key, o) :: v.objects) v.files (key :: v.stored)).store = v.store.put key o := by
  have hmarked : (fun id => manifest_key id ∈ key :: v.stored) = fun id =>
      manifest_key id ∈ v.stored ∨ key = manifest_key id := by
    funext id
    rw [List.mem_cons, Or.comm, @eq_comm _ key]
  simp only [Shelf.store, Store.put, hmarked]
  rw [lookup_update]

theorem lists_listing (name : Option String) : Lists a v.store name (v.listing a name) where
  all := by
    intro key o ho hscope
    have hmem : ∃ o', (key, o') ∈ v.objects := by
      by_contra hnone
      have hlookup : v.objects.lookup key = none := by
        rw [List.lookup_eq_none_iff]
        intro e he
        rw [bne_iff_ne]
        rintro rfl
        exact hnone ⟨e.2, he⟩
      exact Option.some_ne_none o (ho.symm.trans hlookup)
    obtain ⟨o', ho'⟩ := hmem
    have ho : v.objects.lookup key = some o := ho
    refine List.mem_map.mpr ⟨_, List.mem_filterMap.mpr ⟨(key, o'), ?_, by rw [ho]; rfl⟩, rfl⟩
    exact List.mem_filter.mpr ⟨ho', decide_eq_true hscope⟩
  current := by
    intro item hitem
    obtain ⟨e, -, he⟩ := List.mem_filterMap.mp hitem
    obtain ⟨o, ho, rfl⟩ := Option.map_eq_some_iff.mp he
    exact ⟨o, ho, rfl, rfl⟩
  within := by
    intro item hitem
    obtain ⟨e, he, hitem⟩ := List.mem_filterMap.mp hitem
    obtain ⟨o, ho, rfl⟩ := Option.map_eq_some_iff.mp hitem
    exact of_decide_eq_true (List.mem_filter.mp he).2

theorem serve_world (o : BackupCall) (v : Shelf) :
    storeWorld a o v.store (serve a now o v).1 (serve a now o v).2.store := by
  cases o with
  | head_object key =>
    cases h : v.objects.lookup key with
    | none => simp [storeWorld, serve, h, heads, Shelf.store]
    | some o => simp [storeWorld, serve, h, heads, Shelf.store]
  | list_objects name =>
    refine ⟨rfl, ?_⟩
    intro items hitems
    obtain rfl := Except.ok.inj hitems
    exact lists_listing name
  | upload_file source key sha256 =>
    cases h : v.files.lookup source with
    | none => exact .inr (by simp [serve, h])
    | some body =>
      refine .inl ⟨body, some now, h, ?_⟩
      simp only [serve, h]
      exact Shelf.put
  | get_object key | download_file key =>
    refine ⟨rfl, ?_⟩
    intro body hbody
    change v.read key = .ok body at hbody
    unfold Shelf.read at hbody
    split at hbody
    next o ho => exact ⟨o, ho, (Except.ok.inj hbody).symm⟩
    · cases hbody
  | delete_object key =>
    left
    simp only [serve, Shelf.store, Store.delete]
    rw [lookup_others]
  | read_file path =>
    cases h : v.files.lookup path with
    | none => simp [storeWorld, serve, h]
    | some body => simp [storeWorld, serve, h, Shelf.store]
  | write_file path body =>
    left
    simp only [serve, Shelf.store, Store.write]
    rw [lookup_update]
  | create_file path body =>
    cases h : v.files.lookup path with
    | some other => exact .inr (by simp [serve, h])
    | none =>
      refine .inl ⟨h, .inl ?_⟩
      simp only [serve, h, Shelf.store, Store.write]
      rw [lookup_update]
  | replace source target =>
    cases h : v.files.lookup source with
    | none => exact .inr (by simp [serve, h])
    | some body =>
      refine .inl ⟨body, h, ?_⟩
      simp only [serve, h, Shelf.store, Store.write, Store.remove]
      rw [lookup_others, lookup_update]
  | unlink path =>
    left
    simp only [serve, Shelf.store, Store.remove]
    rw [lookup_others]
  | produce path => exact .inl rfl
  | rename source target => exact ⟨v.store.files, rfl⟩
  | now | random_hex | kind | modified | iterdir | rglob | mkdir | rmdir | fsync | odoo_config
  | git_commit | metadata => rfl

end RemoteWorld
