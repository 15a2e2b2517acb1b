import Odooctl.AdvertisedBackups

/-!
# What a retention pass removes

A pass over a store that nobody else changes touches the objects of superseded backups and of
prefixes that were given up long ago, and nothing else. What it reports as deleted is gone.
-/
namespace RemotePruningSafety

open EffectPrograms ProgramRules PythonJson BackupManifests RemoteStore RemoteBackups RemoteWorld
open AdvertisedBackups (manifest_of_id mem_ordered fenced_delete exampleAdapter exampleContext
  exampleManifest exampleNow artifactBody exampleDigest)
open PitrRetention (HOUR compareKey perm_newestFirst sorted_newestFirst)
open PitrRestoreRecord (Timestamp)

/-! ## What may be removed -/

section Specification

variable (a : S3Adapter) (ctx : BackupContext) (latest : Timestamp) (environment : String)
  (protected_backup_ids : List String) (found : List Candidate) (s : Store)

/-- A complete backup of this environment, as the store has it. -/
structure Recognised (c : Candidate) : Prop where
  named : named_for environment c.id = true
  unfenced : ¬ Fenced s c.id
  owner : c.manifest.project = ctx.project ∧ c.manifest.environment = environment
  marker : ∃ o now, s.objects (manifest_key c.id) = some o ∧
    manifest_of a ctx environment c.id now o.body = .ok c.manifest ∧
      ∀ t ∈ c.completed_at, o.last_modified = some t

/-- No backup that was recognised is newer. -/
structure Newest (c : Candidate) : Prop where
  member : c ∈ found
  newest : ∃ t, parsed_timestamp a c.manifest = .ok t ∧ ∀ d ∈ found, ∃ u,
    parsed_timestamp a d.manifest = .ok u ∧ (compareKey (u, d.id) (t, c.id)).isLE = true

/-- A recognised backup that nothing asks to keep. -/
structure Expired (id : String) : Prop where
  unprotected : id ∉ protected_backup_ids
  superseded : ∃ c, Newest a found c ∧ c.id ≠ id
  untiered : ∃ ordered, ordered_candidates a found = .ok ordered ∧
    id ∉ gfs_ids ctx.retention.daily ctx.retention.weekly ctx.retention.monthly
      (ordered.map age_key)
  old : ∃ c ∈ found, c.id = id ∧ ∃ t, c.completed_at = some t ∧
    t + ctx.retention.grace_hours * HOUR < latest

/-- A prefix that its publisher gave up, and where nothing is recent or of unknown age. -/
structure Orphaned (id : String) : Prop where
  fence : ∃ o raw, s.objects (abandonment_key id) = some o ∧
    a.loads o.body = .ok (.dict raw) ∧ valid_marker ctx environment id raw = true
  old : ∃ remote, ctx.remote = some remote ∧ ∀ name relative o,
    s.objects (id :: name :: relative) = some o →
      ∃ t, o.last_modified = some t ∧ t + remote.orphan_grace_hours * HOUR ≤ latest

def Removable (id : String) : Prop :=
  named_for environment id = true ∧
    (Expired a ctx latest protected_backup_ids found id ∨ Orphaned a ctx latest environment s id)

end Specification

/-! ## Operations that spare the other backups -/

variable {a : S3Adapter} {ctx : BackupContext} {latest : Timestamp} {environment : String}
  {protected_backup_ids : List String} {found : List Candidate} {s t u : Store}
  {P : String → Prop} {id : String} {ids : List String} {α : Type}

def Until (latest : Timestamp) : (o : BackupCall) → o.Answer → Prop
  | .now, t => t ≤ latest
  | _, _ => True

/-- Nobody else changes the store, and no clock reads later than `latest`. -/
def timedWorld (a : S3Adapter) (latest : Timestamp) : World Backups Store :=
  fun o s r t => storeWorld a o s r t ∧ Until latest o r

def Spares (P : String → Prop) : BackupCall → Prop
  | .delete_object key =>
    ∃ id name relative, key = id :: name :: relative ∧ key ≠ abandonment_key id ∧ P id
  | .upload_file _ key _ => ∃ id, key = abandonment_key id ∧ P id
  | _ => True

/-- Nothing but a fence is left of the backup. -/
def Cleared (id : String) (s : Store) : Prop :=
  ∀ name relative, id :: name :: relative ≠ abandonment_key id →
    s.objects (id :: name :: relative) = none

/-- The objects of the other backups are what they were, every fence is still there and
`ids` are cleared. -/
structure Kept (P : String → Prop) (s : Store) (ids : List String) (t : Store) : Prop where
  objects : ∀ id, ¬ P id → ∀ relative, t.objects (id :: relative) = s.objects (id :: relative)
  fences : ∀ id, Fenced s id → Fenced t id
  cleared : ∀ id ∈ ids, Cleared id t

theorem Kept.start : Kept P s [] s := ⟨fun _ _ _ => rfl, fun _ h => h, fun _ h => by cases h⟩

theorem Kept.files (h : Kept P s ids t) (hobjects : u.objects = t.objects) : Kept P s ids u where
  objects := fun id hid relative => by rw [hobjects, h.objects id hid]
  fences := fun id hid => by simpa [Fenced, hobjects] using h.fences id hid
  cleared := fun id hid name relative hne => by rw [hobjects, h.cleared id hid name relative hne]

theorem Kept.delete {name : String} {relative : List String} (h : Kept P s ids t) (hid : P id)
    (hne : id :: name :: relative ≠ abandonment_key id) :
    Kept P s ids (t.delete (id :: name :: relative)) where
  objects := by
    intro other hother relative'
    have hkey : other :: relative' ≠ id :: name :: relative := by
      intro heq
      rw [(List.cons.inj heq).1] at hother
      exact hother hid
    rw [← h.objects other hother]
    exact Function.update_of_ne hkey _ _
  fences := by
    intro other hother
    apply fenced_delete _ (h.fences other hother)
    intro heq
    obtain rfl := (List.cons.inj heq).1
    exact hne heq
  cleared := by
    intro other hother name' relative' hne'
    unfold Store.delete
    by_cases hkey : other :: name' :: relative' = id :: name :: relative
    · simp [hkey]
    · simpa [Function.update_of_ne hkey] using h.cleared other hother name' relative' hne'

theorem Kept.put {o : Stored} (h : Kept P s ids t) (hid : P id) :
    Kept P s ids (t.put (abandonment_key id) o) where
  objects := by
    intro other hother relative
    have hkey : other :: relative ≠ abandonment_key id := by
      intro heq
      rw [(List.cons.inj heq).1] at hother
      exact hother hid
    rw [← h.objects other hother]
    exact Function.update_of_ne hkey _ _
  fences := by
    intro other hother
    have hfence := h.fences other hother
    unfold Fenced Store.put at *
    by_cases hkey : abandonment_key other = abandonment_key id
    · simp [hkey]
    · simpa [Function.update_of_ne hkey] using hfence
  cleared := by
    intro other hother name relative hne
    have hkey : other :: name :: relative ≠ abandonment_key id := by
      intro heq
      obtain rfl := (List.cons.inj heq).1
      exact hne heq
    rw [← h.cleared other hother name relative hne]
    exact Function.update_of_ne hkey _ _

theorem Kept.step {o : BackupCall} {r : o.Answer} (h : Kept P s ids t) (ho : Spares P o)
    (hw : timedWorld a latest o t r u) : Kept P s ids u := by
  have hw := hw.1
  cases o with
  | upload_file source key digest =>
    obtain ⟨id, rfl, hid⟩ := ho
    rcases hw with ⟨body, time, -, rfl⟩ | ⟨rfl, -⟩
    · exact h.put hid
    · exact h
  | delete_object key =>
    obtain ⟨id, name, relative, rfl, hne, hid⟩ := ho
    rcases hw with rfl | ⟨rfl, -⟩
    · exact h.delete hid hne
    · exact h
  | write_file path body =>
    rcases hw with rfl | ⟨-, rfl | ⟨other, rfl⟩⟩ <;> exact h.files rfl
  | create_file path body =>
    rcases hw with ⟨-, rfl | ⟨-, rfl | ⟨other, rfl⟩⟩⟩ | ⟨rfl, -⟩ <;> exact h.files rfl
  | replace source target =>
    rcases hw with ⟨body, -, rfl⟩ | ⟨rfl, -⟩ <;> exact h.files rfl
  | unlink path => rcases hw with rfl | rfl <;> exact h.files rfl
  | produce path => rcases hw with rfl | ⟨body, rfl⟩ <;> exact h.files rfl
  | rename source target =>
    obtain ⟨files, rfl⟩ := hw
    exact h.files rfl
  | head_object | list_objects | get_object | download_file | read_file =>
    rw [hw.1]
    exact h
  | now | random_hex | kind | modified | iterdir | rglob | mkdir | rmdir | fsync | odoo_config
  | git_commit | metadata =>
    rw [hw]
    exact h

theorem spares_look {o : BackupCall} (h : Look o) : Spares P o := by
  cases o with
  | upload_file | delete_object | write_file | create_file | replace | unlink | produce | rename
  | mkdir | rmdir => cases h
  | head_object | list_objects | get_object | download_file | read_file | now | random_hex | kind
  | modified | iterdir | rglob | fsync | odoo_config | git_commit | metadata => trivial

/-! ## Programs under this rule -/

abbrev Sparing (P : String → Prop) : BackupCall → Store → Prop := fun o _ => Spares P o

theorem steady_eq : Steady fun s t : Store => s = t := ⟨fun _ => rfl, fun _ _ _ => Eq.trans⟩

/-- What holds beside nobody holds in this world. -/
theorem wp_timed {G : BackupCall → Store → Prop} {p : BackupM α}
    {Q : Except BackupError α → Store → Prop} (h : wp (met a fun s t => s = t) G p Q s) :
    wp (timedWorld a latest) G p Q s :=
  wp_world h fun _ _ _ t hw => ⟨t, hw.1, rfl⟩

theorem wp_kept {p : BackupM α} {Q : Except BackupError α → Store → Prop}
    (h : wp (timedWorld a latest) (Sparing P) p Q t) (ht : Kept P s ids t) :
    wp (timedWorld a latest) (Sparing P) p (fun r u => Q r u ∧ Kept P s ids u) t :=
  wp_mono (wp_stable h ht fun _ _ _ _ ho hu hw => hu.step ho hw) (fun _ _ h => h.1) fun _ _ h => h

theorem wp_still {p : BackupM α} (h : p.Calls Look) :
    wp (timedWorld a latest) (Sparing P) p (fun _ t => s = t) s :=
  wp_timed (wp_looks steady_eq (fun _ _ => spares_look) h)

theorem wp_clock : wp (timedWorld a latest) (Sparing P) clock
    (fun r t => s = t ∧ ∀ time, r = .ok time → time ≤ latest) s := by
  apply wp_perform.mpr
  refine ⟨trivial, ?_⟩
  rintro r t ⟨rfl, huntil⟩
  refine ⟨rfl, ?_⟩
  intro time htime
  obtain rfl := Except.ok.inj htime
  exact huntil

theorem wp_calls {p : BackupM α} (h : p.Calls (Spares P)) :
    wp (timedWorld a latest) (Sparing P) p (fun _ _ => True) s :=
  wp_of_calls h (fun _ _ ho => ho) s

theorem spares_write_atomic {path : LocalPath} {payload : Body} :
    (write_atomic path payload).Calls (Spares P) := by
  unfold write_atomic
  apply calls_bind (calls_perform.mpr trivial)
  intro token
  apply calls_ensuring
  · exact calls_bind (calls_perform.mpr trivial) fun _ =>
      calls_bind (calls_perform.mpr trivial) fun _ => calls_perform.mpr trivial
  · exact calls_perform.mpr trivial

theorem spares_of_look {p : BackupM α} (h : p.Calls Look) : p.Calls (Spares P) :=
  calls_mono h fun _ => spares_look

theorem spares_upload {source : LocalPath} (hid : P id) :
    (upload_object a source (abandonment_key id)).Calls (Spares P) := by
  unfold upload_object
  apply calls_bind (calls_perform.mpr trivial)
  intro _
  apply calls_bind calls_refuse_if
  intro _
  apply calls_ofExcept_bind
  intro key hkey
  obtain rfl := scoped_key_eq hkey
  apply calls_bind (calls_perform.mpr trivial)
  intro _
  apply calls_bind (calls_perform.mpr ⟨id, rfl, hid⟩)
  exact fun _ => spares_of_look looks_verify

theorem spares_mark_abandoned {manifest : BackupManifest} (h : P manifest.backup_id) :
    (mark_remote_abandoned a manifest).Calls (Spares P) := by
  unfold mark_remote_abandoned
  apply calls_bind (calls_perform.mpr trivial)
  intro _
  apply calls_bind (calls_perform.mpr trivial)
  intro _
  apply calls_bind (calls_perform.mpr trivial)
  intro token
  apply calls_ensuring
  · apply calls_bind spares_write_atomic
    intro _
    apply calls_backup_name_bind
    apply calls_bind (spares_upload h)
    intro uploaded
    apply calls_bind (calls_perform.mpr trivial)
    exact fun _ => calls_bind (spares_of_look looks_verify_content) fun _ => calls_pure _
  · exact calls_perform.mpr trivial

theorem spares_mark_incomplete {manifest : BackupManifest} (h : P manifest.backup_id) :
    (mark_incomplete_for_cleanup a manifest).Calls (Spares P) := by
  unfold mark_incomplete_for_cleanup
  apply calls_bind (spares_of_look looks_list_objects)
  intro objects
  dsimp only
  split
  · exact calls_pure _
  split
  · exact calls_pure _
  · exact spares_mark_abandoned h

/-! ## Deleting a backup -/

/-- Keys of a backup that are not its fence. -/
def Payload (id : String) (key : Key) : Prop :=
  key ≠ abandonment_key id ∧ ∃ name relative, key = id :: name :: relative

theorem wp_delete_keys {keys : List Key} (hkeys : ∀ key ∈ keys, Payload id key) (hid : P id) :
    wp (timedWorld a latest) (Sparing P) (delete_keys a keys) (fun r t => r = .ok () →
      ∀ key, t.objects key = if key ∈ keys then none else s.objects key) s := by
  induction keys generalizing s with
  | nil =>
    intro _ key
    simp
  | cons first rest ih =>
    obtain ⟨hne, name, relative, rfl⟩ := hkeys first List.mem_cons_self
    unfold delete_keys
    apply wp_bind'.mpr
    apply wp_perform.mpr
    refine ⟨⟨id, name, relative, rfl, hne, hid⟩, ?_⟩
    rintro r t ⟨hw, -⟩
    cases r with
    | error e => exact fun h => by cases h
    | ok _ =>
      have hdeleted : t = s.delete (id :: name :: relative) := by
        rcases hw with h | ⟨-, e, h⟩
        · exact h
        · cases h
      subst hdeleted
      apply wp_post (ih fun key hkey => hkeys key (List.mem_cons_of_mem _ hkey))
      intro r u hu hr key
      rw [hu hr key]
      by_cases hfirst : key = id :: name :: relative
      · simp [Store.delete, hfirst]
      · simp [Store.delete, hfirst]

theorem wp_delete_backup (hid : P id) :
    wp (timedWorld a latest) (Sparing P) (delete_backup a id)
      (fun r t => r = .ok () → Cleared id t) s := by
  unfold delete_backup
  apply wp_backup_name_seq (fun _ h => by cases h)
  apply wp_seq (wp_timed (wp_list steady_eq fun _ _ => spares_look))
  · exact fun _ _ _ h => by cases h
  rintro objects t ⟨rfl, hlists⟩
  have hlists := hlists objects rfl
  apply wp_post
  · apply wp_delete_keys _ hid
    intro key hkey
    rcases List.mem_cons.mp hkey with rfl | hkey
    · exact ⟨AdvertisedBackups.marker_ne_fence, COMPLETION_MARKER, [], rfl⟩
    obtain ⟨hlisted, hne⟩ := List.mem_filter.mp hkey
    obtain ⟨item, hitem, rfl⟩ := List.mem_map.mp hlisted
    obtain ⟨hhead, hlength⟩ := hlists.within item hitem id rfl
    refine ⟨(of_decide_eq_true hne).2, ?_⟩
    match item.key, hhead, hlength with
    | first :: name :: relative, hhead, _ =>
      obtain rfl := Option.some.inj hhead
      exact ⟨name, relative, rfl⟩
  · intro r t hdeleted hr name relative hne
    rw [hdeleted hr]
    split
    · rfl
    next hkey =>
    by_contra hsome
    obtain ⟨o, ho⟩ := Option.ne_none_iff_exists'.mp hsome
    have hlisted := hlists.all _ o ho fun n hn => by
      obtain rfl := Option.some.inj hn
      exact ⟨rfl, by simp⟩
    simp only [List.mem_cons, List.mem_filter, not_or, not_and] at hkey
    exact hkey.2 hlisted (by simp [hkey.1, hne])

/-! ## The first pass -/

theorem wp_note_failure {manifest : BackupManifest} {e : BackupError} {done : Pruning}
    (hid : P manifest.backup_id) :
    wp (timedWorld a latest) (Sparing P) (note_failure a manifest e done)
      (fun r _ => ∀ done', r = .ok done' → done'.deleted = done.deleted) s := by
  unfold note_failure
  split
  · intro done' hdone
    obtain rfl := Except.ok.inj hdone
    rfl
  · apply wp_attempt_seq (wp_calls (spares_mark_incomplete hid))
    intro marked t _ done' hdone
    obtain rfl := Except.ok.inj hdone
    rfl

/-- After a failure no more is reported as deleted than before. -/
theorem Kept.note_failure {manifest : BackupManifest} {e : BackupError} {done : Pruning}
    (ht : Kept P s done.deleted t) (hid : P manifest.backup_id) :
    wp (timedWorld a latest) (Sparing P) (note_failure a manifest e done)
      (fun r u => ∀ done', r = .ok done' → Kept P s done'.deleted u) t := by
  apply wp_post (wp_kept (wp_note_failure hid) ht)
  rintro r u ⟨hsame, hu⟩ done' hdone
  rwa [hsame done' hdone]

theorem Kept.append (h : Kept P s ids t) (hid : Cleared id t) : Kept P s (ids ++ [id]) t where
  objects := h.objects
  fences := h.fences
  cleared := by
    intro other hother
    rcases List.mem_append.mp hother with hother | hother
    · exact h.cleared other hother
    · rw [List.mem_singleton.mp hother]
      exact hid

theorem wp_delete_candidate {manifest : BackupManifest} {done : Pruning}
    (ht : Kept P s done.deleted t) (hid : P manifest.backup_id) :
    wp (timedWorld a latest) (Sparing P) (delete_candidate a ctx environment manifest done)
      (fun r u => ∀ done', r = .ok done' → Kept P s done'.deleted u) t := by
  unfold delete_candidate
  apply wp_attempt_seq (wp_kept (wp_still looks_recheck) ht)
  rintro checked u ⟨-, hu⟩
  cases checked with
  | error e => exact hu.note_failure hid
  | ok _ =>
    apply wp_attempt_seq (wp_kept (wp_delete_backup hid) hu)
    rintro result v ⟨hcleared, hv⟩
    cases result with
    | error e => exact Kept.note_failure hv hid
    | ok _ =>
      intro done' hdone
      obtain rfl := Except.ok.inj hdone
      exact hv.append (hcleared rfl)

theorem wp_delete_candidates {keep : List String} {manifests : List BackupManifest}
    {done : Pruning} (ht : Kept P s done.deleted t)
    (hP : ∀ m ∈ manifests, m.backup_id ∉ keep → P m.backup_id) :
    wp (timedWorld a latest) (Sparing P)
      (delete_candidates a ctx environment keep manifests done)
      (fun r u => ∀ done', r = .ok done' → Kept P s done'.deleted u) t := by
  induction manifests generalizing t done with
  | nil =>
    intro done' hdone
    obtain rfl := Except.ok.inj hdone
    exact ht
  | cons manifest rest ih =>
    have hrest := fun m hm => hP m (List.mem_cons_of_mem _ hm)
    unfold delete_candidates
    split
    · exact ih ht hrest
    next hkeep =>
    apply wp_seq (wp_delete_candidate ht (hP manifest List.mem_cons_self hkeep))
    · exact fun _ _ _ _ h => by cases h
    · exact fun done' u hu => ih (hu done' rfl) hrest

/-! ## Prefixes that were given up -/

theorem younger_bound {cutoff : Timestamp} {objects : List S3ObjectInfo}
    (hknown : unknown_age objects = false) (hold : younger cutoff objects = false)
    {item : S3ObjectInfo} (hitem : item ∈ objects) :
    ∃ t, item.last_modified = some t ∧ t ≤ cutoff := by
  unfold unknown_age at hknown
  rw [Bool.or_eq_false_iff, List.any_eq_false] at hknown
  unfold younger at hold
  rw [List.any_eq_false] at hold
  have hage := hknown.2 item hitem
  have hcutoff := hold item hitem
  cases htime : item.last_modified with
  | none => simp [htime] at hage
  | some t =>
    refine ⟨t, rfl, ?_⟩
    simpa [htime] using hcutoff

theorem wp_load_marker : wp (timedWorld a latest) (Sparing P)
    (load_abandonment_marker a ctx id environment) (fun r t => s = t ∧ ∀ token, r = .ok token →
      ∃ o raw, s.objects (abandonment_key id) = some o ∧ a.loads o.body = .ok (.dict raw) ∧
        valid_marker ctx environment id raw = true) s := by
  unfold load_abandonment_marker
  apply wp_backup_name_seq (fun _ => ⟨rfl, fun _ h => by cases h⟩)
  unfold download_object
  apply wp_seq (P := fun r t => s = t ∧ ∀ read, r = .ok read →
    ∃ o, s.objects (abandonment_key id) = some o ∧ o.body = read.2)
  · apply wp_ofExcept_seq (fun _ _ => ⟨rfl, fun _ h => by cases h⟩)
    intro key hkey
    obtain rfl := scoped_key_eq hkey
    apply wp_post (wp_timed (wp_download steady_eq fun _ _ => spares_look))
    rintro r t ⟨rfl, hseen⟩
    refine ⟨rfl, ?_⟩
    intro read hread
    obtain ⟨u, o, rfl, -, ho, hbody⟩ := hseen read hread
    exact ⟨o, ho, hbody⟩
  · exact fun e t h => ⟨h.1, fun _ h => by cases h⟩
  rintro read t ⟨rfl, hread⟩
  obtain ⟨o, ho, hbody⟩ := hread read rfl
  apply wp_ofExcept_seq (fun _ _ => ⟨rfl, fun _ h => by cases h⟩)
  intro _ hcheck
  refine ⟨rfl, ?_⟩
  intro token _
  rw [← hbody] at hcheck
  unfold check_marker at hcheck
  split at hcheck
  · cases hcheck
  next raw hraw =>
    split at hcheck
    next hvalid => exact ⟨o, raw, ho, hraw, hvalid⟩
    · cases hcheck
  · cases hcheck

/-- The prefix that a pass looks at is as it was when the pass began, unless it may be removed
anyway. -/
theorem orphaned_of_current {remote : RemoteBackupConfig} {cutoff : Timestamp}
    {current : List S3ObjectInfo} (hremote : ctx.remote = some remote)
    (hcutoff : cutoff + remote.orphan_grace_hours * HOUR ≤ latest) (ht : Kept P s ids t)
    (hid : ¬ P id) (hlists : Lists a t (some id) current)
    (hage : (unknown_age current || younger cutoff current) = false)
    (hfence : ∃ o raw, t.objects (abandonment_key id) = some o ∧
      a.loads o.body = .ok (.dict raw) ∧ valid_marker ctx environment id raw = true) :
    Orphaned a ctx latest environment s id where
  fence := by
    obtain ⟨o, raw, ho, hmarker⟩ := hfence
    exact ⟨o, raw, by rw [← ho]; exact (ht.objects id hid _).symm, hmarker⟩
  old := by
    refine ⟨remote, hremote, ?_⟩
    intro name relative o ho
    rw [← ht.objects id hid] at ho
    have hlisted := hlists.all _ o ho fun n hn => by
      obtain rfl := Option.some.inj hn
      exact ⟨rfl, by simp⟩
    obtain ⟨item, hitem, hkey⟩ := List.mem_map.mp hlisted
    rw [Bool.or_eq_false_iff] at hage
    obtain ⟨time, htime, hold⟩ := younger_bound hage.1 hage.2 hitem
    obtain ⟨o', ho', -, hmodified⟩ := hlists.current item hitem
    obtain rfl : o' = o := Option.some.inj (ho'.symm.trans (hkey ▸ ho))
    exact ⟨time, hmodified ▸ htime, (Nat.add_le_add_right hold _).trans hcutoff⟩

theorem wp_reclaim {remote : RemoteBackupConfig} {cutoff : Timestamp}
    (hremote : ctx.remote = some remote)
    (hcutoff : cutoff + remote.orphan_grace_hours * HOUR ≤ latest) (ht : Kept P s ids t)
    (hP : Orphaned a ctx latest environment s id → P id) :
    wp (timedWorld a latest) (Sparing P) (reclaim a ctx environment cutoff id)
      (fun r u => r = .ok true → Cleared id u) t := by
  unfold reclaim
  apply wp_seq (wp_timed (wp_list steady_eq fun _ _ => spares_look))
  · exact fun _ _ _ h => by cases h
  rintro current t ⟨rfl, hlists⟩
  apply wp_seq (wp_still looks_fence)
  · exact fun _ _ _ h => by cases h
  rintro fenced t rfl
  split
  · exact fun h => by cases h
  split
  · exact fun h => by cases h
  split
  · exact fun h => by cases h
  next hage =>
  apply wp_seq wp_load_marker
  · exact fun _ _ _ h => by cases h
  rintro token t ⟨rfl, hmarker⟩
  have hid : P id := by
    by_contra hid
    exact hid (hP (orphaned_of_current hremote hcutoff ht hid (hlists current rfl)
      (Bool.not_eq_true _ ▸ hage) (hmarker token rfl)))
  apply wp_seq (wp_delete_backup hid)
  · exact fun _ _ _ h => by cases h
  · exact fun _ _ hcleared _ => hcleared rfl

theorem wp_clean_group {remote : RemoteBackupConfig} {cutoff : Timestamp}
    {objects : List S3ObjectInfo} {done : Pruning} (hremote : ctx.remote = some remote)
    (hcutoff : cutoff + remote.orphan_grace_hours * HOUR ≤ latest)
    (ht : Kept P s done.deleted t) (hP : Orphaned a ctx latest environment s id → P id) :
    wp (timedWorld a latest) (Sparing P) (clean_group a ctx environment cutoff id objects done)
      (fun r u => ∀ done', r = .ok done' → Kept P s done'.deleted u) t := by
  unfold clean_group
  have hfence : (has_abandonment_fence a id (objects.map S3ObjectInfo.key)).Calls Look :=
    calls_ite (calls_pure _) looks_fence
  apply wp_seq (wp_kept (wp_still hfence) ht)
  · exact fun _ _ _ _ h => by cases h
  rintro fenced u ⟨-, hu⟩
  have hsame : ∀ done', (Except.ok done : Except BackupError Pruning) = .ok done' →
      Kept P s done'.deleted u := by
    intro done' hdone
    obtain rfl := Except.ok.inj hdone
    exact hu
  split
  · exact hsame
  split
  · exact hsame
  split
  · exact hsame
  split
  · intro done' hdone
    obtain rfl := Except.ok.inj hdone
    exact hu
  unfold reclaim_group
  apply wp_attempt_seq (wp_kept (wp_reclaim hremote hcutoff hu hP) hu)
  rintro result v ⟨hcleared, hv⟩
  split
  · intro done' hdone
    obtain rfl := Except.ok.inj hdone
    exact hv
  · intro done' hdone
    obtain rfl := Except.ok.inj hdone
    split
    · exact hv
    · exact hv.append (hcleared rfl)
  · intro done' hdone
    obtain rfl := Except.ok.inj hdone
    exact hv

theorem wp_clean_groups {remote : RemoteBackupConfig} {cutoff : Timestamp}
    {groups : List (String × List S3ObjectInfo)} {done : Pruning}
    (hremote : ctx.remote = some remote)
    (hcutoff : cutoff + remote.orphan_grace_hours * HOUR ≤ latest)
    (ht : Kept P s done.deleted t)
    (hP : ∀ id, named_for environment id = true → Orphaned a ctx latest environment s id → P id) :
    wp (timedWorld a latest) (Sparing P) (clean_groups a ctx environment cutoff groups done)
      (fun r u => ∀ done', r = .ok done' → Kept P s done'.deleted u) t := by
  induction groups generalizing t done with
  | nil =>
    intro done' hdone
    obtain rfl := Except.ok.inj hdone
    exact ht
  | cons first rest ih =>
    obtain ⟨backup_id, objects⟩ := first
    unfold clean_groups
    split
    · exact ih ht
    next hskip =>
    have hname := Bool.not_eq_false _ ▸ (not_or.mp hskip).1
    apply wp_seq (wp_clean_group hremote hcutoff ht (hP backup_id hname))
    · exact fun _ _ _ _ h => by cases h
    · exact fun done' u hu => ih (hu done' rfl)

/-! ## What is recognised -/

theorem manifest_of_owner {backup_id : String} {now : Timestamp} {body : Body}
    {m : BackupManifest} (h : manifest_of a ctx environment backup_id now body = .ok m) :
    m.project = ctx.project ∧ m.environment = environment := by
  unfold manifest_of at h
  obtain ⟨raw, -, h⟩ := CheckedLists.bind_eq_ok.mp h
  obtain ⟨_, -, h⟩ := CheckedLists.bind_eq_ok.mp h
  split at h
  · cases h
  next henvironment =>
  split at h
  · cases h
  next hproject =>
  obtain ⟨m', hm, h⟩ := CheckedLists.bind_eq_ok.mp h
  obtain ⟨_, -, h⟩ := CheckedLists.bind_eq_ok.mp h
  obtain ⟨_, -, h⟩ := CheckedLists.bind_eq_ok.mp h
  obtain rfl := Except.ok.inj h
  rw [Bool.not_eq_false, holds_iff] at henvironment hproject
  unfold validated at hm
  split at hm
  next m'' hvalid =>
    obtain rfl := Except.ok.inj hm
    have howner := model_validate_owner hvalid
    rw [textField, textField, hproject, henvironment] at howner
    exact ⟨(Option.some.inj howner.1).symm, (Option.some.inj howner.2).symm⟩
  · cases hm

theorem wp_recognise {inventory : List S3ObjectInfo} (hname : named_for environment id = true)
    (hinventory : Lists a s none inventory) :
    wp (timedWorld a latest) (Sparing P) (recognise a ctx environment inventory id)
      (fun r t => s = t ∧ ∀ c, r = .ok (some c) → Recognised a ctx environment s c) s := by
  unfold recognise
  apply wp_seq (wp_timed (wp_fence steady_eq fun _ _ => spares_look))
  · exact fun _ _ h => ⟨h.1, fun _ h => by cases h⟩
  rintro fenced t ⟨rfl, hfenced⟩
  cases fenced with
  | true => exact ⟨rfl, fun _ h => by cases h⟩
  | false =>
    apply wp_seq (wp_timed (wp_load_manifest steady_eq fun _ _ => spares_look))
    · exact fun _ _ h => ⟨h.1, fun _ h => by cases h⟩
    rintro m t ⟨rfl, hloaded⟩
    refine ⟨rfl, ?_⟩
    intro c hc
    obtain rfl := Option.some.inj (Except.ok.inj hc)
    obtain ⟨body, now, ⟨u, o, rfl, -, ho, rfl⟩, hmanifest⟩ := hloaded m rfl
    have hid : m.backup_id = id := manifest_of_id hmanifest
    refine ⟨?_, ?_, manifest_of_owner hmanifest, o, now, ?_, ?_, ?_⟩
    · rwa [Candidate.id, hid]
    · rw [Candidate.id, hid, ← hfenced false rfl]
      exact Bool.false_ne_true
    · rwa [Candidate.id, hid]
    · rwa [Candidate.id, hid]
    · intro time htime
      obtain ⟨item, hitem, hmodified⟩ := Option.bind_eq_some_iff.mp htime
      have hkey : item.key = manifest_key id := by simpa using List.find?_some hitem
      obtain ⟨o', ho', -, hcurrent⟩ := hinventory.current item (List.mem_of_find?_eq_some hitem)
      obtain rfl : o' = o := Option.some.inj (ho'.symm.trans (hkey ▸ ho))
      rw [← hcurrent, hmodified]

theorem wp_collect {inventory : List S3ObjectInfo} {names : List String}
    (hinventory : Lists a s none inventory) :
    wp (timedWorld a latest) (Sparing P) (collect a ctx environment inventory names)
      (fun r t => s = t ∧ ∀ found, r = .ok found → ∀ c ∈ found.1,
        Recognised a ctx environment s c) s := by
  induction names with
  | nil =>
    refine ⟨rfl, ?_⟩
    intro found hfound
    obtain rfl := Except.ok.inj hfound
    exact fun _ h => by cases h
  | cons backup_id rest ih =>
    unfold collect
    split
    · exact ih
    next hname =>
    apply wp_attempt_seq (wp_recognise (Bool.not_eq_false _ ▸ hname) hinventory)
    rintro r t ⟨rfl, hrecognised⟩
    apply wp_seq ih
    · exact fun _ _ h => ⟨h.1, fun _ h => by cases h⟩
    rintro others t ⟨rfl, hothers⟩
    have hrest := hothers others rfl
    have hskip : ∀ (errors : List String) found,
        (Except.ok (others.1, errors) : Except BackupError _) = .ok found → ∀ c ∈ found.1,
          Recognised a ctx environment s c := by
      intro errors found hfound
      obtain rfl := Except.ok.inj hfound
      exact hrest
    cases r with
    | ok recognised =>
      cases recognised with
      | none => exact ⟨rfl, hskip others.2⟩
      | some candidate =>
        refine ⟨rfl, ?_⟩
        intro found hfound
        obtain rfl := Except.ok.inj hfound
        intro c hc
        rcases List.mem_cons.mp hc with rfl | hc
        · exact hrecognised c rfl
        · exact hrest c hc
    | error e =>
      dsimp only
      split
      · exact ⟨rfl, hskip others.2⟩
      · exact ⟨rfl, hskip _⟩

theorem wp_recognition : wp (timedWorld a latest) (Sparing P) (recognition a ctx environment)
    (fun r t => s = t ∧ ∀ remote found, r = .ok (remote, .ok found) → ctx.remote = some remote ∧
      ∀ c ∈ found.1, Recognised a ctx environment s c) s := by
  have hremote : wp (timedWorld a latest) (Sparing P) (remote_config ctx)
      (fun r t => s = t ∧ ∀ remote, r = .ok remote → ctx.remote = some remote) s := by
    unfold remote_config fail
    split
    · exact ⟨rfl, fun _ h => by cases h⟩
    next remote hremote =>
    split
    · exact ⟨rfl, fun _ h => by cases h⟩
    · refine ⟨rfl, ?_⟩
      intro remote' h
      obtain rfl := Except.ok.inj h
      exact hremote
  unfold recognition
  apply wp_seq hremote
  · exact fun _ _ h => ⟨h.1, fun _ _ h => by cases h⟩
  rintro remote t ⟨rfl, hremote⟩
  apply wp_seq (wp_still looks_require_env)
  · exact fun _ _ h => ⟨h, fun _ _ h => by cases h⟩
  rintro _ t rfl
  have hinventory : wp (timedWorld a latest) (Sparing P) (take_inventory a)
      (fun r t => s = t ∧ ∀ taken, r = .ok taken → Lists a s none taken.1) s := by
    unfold take_inventory
    apply wp_seq (wp_timed (wp_list steady_eq fun _ _ => spares_look))
    · exact fun _ _ h => ⟨h.1, fun _ h => by cases h⟩
    rintro objects t ⟨rfl, hlists⟩
    apply wp_seq (wp_still looks_list_backups)
    · exact fun _ _ h => ⟨h, fun _ h => by cases h⟩
    rintro names t rfl
    refine ⟨rfl, ?_⟩
    intro taken htaken
    obtain rfl := Except.ok.inj htaken
    exact hlists objects rfl
  apply wp_attempt_seq hinventory
  rintro inventory t ⟨rfl, htaken⟩
  cases inventory with
  | error e => exact ⟨rfl, fun _ _ h => by cases h⟩
  | ok taken =>
    apply wp_seq (wp_collect (htaken taken rfl))
    · exact fun _ _ h => ⟨h.1, fun _ _ h => by cases h⟩
    rintro found t ⟨rfl, hfound⟩
    refine ⟨rfl, ?_⟩
    intro remote' found' heq
    obtain ⟨hsame, hok⟩ := Prod.mk.inj (Except.ok.inj heq)
    obtain rfl := Except.ok.inj hok
    exact ⟨hsame ▸ hremote remote rfl, hfound found rfl⟩

/-! ## The whole pass -/

theorem dated_eq {c : Candidate} {item : Timestamp × Candidate} (h : dated a c = .ok item) :
    item.2 = c ∧ parsed_timestamp a c.manifest = .ok item.1 := by
  obtain ⟨t, ht, h⟩ := CheckedLists.bind_eq_ok.mp h
  obtain rfl := Except.ok.inj h
  exact ⟨rfl, ht⟩

theorem newest_head {ordered : List (Timestamp × Candidate)} {first : Timestamp × Candidate}
    (hordered : ordered_candidates a found = .ok ordered) (hfirst : ordered.head? = some first) :
    Newest a found first.2 := by
  have hmember := mem_ordered hordered (List.mem_of_mem_head? hfirst)
  obtain ⟨items, hitems, h⟩ := CheckedLists.bind_eq_ok.mp hordered
  obtain rfl := Except.ok.inj h
  have hdated := CheckedLists.mapM_eq_ok.mp hitems
  have hperm := perm_newestFirst age_key items
  have hsorted := sorted_newestFirst age_key items
  obtain ⟨c, -, hc⟩ := CheckedLists.exists_of_mem_right hdated
    (hperm.mem_iff.mp (List.mem_of_mem_head? hfirst))
  obtain ⟨rfl, htime⟩ := dated_eq hc
  refine ⟨hmember, first.1, htime, ?_⟩
  intro d hd
  obtain ⟨item, hitem, hdate⟩ := CheckedLists.exists_of_mem_left hdated hd
  obtain ⟨rfl, hparsed⟩ := dated_eq hdate
  refine ⟨item.1, hparsed, ?_⟩
  obtain ⟨rest, hrest⟩ := List.head?_eq_some_iff.mp hfirst
  have hmem := hperm.mem_iff.mpr hitem
  rw [hrest] at hmem hsorted
  rcases List.mem_cons.mp hmem with rfl | hmem
  · exact Std.ReflCmp.isLE_rfl
  · exact (List.pairwise_cons.mp hsorted).1 item hmem

theorem hours_before_add {current cutoff : Timestamp} {hours : ℕ}
    (h : (hours_before current hours).mapError (⟨.value, ·⟩ : String → BackupError) = .ok cutoff) :
    cutoff + hours * HOUR = current := by
  unfold hours_before at h
  split at h
  · cases h
  split at h
  · cases h
  next hbound =>
    obtain rfl := Except.ok.inj h
    exact Nat.sub_add_cancel (Nat.le_of_not_lt hbound)

/-- A candidate that retention does not keep. -/
theorem expired_of_dropped {ordered : List (Timestamp × Candidate)} {cutoff : Timestamp}
    {item : Timestamp × Candidate} (hordered : ordered_candidates a found = .ok ordered)
    (hcutoff : cutoff + ctx.retention.grace_hours * HOUR ≤ latest) (hitem : item ∈ ordered)
    (hdropped : item.2.id ∉ retained ctx.retention protected_backup_ids cutoff ordered) :
    Expired a ctx latest protected_backup_ids found item.2.id := by
  unfold retained at hdropped
  simp only [List.mem_append, not_or] at hdropped
  obtain ⟨⟨⟨hprotected, hhead⟩, htiers⟩, hgrace⟩ := hdropped
  refine ⟨hprotected, ?_, ⟨ordered, hordered, htiers⟩, item.2, mem_ordered hordered hitem, rfl, ?_⟩
  · cases hfirst : ordered.head? with
    | none =>
      rw [List.head?_eq_none_iff.mp hfirst] at hitem
      cases hitem
    | some first =>
      refine ⟨first.2, newest_head hordered hfirst, ?_⟩
      intro hsame
      simp [hfirst, hsame] at hhead
  · have hold : item.2.completed_at.all (cutoff ≤ ·) = false := by
      by_contra hyoung
      apply hgrace
      exact List.mem_map.mpr ⟨item, List.mem_filter.mpr ⟨hitem, Bool.not_eq_false _ ▸ hyoung⟩, rfl⟩
    cases htime : item.2.completed_at with
    | none => simp [htime] at hold
    | some t =>
      refine ⟨t, rfl, (Nat.add_lt_add_right ?_ _).trans_le hcutoff⟩
      simpa [htime] using hold

theorem wp_reconcile {remote : RemoteBackupConfig} {recognised : List Candidate × List String}
    (hremote : ctx.remote = some remote)
    (hfound : ∀ c ∈ recognised.1, Recognised a ctx environment s c) :
    wp (timedWorld a latest)
      (Sparing (Removable a ctx latest environment protected_backup_ids recognised.1 s))
      (reconcile a ctx remote environment protected_backup_ids recognised)
      (fun r t => ∀ result, r = .ok result →
        Kept (Removable a ctx latest environment protected_backup_ids recognised.1 s) s
          result.deleted_backup_ids t) s := by
  unfold reconcile
  split
  next ordered errors hordered =>
  apply wp_seq wp_clock
  · exact fun _ _ _ _ h => by cases h
  rintro time t ⟨rfl, htime⟩
  have htime := htime time rfl
  apply wp_ofExcept_seq (fun _ _ _ h => by cases h)
  intro grace hgrace
  have hgrace := (hours_before_add hgrace).trans_le htime
  apply wp_seq
  · apply wp_delete_candidates Kept.start
    intro m hm hkeep
    obtain ⟨item, hitem, rfl⟩ := List.mem_map.mp hm
    have hitem := List.mem_reverse.mp hitem
    split at hordered
    next candidates hcandidates =>
      obtain rfl := (Prod.mk.inj hordered).1
      exact ⟨(hfound _ (mem_ordered hcandidates hitem)).named,
        .inl (expired_of_dropped hcandidates hgrace hitem hkeep)⟩
    · rw [← (Prod.mk.inj hordered).1] at hitem
      cases hitem
  · exact fun _ _ _ _ h => by cases h
  intro done t ht
  have ht := ht done rfl
  apply wp_ofExcept_seq (fun _ _ _ h => by cases h)
  intro cutoff hcutoff
  have hcutoff := (hours_before_add hcutoff).trans_le htime
  apply wp_attempt_seq (wp_kept (wp_still looks_groups) ht)
  rintro listed u ⟨-, hu⟩
  split
  next groups done' hgroups =>
  have hdone : done'.deleted = done.deleted := by
    split at hgroups
    · rw [← (Prod.mk.inj hgroups).2]
    · rw [← (Prod.mk.inj hgroups).2]
  rw [← hdone] at hu
  apply wp_seq (wp_clean_groups hremote hcutoff hu fun _ hname horphaned => ⟨hname, .inr horphaned⟩)
  · exact fun _ _ _ _ h => by cases h
  intro final v hv
  unfold report
  dsimp only
  split
  · exact fun _ h => by cases h
  · intro result hresult
    obtain rfl := Except.ok.inj hresult
    exact hv final rfl

theorem looks_recognition : (recognition a ctx environment).Calls Look := by
  unfold recognition
  apply calls_bind looks_remote_config
  intro remote
  apply calls_bind looks_require_env
  intro _
  apply calls_bind (calls_attempt looks_inventory)
  intro inventory
  split
  · exact calls_pure _
  · exact calls_bind looks_collect fun _ => calls_pure _

/-- A run of a pass has changed nothing yet, or recognised some backups and gone on from
there. -/
theorem pass_cases {q : BackupM RemotePruneResult} (hrun : Steps (timedWorld a latest) s
      (prune_remote_backups a ctx environment protected_backup_ids) t q) :
    t = s ∨ ∃ remote recognised, ctx.remote = some remote ∧
      (∀ c ∈ recognised.1, Recognised a ctx environment s c) ∧
        Steps (timedWorld a latest) s
          (reconcile a ctx remote environment protected_backup_ids recognised) t q := by
  rcases steps_bind hrun with ⟨p', hp'⟩ | ⟨⟨remote, recognised⟩, u, hend, hrest⟩
  · have hstill : (recognition a ctx environment).Calls fun o =>
        ∀ s r t, timedWorld a latest o s r t → id t = id s :=
      calls_mono looks_recognition fun o ho s r t hw => look_still ho hw.1
    exact .inl (run_preserves hstill hp')
  obtain ⟨rfl, hrecognised⟩ := wp_ends (wp_recognition (P := fun _ => True)) hend
  cases recognised with
  | error e =>
    dsimp only at hrest
    split at hrest
    · cases hrest
      exact .inl rfl
    · cases hrest
      exact .inl rfl
  | ok recognised =>
    obtain ⟨hremote, hfound⟩ := hrecognised remote recognised rfl
    exact .inr ⟨remote, recognised, hremote, hfound, hrest⟩

/-! ## Two backups of one day beside a prefix that was given up -/

theorem serve_timed (now : Timestamp) (o : BackupCall) (v : Shelf) :
    timedWorld a now o v.store (serve a now o v).1 (serve a now o v).2.store := by
  refine ⟨serve_world o v, ?_⟩
  cases o with
  | now => exact le_refl now
  | _ => trivial

def twiceDaily : S3Adapter :=
  { exampleAdapter with
    fromisoformat := fun text =>
      if text = "2024-01-01T00:00:00+00:00" then some (738885 * DAY)
      else if text = "2024-01-01T12:00:00+00:00" then some (738885 * DAY + 12 * HOUR)
      else none }

def midnightManifest : BackupManifest := { exampleManifest with remote_status := .complete }

def noonManifest : BackupManifest :=
  { midnightManifest with backup_id := "prod_2", timestamp := "2024-01-01T12:00:00Z" }

def exampleFence : AbandonmentMarker where
  backup_id := "prod_0"
  project := "acme"
  environment := "prod"
  abandoned_at := "2023-12-31T00:00:00Z"
  cleanup_token := "5eed"

def storedBody (body : Body) : Stored :=
  ⟨body, some (exampleDigest body), some (738885 * DAY - HOUR)⟩

def dailyShelf : Shelf where
  objects := [
    (abandonment_key "prod_0", storedBody (.fence exampleFence)),
    (["prod_0", "db.dump"], storedBody artifactBody),
    (["prod_1", "db.dump"], storedBody artifactBody),
    (manifest_key "prod_1", storedBody (.manifest midnightManifest)),
    (["prod_2", "db.dump"], storedBody artifactBody),
    (manifest_key "prod_2", storedBody (.manifest noonManifest))]
  files := []
  stored := []

def dailyPass : Except BackupError RemotePruneResult × Shelf :=
  (prune_remote_backups twiceDaily exampleContext "prod" []).run (serve twiceDaily exampleNow)
    dailyShelf

theorem dailyPass_facts : dailyPass.1 = .ok { deleted_backup_ids := ["prod_1", "prod_0"] } ∧
    dailyPass.2.objects.map Prod.fst = [abandonment_key "prod_0", ["prod_2", "db.dump"],
      manifest_key "prod_2"] := by
  decide +kernel

theorem dailyPass_ends : Ends (timedWorld twiceDaily exampleNow) dailyShelf.store
    (prune_remote_backups twiceDaily exampleContext "prod" [])
    (.ok { deleted_backup_ids := ["prod_1", "prod_0"] }) dailyPass.2.store := by
  rw [← dailyPass_facts.1]
  exact ends_served Shelf.store (serve_timed exampleNow) _ _

/-- A pass touches removable backups only, and leaves every fence where it is. -/
theorem pass_spares {q : BackupM RemotePruneResult} (hrun : Steps (timedWorld a latest) s
      (prune_remote_backups a ctx environment protected_backup_ids) t q) :
    ∃ found, (∀ c ∈ found, Recognised a ctx environment s c) ∧
      (∀ id, ¬ Removable a ctx latest environment protected_backup_ids found s id →
        ∀ relative, t.objects (id :: relative) = s.objects (id :: relative)) ∧
      ∀ id, Fenced s id → Fenced t id := by
  rcases pass_cases hrun with rfl | ⟨remote, recognised, hremote, hfound, hrest⟩
  · exact ⟨[], fun _ h => (List.not_mem_nil h).elim, fun _ _ _ => rfl, fun _ h => h⟩
  have hkept : Kept (Removable a ctx latest environment protected_backup_ids recognised.1 s) s
      [] t :=
    wp_invariant (wp_stable (wp_reconcile hremote hfound) Kept.start
      fun _ _ _ _ ho hu hw => hu.step ho hw) hrest (fun _ _ h => h.2) fun _ _ h => h.2
  exact ⟨recognised.1, hfound, hkept.objects, hkept.fences⟩

theorem dailyPass_spares : ∃ found,
    (∀ c ∈ found, Recognised twiceDaily exampleContext "prod" dailyShelf.store c) ∧
      (∀ id, ¬ Removable twiceDaily exampleContext exampleNow "prod" [] found dailyShelf.store id →
        ∀ relative, dailyPass.2.store.objects (id :: relative) =
          dailyShelf.store.objects (id :: relative)) ∧
      ∀ id, Fenced dailyShelf.store id → Fenced dailyPass.2.store id :=
  pass_spares dailyPass_ends

theorem wp_prune : wp (timedWorld a latest) (fun _ _ => True)
    (prune_remote_backups a ctx environment protected_backup_ids)
    (fun r t => ∀ result, r = .ok result → ∀ id ∈ result.deleted_backup_ids, Cleared id t) s := by
  unfold prune_remote_backups
  apply wp_seq (wp_mono (wp_recognition (P := fun _ => True)) (fun _ _ _ => trivial)
    fun _ _ h => h)
  · exact fun _ _ _ _ h => by cases h
  rintro ⟨remote, recognised⟩ t ⟨rfl, hrecognised⟩
  cases recognised with
  | error e =>
    dsimp only
    split
    · exact fun _ h => by cases h
    · intro result hresult
      obtain rfl := Except.ok.inj hresult
      exact fun _ h => by cases h
  | ok recognised =>
    obtain ⟨hremote, hfound⟩ := hrecognised remote recognised rfl
    apply wp_mono (wp_reconcile hremote hfound) (fun _ _ _ => trivial)
    exact fun r t h result hresult => (h result hresult).cleared

/-- Of a backup that a pass reports as deleted nothing but a fence is left. -/
theorem reported_cleared {result : RemotePruneResult} (hrun : Ends (timedWorld a latest) s
      (prune_remote_backups a ctx environment protected_backup_ids) (.ok result) t) :
    ∀ id ∈ result.deleted_backup_ids, Cleared id t := wp_ends wp_prune hrun result rfl

theorem dailyPass_cleared : Cleared "prod_1" dailyPass.2.store ∧
    Cleared "prod_0" dailyPass.2.store :=
  ⟨reported_cleared dailyPass_ends _ (by decide), reported_cleared dailyPass_ends _ (by decide)⟩

end RemotePruningSafety
