import Odooctl.RemotePublication

/-!
# Advertised remote backups in every run

What a retention pass deletes is fenced, or its completion marker was seen and is gone; with
what publications know this gives the completeness of whatever is advertised.
-/
namespace AdvertisedBackups

open EffectPrograms InterleavedPrograms ProgramRules PythonJson BackupManifests RemoteStore
open RemoteBackups RemoteWorld RemoteCompleteness RemotePublication
open PitrRetention (newestFirst)
open PitrRestoreRecord (Timestamp)

variable {a : S3Adapter} {ctx : BackupContext} {job : Job} {s t u : Store} {id : String}
  {P : String → Prop} {α ι : Type}

section Retention

variable (hjob : ∀ id, ¬ job.Publishes id)

include hjob

theorem marked_of_authorised (hs : Authorised job P s) (hid : P id) : s.marked id :=
  (hs id hid).resolve_left (hjob id)

/-! ## Deleting a backup -/

omit hjob in
/-- A payload may be deleted for as long as this holds, which is forever. -/
def Deletable (id : String) (s : Store) : Prop := Fenced s id ∨ s.marked id ∧ ¬ Advertised s id

omit hjob in
theorem Deletable.leaves (h : Deletable id s) (hst : Leaves job s t) : Deletable id t := by
  rcases h with h | ⟨hmarked, hgone⟩
  · exact .inl (hst.fenced id h)
  · exact .inr ⟨hst.marked id hmarked, hst.gone id hmarked hgone⟩

omit hjob in
theorem marker_ne_fence : manifest_key id ≠ abandonment_key id := by
  intro h
  exact absurd (List.cons.inj (List.cons.inj h).2).1 (by decide)

omit hjob in
theorem fenced_delete {key : Key} (hkey : key ≠ abandonment_key id) (h : Fenced s id) :
    Fenced (s.delete key) id := by
  unfold Fenced abandonment_key at *
  rwa [delete_other (Ne.symm hkey)]

omit hjob in
theorem Deletable.delete {key : Key} (h : Deletable id s) (hkey : key ≠ abandonment_key id) :
    Deletable id (s.delete key) := by
  rcases h with h | ⟨hmarked, hgone⟩
  · exact .inl (fenced_delete hkey h)
  · refine .inr ⟨hmarked, ?_⟩
    unfold Advertised Store.delete at *
    by_cases hmarker : manifest_key id = key
    · simp [hmarker]
    · simpa [Function.update_of_ne hmarker] using hgone

omit hjob in
theorem wp_delete_keys {keys : List Key} (hkeys : ∀ key ∈ keys, ∃ relative,
      key = id :: relative ∧ relative ≠ [ABANDONMENT_MARKER])
    (hs : Authorised job P s) (hid : Deletable id s) :
    wp (jobWorld a job) (Permitted a job) (delete_keys a keys)
      (fun _ t => Authorised job P t) s := by
  induction keys generalizing s with
  | nil => exact hs
  | cons key rest ih =>
    obtain ⟨relative, rfl, hrel⟩ := hkeys key List.mem_cons_self
    have hpermit : Permitted a job (.delete_object (id :: relative)) s :=
      ⟨id, relative, rfl, hrel, .inr hid⟩
    unfold delete_keys
    apply wp_bind'.mpr
    apply wp_perform_under hpermit
    intro r v hw w hvw
    have hw' := (hs.step hpermit hw).leaves hvw.1
    have hv : Deletable id v := by
      rcases hw with rfl | ⟨rfl, -⟩
      · exact hid.delete (by simpa [abandonment_key] using hrel)
      · exact hid
    cases r with
    | error e => exact hw'
    | ok _ => exact ih (fun k hk => hkeys k (List.mem_cons_of_mem _ hk)) hw' (hv.leaves hvw.1)

theorem wp_delete_backup (hs : Authorised job P s) (hid : P id ∨ Fenced s id) :
    wp (jobWorld a job) (Permitted a job) (delete_backup a id)
      (fun _ t => Authorised job P t) s := by
  unfold delete_backup
  apply wp_backup_name_seq (fun _ => hs)
  apply wp_seq (wp_list steady fun _ _ => permitted_look)
  · exact fun _ _ h => hs.leaves h.1.1
  intro objects t ht
  have ht' := hs.leaves ht.1.1
  have hmarker : Permitted a job (.delete_object (manifest_key id)) t :=
    ⟨id, [COMPLETION_MARKER], rfl, by decide, .inl rfl⟩
  unfold delete_keys
  apply wp_bind'.mpr
  apply wp_perform_under hmarker
  intro r v hw w hvw
  have hw' := (ht'.step hmarker hw).leaves hvw.1
  cases r with
  | error e => exact hw'
  | ok _ =>
    have hdeleted : v = t.delete (manifest_key id) := by
      rcases hw with h | ⟨-, e, h⟩
      · exact h
      · cases h
    subst hdeleted
    have hv : Deletable id (t.delete (manifest_key id)) := by
      rcases hid with hid | hfence
      · exact .inr ⟨marked_of_authorised hjob ht' hid, by simp [Advertised, Store.delete]⟩
      · exact .inl (fenced_delete marker_ne_fence (ht.1.1.fenced id hfence))
    apply wp_delete_keys _ hw' (hv.leaves hvw.1)
    intro key hkey
    obtain ⟨hlisted, hne⟩ := List.mem_filter.mp hkey
    obtain ⟨item, hitem, rfl⟩ := List.mem_map.mp hlisted
    obtain ⟨hhead, -⟩ := (ht.2 objects rfl).within item hitem id rfl
    obtain ⟨relative, hrelative⟩ := List.head?_eq_some_iff.mp hhead
    refine ⟨relative, hrelative, ?_⟩
    rintro rfl
    simp [hrelative, abandonment_key] at hne

/-! ## Backups that were recognised -/

omit hjob in
theorem manifest_of_id {environment backup_id : String} {now : Timestamp} {body : Body}
    {m : BackupManifest} (h : manifest_of a ctx environment backup_id now body = .ok m) :
    m.backup_id = backup_id := by
  unfold manifest_of at h
  obtain ⟨raw, -, h⟩ := CheckedLists.bind_eq_ok.mp h
  obtain ⟨_, hid, h⟩ := CheckedLists.bind_eq_ok.mp h
  split at h
  · cases h
  split at h
  · cases h
  obtain ⟨m', hm, h⟩ := CheckedLists.bind_eq_ok.mp h
  obtain ⟨_, -, h⟩ := CheckedLists.bind_eq_ok.mp h
  obtain ⟨_, -, h⟩ := CheckedLists.bind_eq_ok.mp h
  obtain rfl := Except.ok.inj h
  unfold validated at hm
  split at hm
  next m'' hvalid =>
    obtain rfl := Except.ok.inj hm
    have htext := model_validate_id hvalid
    unfold check at hid
    split at hid
    · cases hid
    next hholds =>
      rw [Bool.not_eq_false, holds_iff] at hholds
      rw [textField, hholds] at htext
      exact (Option.some.inj htext).symm
  · cases hm

omit hjob in
theorem marked_of_seen {body : Body} (hs : Sound a s)
    (h : Seen (Around a job) s (manifest_key id) body t) : t.marked id := by
  obtain ⟨u, o, hsu, hut, ho, -⟩ := h
  exact hut.1.marked id ((hsu.2 hs).noted id (by simp [Advertised, ho]))

omit hjob in
theorem wp_recognise {environment backup_id : String} {inventory : List S3ObjectInfo}
    (hs : Sound a s) :
    wp (jobWorld a job) (Permitted a job) (recognise a ctx environment inventory backup_id)
      (fun r t => Around a job s t ∧ ∀ c, r = .ok (some c) → t.marked c.id) s := by
  unfold recognise
  apply wp_seq (wp_looks steady (fun _ _ => permitted_look) looks_fence)
  · exact fun _ _ h => ⟨h, fun _ h => nomatch h⟩
  intro fenced t ht
  cases fenced with
  | true => exact ⟨ht, fun _ h => nomatch h⟩
  | false =>
    apply wp_seq (wp_load_manifest steady fun _ _ => permitted_look)
    · exact fun _ _ h => ⟨steady.trans _ _ _ ht h.1, fun _ h => nomatch h⟩
    intro m u hu
    refine ⟨steady.trans _ _ _ ht hu.1, ?_⟩
    intro c hc
    obtain rfl := Option.some.inj (Except.ok.inj hc)
    obtain ⟨body, now, hseen, hmanifest⟩ := hu.2 m rfl
    rw [Candidate.id, manifest_of_id hmanifest]
    exact marked_of_seen (ht.2 hs) hseen

omit hjob in
/-- The completion marker of every recognised backup has been stored. -/
theorem wp_collect {environment : String} {inventory : List S3ObjectInfo} {ids : List String}
    (hs : Sound a s) :
    wp (jobWorld a job) (Permitted a job) (collect a ctx environment inventory ids) (fun r t =>
      ∀ found, r = .ok found → ∀ c ∈ found.1, t.marked c.id) s := by
  induction ids generalizing s with
  | nil =>
    intro found hfound
    obtain rfl := Except.ok.inj hfound
    exact fun _ h => by cases h
  | cons backup_id rest ih =>
    unfold collect
    split
    · exact ih hs
    apply wp_attempt_seq (wp_recognise hs)
    intro r t ht
    apply wp_seq (wp_both (ih (ht.1.2 hs))
      (wp_looks steady (fun _ _ => permitted_look) looks_collect))
    · exact fun _ _ _ _ h => by cases h
    intro others u hu
    obtain ⟨hmarked, haround⟩ := hu
    have hrest := hmarked others rfl
    cases r with
    | ok found =>
      cases found with
      | none =>
        intro found hfound
        obtain rfl := Except.ok.inj hfound
        exact hrest
      | some candidate =>
        intro found hfound
        obtain rfl := Except.ok.inj hfound
        intro c hc
        rcases List.mem_cons.mp hc with rfl | hc
        · exact haround.1.marked _ (ht.2 c rfl)
        · exact hrest c hc
    | error e =>
      dsimp only
      split
      · intro found hfound
        obtain rfl := Except.ok.inj hfound
        exact hrest
      · intro found hfound
        obtain rfl := Except.ok.inj hfound
        exact hrest

omit hjob in
theorem mem_ordered {candidates : List Candidate} {ordered : List (Timestamp × Candidate)}
    (h : ordered_candidates a candidates = .ok ordered) {item : Timestamp × Candidate}
    (hitem : item ∈ ordered) : item.2 ∈ candidates := by
  unfold ordered_candidates at h
  obtain ⟨items, hitems, h⟩ := CheckedLists.bind_eq_ok.mp h
  obtain rfl := Except.ok.inj h
  have hmem : item ∈ items := (List.perm_insertionSort _ _).mem_iff.mp hitem
  obtain ⟨c, hc, hdated⟩ :=
    CheckedLists.exists_of_mem_right (CheckedLists.mapM_eq_ok.mp hitems) hmem
  obtain ⟨t, -, hpair⟩ := CheckedLists.bind_eq_ok.mp hdated
  obtain rfl := Except.ok.inj hpair
  exact hc

/-! ## The two passes -/

omit hjob in
theorem wp_note_failure {manifest : BackupManifest} {e : BackupError} {done : Pruning}
    (hs : Authorised job P s) (hid : P manifest.backup_id) :
    wp (jobWorld a job) (Permitted a job) (note_failure a manifest e done)
      (fun _ t => Authorised job P t) s := by
  unfold note_failure
  split
  · exact hs
  · apply wp_free hs
    exact calls_bind (calls_attempt (free_mark_incomplete hid)) fun _ => calls_pure _

theorem wp_delete_candidate {environment : String} {manifest : BackupManifest} {done : Pruning}
    (hs : Authorised job P s) (hid : P manifest.backup_id) :
    wp (jobWorld a job) (Permitted a job) (delete_candidate a ctx environment manifest done)
      (fun _ t => Authorised job P t) s := by
  unfold delete_candidate
  apply wp_attempt_seq (wp_free hs (free_of_look looks_recheck))
  intro checked t ht
  cases checked with
  | error e => exact wp_note_failure ht hid
  | ok _ =>
    apply wp_attempt_seq (wp_delete_backup hjob ht (.inl hid))
    intro result u hu
    cases result with
    | error e => exact wp_note_failure hu hid
    | ok _ => exact hu

theorem wp_delete_candidates {environment : String} {keep : List String}
    {manifests : List BackupManifest} {done : Pruning} (hs : Authorised job P s)
    (hids : ∀ m ∈ manifests, P m.backup_id) :
    wp (jobWorld a job) (Permitted a job) (delete_candidates a ctx environment keep manifests done)
      (fun _ t => Authorised job P t) s := by
  induction manifests generalizing s done with
  | nil => exact hs
  | cons manifest rest ih =>
    have hrest := fun m hm => hids m (List.mem_cons_of_mem _ hm)
    unfold delete_candidates
    split
    · exact ih hs hrest
    · apply wp_seq (wp_delete_candidate hjob hs (hids manifest List.mem_cons_self))
        (fun _ _ h => h)
      exact fun _ _ ht => ih ht hrest

theorem wp_reclaim {environment backup_id : String} {cutoff : Timestamp}
    (hs : Authorised job P s) :
    wp (jobWorld a job) (Permitted a job) (reclaim a ctx environment cutoff backup_id)
      (fun _ t => Authorised job P t) s := by
  unfold reclaim
  apply wp_seq (wp_free hs (free_of_look looks_list_objects)) (fun _ _ h => h)
  intro current t ht
  apply wp_seq (wp_fence steady fun _ _ => permitted_look)
  · exact fun _ _ h => ht.leaves h.1.1
  intro fenced u hu
  have hu' := ht.leaves hu.1.1
  split
  · exact hu'
  next hfenced =>
  have hfence : Fenced u backup_id :=
    hu.1.1.fenced _ ((hu.2 fenced rfl).mp (Bool.not_eq_false _ ▸ hfenced))
  split
  · exact hu'
  split
  · exact hu'
  apply wp_seq (wp_both (wp_free hu' (free_of_look looks_load_marker))
    (wp_looks steady (fun _ _ => permitted_look) looks_load_marker)) (fun _ _ h => h.1)
  intro _ v hv
  apply wp_seq (wp_delete_backup hjob hv.1 (.inr (hv.2.1.fenced _ hfence))) (fun _ _ h => h)
  exact fun _ _ h => h

theorem wp_clean_group {environment backup_id : String} {cutoff : Timestamp}
    {objects : List S3ObjectInfo} {done : Pruning} (hs : Authorised job P s) :
    wp (jobWorld a job) (Permitted a job) (clean_group a ctx environment cutoff backup_id objects done)
      (fun _ t => Authorised job P t) s := by
  unfold clean_group
  have hfence : (has_abandonment_fence a backup_id (objects.map S3ObjectInfo.key)).Calls Look :=
    calls_ite (calls_pure _) looks_fence
  apply wp_seq (wp_free hs (free_of_look hfence)) (fun _ _ h => h)
  intro fenced t ht
  split
  · exact ht
  split
  · exact ht
  split
  · exact ht
  split
  · exact ht
  unfold reclaim_group
  apply wp_attempt_seq (wp_reclaim hjob ht)
  intro result u hu
  split <;> exact hu

theorem wp_clean_groups {environment : String} {cutoff : Timestamp}
    {groups : List (String × List S3ObjectInfo)} {done : Pruning} (hs : Authorised job P s) :
    wp (jobWorld a job) (Permitted a job) (clean_groups a ctx environment cutoff groups done)
      (fun _ t => Authorised job P t) s := by
  induction groups generalizing s done with
  | nil => exact hs
  | cons first rest ih =>
    obtain ⟨backup_id, objects⟩ := first
    unfold clean_groups
    split
    · exact ih hs
    · apply wp_seq (wp_clean_group hjob hs) (fun _ _ h => h)
      exact fun _ _ ht => ih ht

omit hjob in
theorem wp_report {remote : RemoteBackupConfig} {done : Pruning} :
    wp (jobWorld a job) (Permitted a job) (report remote done) (fun _ _ => True) s := by
  unfold report
  dsimp only
  split <;> trivial

theorem wp_reconcile {remote : RemoteBackupConfig} {environment : String}
    {protected_backup_ids : List String} {found : List Candidate × List String}
    (hs : ∀ c ∈ found.1, s.marked c.id) :
    wp (jobWorld a job) (Permitted a job)
      (reconcile a ctx remote environment protected_backup_ids found) (fun _ _ => True) s := by
  have hs' : Authorised job (fun id => ∃ c ∈ found.1, c.id = id) s := by
    rintro id ⟨c, hc, rfl⟩
    exact .inr (hs c hc)
  unfold reconcile
  split
  next ordered errors hordered =>
  have hfound : ∀ item ∈ ordered, item.2 ∈ found.1 := by
    intro item hitem
    split at hordered
    next candidates hcandidates =>
      obtain rfl := (Prod.mk.inj hordered).1
      exact mem_ordered hcandidates hitem
    · rw [← (Prod.mk.inj hordered).1] at hitem
      cases hitem
  apply wp_seq (wp_free hs' (free_of_look looks_clock)) (fun _ _ _ => trivial)
  intro time t ht
  apply wp_ofExcept_seq (fun _ _ => trivial)
  intro grace _
  have hids : ∀ m ∈ ordered.reverse.map (fun item => item.2.manifest),
      ∃ c ∈ found.1, c.id = m.backup_id := by
    intro m hm
    obtain ⟨item, hitem, rfl⟩ := List.mem_map.mp hm
    exact ⟨item.2, hfound item (List.mem_reverse.mp hitem), rfl⟩
  apply wp_seq (wp_delete_candidates hjob ht hids) (fun _ _ _ => trivial)
  intro done u hu
  apply wp_ofExcept_seq (fun _ _ => trivial)
  intro cutoff _
  apply wp_attempt_seq (wp_free hu (free_of_look looks_groups))
  intro listed v hv
  split
  next groups done _ =>
  apply wp_seq (wp_clean_groups hjob hv) (fun _ _ _ => trivial)
  exact fun _ _ _ => wp_report

omit hjob in
theorem wp_recognition {environment : String} (hs : Sound a s) :
    wp (jobWorld a job) (Permitted a job) (recognition a ctx environment) (fun r t =>
      ∀ remote found, r = .ok (remote, .ok found) → ∀ c ∈ found.1, t.marked c.id) s := by
  unfold recognition
  apply wp_seq (wp_looks steady (fun _ _ => permitted_look) looks_remote_config)
    (fun _ _ _ _ _ h => nomatch h)
  intro remote t ht
  apply wp_seq (wp_looks steady (fun _ _ => permitted_look) looks_require_env)
    (fun _ _ _ _ _ h => nomatch h)
  intro _ u hu
  apply wp_attempt_seq (wp_looks steady (fun _ _ => permitted_look) looks_inventory)
  intro inventory v hv
  have hv' : Sound a v := hv.2 (hu.2 (ht.2 hs))
  cases inventory with
  | error e => exact fun _ _ h => nomatch h
  | ok taken =>
    apply wp_seq (wp_collect hv') (fun _ _ _ _ _ h => nomatch h)
    intro found w hw _ found' heq
    obtain rfl := Except.ok.inj (Prod.mk.inj (Except.ok.inj heq)).2
    exact hw found rfl

theorem wp_prune {environment : String} {protected_backup_ids : List String} (hs : Sound a s) :
    wp (jobWorld a job) (Permitted a job)
      (prune_remote_backups a ctx environment protected_backup_ids) (fun _ _ => True) s := by
  unfold prune_remote_backups
  apply wp_seq (wp_recognition hs) (fun _ _ _ => trivial)
  rintro ⟨remote, recognised⟩ t ht
  cases recognised with
  | error e =>
    dsimp only
    split <;> trivial
  | ok found => exact wp_reconcile hjob (ht remote found rfl)

end Retention

/-! ## Every run -/

/-- Nothing is stored yet of a backup that is about to be published. -/
def Unpublished (job : Job) (s : Store) : Prop :=
  ∀ id, job.Publishes id → ¬ s.marked id ∧ ∀ relative, s.objects (id :: relative) = none

theorem Unpublished.preparing (h : Unpublished job s) (hid : job.Publishes id) :
    Preparing a id s where
  unmarked := (h id hid).1
  honest := by
    intro artifact _ o ho
    rw [(h id hid).2] at ho
    cases ho

theorem wp_run (hs : Sound a s) (hfresh : ∀ id, job.Publishes id → Preparing a id s) :
    wp (jobWorld a job) (Permitted a job) (job.run a) (fun _ _ => True) s := by
  cases job with
  | publish ctx id manifest =>
    have hpublish : Job.Publishes (.publish ctx id manifest) id := ⟨ctx, manifest, rfl⟩
    apply wp_seq (wp_publish hpublish (hfresh id hpublish)) <;> exact fun _ _ _ => trivial
  | prune ctx environment protected_backup_ids =>
    have hprune : ∀ id, ¬ Job.Publishes (.prune ctx environment protected_backup_ids) id := by
      rintro id ⟨_, _, h⟩
      cases h
    apply wp_seq (wp_prune hprune hs) <;> exact fun _ _ _ => trivial

theorem contract_holds {job : ι → Job} (hs : Sound a s)
    (hfresh : ∀ i, Unpublished (job i) s) :
    (contract a job).Holds (fun _ => storeWorld a) (fun _ _ _ => True) s
      (fun i => (job i).run a) where
  invariant := hs
  stable := by
    intro i t hst ht
    have hrun := wp_run ht fun id hid => ((hfresh i).preparing hid).leaves hid hst
    apply wp_world hrun
    rintro o u r w ⟨v, hv, hleaves, hsound⟩
    exact ⟨v, hv, hleaves, fun _ => hsound⟩

/-- Whenever a completion marker is stored and no fence is, every required artifact is stored
with the digest that the marker's manifest records. -/
theorem advertised_backups_complete [DecidableEq ι] {job : ι → Job}
    {ps : Pool (fun _ : ι => Backups) (fun _ => BackupError) fun _ => Unit} (honce : Once job) (hs : Sound a s) (hfresh : ∀ i, Unpublished (job i) s)
    (hrun : Interleaved (fun _ => storeWorld a) s (fun i => (job i).run a) t ps) : Complete a t :=
  ((contract_holds hs hfresh).run (jobs_honour honce) hrun).invariant.complete

/-! ## A publication beside a retention pass -/

/-- 2024-01-02. -/
def exampleNow : Timestamp := 738886 * DAY

def exampleBackup : String := "prod_1"

def exampleManifest : BackupManifest where
  backup_id := exampleBackup
  project := "acme"
  environment := "prod"
  timestamp := "2024-01-01T00:00:00Z"
  db_name := "acme"
  artifact_paths := ["db.dump", "filestore.tar"]
  odoo_version := "17.0"
  checksums :=
    [("db_dump", "b5a26a21290c39819235a235b8ed66b3bd98ed90c8316c8949bfbb7419cac878"),
     ("filestore", "b5a26a21290c39819235a235b8ed66b3bd98ed90c8316c8949bfbb7419cac878")]

def artifactBody : Body := .bytes [80, 71, 68, 77, 80]

def exampleDigest (body : Body) : String :=
  if body = artifactBody then "b5a26a21290c39819235a235b8ed66b3bd98ed90c8316c8949bfbb7419cac878"
  else "9a92c00371c5c9e53eb5a38461c9c75c23470f33cd6a84fdaba985429ee53e92"

theorem hex_exampleDigest (body : Body) : S3Objects.is_digest (exampleDigest body) = true := by
  unfold exampleDigest
  split <;> decide +kernel

def exampleAdapter : S3Adapter where
  size := fun
    | .bytes content => content.length
    | _ => 784
  sha256 := exampleDigest
  json_loads := fun _ => .error "Expecting value: line 1 column 1 (char 0)"
  int_of := fun _ => none
  validation_error := fun _ => "validation error"
  fromisoformat := fun text =>
    if text = "2024-01-01T00:00:00+00:00" then some (738885 * DAY) else none
  redact := fun text => text
  hexdigest := hex_exampleDigest
  bucket := "vault"
  scope := "acme"

def exampleRemote : RemoteBackupConfig where
  orphan_grace_positive := by decide

def exampleContext : BackupContext where
  project := "acme"
  environments := ["prod"]
  remote := some exampleRemote
  retention := { grace_positive := by decide }

def exampleJob : Bool → Job
  | false => .publish exampleContext exampleBackup exampleManifest
  | true => .prune exampleContext "prod" []

def exampleShelf : Shelf where
  objects := []
  files := [(.backup exampleBackup ["db.dump"], artifactBody),
    (.backup exampleBackup ["filestore.tar"], artifactBody),
    (.backup exampleBackup ["manifest.json"], .manifest exampleManifest)]
  stored := []

/-- The retention pass lists the store while the backup is being published, and the publisher
stops once its marker has been put. -/
def exampleTurns : List Bool := List.replicate 20 false ++ [true, true] ++ List.replicate 21 false

def examplePublished : Pool (fun _ : Bool => Backups) (fun _ => BackupError) (fun _ => Unit) × Shelf :=
  Pool.turns (fun _ => serve exampleAdapter exampleNow) exampleTurns
    (fun i => (exampleJob i).run exampleAdapter) exampleShelf

theorem examplePublished_facts :
    (examplePublished.2.objects.lookup (manifest_key exampleBackup)).isSome = true ∧
      (examplePublished.2.objects.lookup (abandonment_key exampleBackup)).isSome = false := by
  decide +kernel

theorem exampleJob_once : Once exampleJob := by
  have hpublisher : ∀ i id, (exampleJob i).Publishes id → i = false := by
    rintro (_ | _) id ⟨_, _, h⟩
    · rfl
    · cases h
  intro i j id hi hj
  rw [hpublisher i id hi, hpublisher j id hj]

/-- A publication beside a retention pass ends with a marker over a complete payload. -/
theorem published_backup_complete :
    Advertised examplePublished.2.store exampleBackup ∧
      ¬ Fenced examplePublished.2.store exampleBackup ∧
      Complete exampleAdapter examplePublished.2.store := by
  have hevery : Pool.every (fun _ => serve exampleAdapter exampleNow) (fun _ _ _ => true)
      exampleTurns (fun i => (exampleJob i).run exampleAdapter) exampleShelf = true := every_true
  have hrun := interleaved_turns (W := fun _ => storeWorld exampleAdapter) Shelf.store
    (fun _ o v _ => serve_world o v) hevery
  have hsound : Sound exampleAdapter exampleShelf.store :=
    ⟨fun _ _ ho => (Option.some_ne_none _ ho.symm).elim, fun _ h => nomatch h⟩
  obtain ⟨hmarker, hfence⟩ := examplePublished_facts
  refine ⟨hmarker, ?_, ?_⟩
  · intro hfenced
    exact Bool.false_ne_true (hfence.symm.trans hfenced)
  · apply advertised_backups_complete exampleJob_once hsound _ hrun
    exact fun _ _ _ => ⟨List.not_mem_nil, fun _ => rfl⟩

end AdvertisedBackups
