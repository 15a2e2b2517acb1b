import Odooctl.RemoteCompleteness

/-!
# What a publication knows

From its first upload to its completion marker a publication has the backup for itself: the
digests it records are those of the bytes it uploads, and the marker is put over artifacts
that were found with the digests of the manifest.
-/
namespace RemotePublication

open EffectPrograms ProgramRules PythonJson BackupManifests RemoteStore RemoteBackups
open RemoteWorld RemoteCompleteness
open S3Objects (is_digest toLower_of_digest)

variable {a : S3Adapter} {ctx : BackupContext} {job : Job} {s t u : Store} {id : String}
  {o : BackupCall} {α : Type}

/-! ## Before the marker -/

/-- The marker has never been stored, and the artifacts say the digests of their bytes. -/
structure Preparing (a : S3Adapter) (id : String) (s : Store) : Prop where
  unmarked : ¬ s.marked id
  honest : ∀ artifact ∈ REQUIRED_ARTIFACT_CHECKSUMS, ∀ o, s.objects [id, artifact.1] = some o →
    o.sha256 = some (a.sha256 o.body)

section Publication

variable (hjob : job.Publishes id)

include hjob

theorem Preparing.leaves (h : Preparing a id s) (hst : Leaves job s t) : Preparing a id t where
  unmarked := fun ht => h.unmarked (hst.unmarked id hjob ht)
  honest := by
    intro artifact hartifact o ho
    rcases hst.untouched id hjob h.unmarked [artifact.1] with heq | ⟨-, hnone⟩
    · rw [heq] at ho
      exact h.honest artifact hartifact o ho
    · rw [hnone] at ho
      cases ho

omit hjob in
theorem Preparing.put {key : Key} {o : Stored} (h : Preparing a id s)
    (hkey : key ≠ manifest_key id) (ho : o.sha256 = some (a.sha256 o.body)) :
    Preparing a id (s.put key o) where
  unmarked := by
    rintro (hs | heq)
    · exact h.unmarked hs
    · exact hkey heq
  honest := by
    intro artifact hartifact x hx
    by_cases heq : [id, artifact.1] = key
    · have hxo : x = o := by simpa [Store.put, heq] using hx.symm
      rw [hxo]
      exact ho
    · rw [put_other heq] at hx
      exact h.honest artifact hartifact x hx

omit hjob in
/-- What a publication may do anywhere leaves its artifacts alone. -/
theorem Preparing.free {r : o.Answer} (h : Preparing a id s) (hfree : Free job job.Publishes o)
    (hw : storeWorld a o s r t) : Preparing a id t := by
  rcases step_cases (permitted_free hfree authorised_own) hw with hfiled |
    ⟨source, key, digest, body, time, rfl, -, rfl⟩ | ⟨key, rfl, rfl⟩
  · constructor
    · rw [hfiled.marked]
      exact h.unmarked
    · rw [hfiled.objects]
      exact h.honest
  · obtain ⟨other, -, rfl⟩ := hfree
    constructor
    · rintro (hs | heq)
      · exact h.unmarked hs
      · exact absurd (List.cons.inj (List.cons.inj heq).2).1 (by decide)
    · intro artifact hartifact x hx
      rw [put_other] at hx
      · exact h.honest artifact hartifact x hx
      · intro heq
        exact (artifact_ne_marker hartifact).2 (List.cons.inj (List.cons.inj heq).2).1
  · obtain ⟨other, rfl⟩ := hfree
    constructor
    · exact h.unmarked
    · intro artifact hartifact x hx
      rw [delete_other] at hx
      · exact h.honest artifact hartifact x hx
      · intro heq
        exact (artifact_ne_marker hartifact).1 (List.cons.inj (List.cons.inj heq).2).1

theorem wp_preparing {p : BackupM α} (hs : Preparing a id s)
    (h : p.Calls (Free job job.Publishes)) :
    wp (jobWorld a job) (Permitted a job) p (fun _ t => Preparing a id t) s := by
  apply wp_keeps h hs (fun o u ho _ => permitted_free ho authorised_own)
  intro o u r t ho hu hw
  obtain ⟨v, hw, haround⟩ := hw
  exact (hu.free ho hw).leaves hjob haround.1

theorem wp_looks_preparing {p : BackupM α} (hs : Preparing a id s) (h : p.Calls Look) :
    wp (jobWorld a job) (Permitted a job) p (fun _ t => Preparing a id t) s :=
  wp_preparing hjob hs (free_of_look h)

theorem own_file (hst : Around a job s t) {relative : List String} :
    t.files (.backup id relative) = s.files (.backup id relative) := hst.1.files id hjob relative

/-- The bytes that are hashed are the bytes that are uploaded. -/
theorem wp_upload_payload {relative : List String} (hs : Preparing a id s)
    (hrel : relative ≠ [COMPLETION_MARKER]) :
    wp (jobWorld a job) (Permitted a job) (upload_object a (.backup id relative) (id :: relative))
      (fun _ t => Preparing a id t) s := by
  unfold upload_object
  apply wp_seq (wp_looks_preparing hjob hs looks_kind)
    (fun _ _ h => h)
  intro is t ht
  apply wp_refuse_if_seq (fun _ => ht)
  intro _
  apply wp_ofExcept_seq (fun _ _ => ht)
  intro key hkey
  obtain rfl := scoped_key_eq hkey
  apply wp_bind'.mpr
  apply wp_look (fun _ _ => permitted_look) (o := .read_file _) trivial
  intro r u hread htu
  have hu := ht.leaves hjob htu.1
  cases r with
  | error e => exact hu
  | ok body =>
    have hfile : u.files (.backup id relative) = some body :=
      (own_file hjob htu).trans (hread.2 body rfl)
    apply wp_bind'.mpr
    apply wp_perform_under
    · exact ⟨id, relative, rfl, .inr (.inr ⟨hrel, hjob, hu.unmarked⟩)⟩
    intro r v hw w hvw
    have hv : Preparing a id v := by
      rcases hw with ⟨other, time, hother, rfl⟩ | ⟨rfl, -⟩
      · obtain rfl := Option.some.inj (hother.symm.trans hfile)
        exact hu.put (by simpa [manifest_key] using hrel) rfl
      · exact hu
    cases r with
    | error e => exact hv.leaves hjob hvw.1
    | ok _ => exact wp_looks_preparing hjob (hv.leaves hjob hvw.1) looks_verify

theorem wp_upload_files {files : List (List String)} (hs : Preparing a id s) :
    wp (jobWorld a job) (Permitted a job) (upload_files a id files)
      (fun _ t => Preparing a id t) s := by
  induction files generalizing s with
  | nil => exact hs
  | cons relative rest ih =>
    unfold upload_files
    split
    · exact ih hs
    next hrel =>
    apply wp_seq (wp_upload_payload hjob hs hrel) (fun _ _ h => h)
    intro uploaded t ht
    exact wp_seq (ih ht) (fun _ _ h => h) fun _ _ h => h

theorem wp_upload_backup_payload (hs : Preparing a id s) :
    wp (jobWorld a job) (Permitted a job) (upload_backup_payload a id)
      (fun _ t => Preparing a id t) s := by
  unfold upload_backup_payload
  apply wp_seq (wp_looks_preparing hjob hs looks_backup_files) (fun _ _ h => h)
  intro files t ht
  apply wp_seq (wp_looks_preparing hjob ht looks_not_abandoned) (fun _ _ h => h)
  intro _ u hu
  apply wp_seq (wp_preparing hjob hu free_remove_marker) (fun _ _ h => h)
  intro _ v hv
  exact wp_upload_files hjob hv

theorem wp_publish_payload {remote : RemoteBackupConfig} {pending : BackupManifest}
    (hs : Preparing a id s) :
    wp (jobWorld a job) (Permitted a job) (publish_payload a remote id pending)
      (fun r t => Preparing a id t ∧ ∀ m, r = .ok m → m.backup_id = pending.backup_id) s := by
  unfold publish_payload
  apply wp_seq (wp_looks_preparing hjob hs looks_not_abandoned)
    (fun _ _ h => ⟨h, fun _ h => nomatch h⟩)
  intro _ t ht
  apply wp_seq (wp_upload_backup_payload hjob ht) (fun _ _ h => ⟨h, fun _ h => nomatch h⟩)
  intro objects u hu
  have hverified : (verified_payload a remote objects).Calls Look := by
    unfold verified_payload
    exact calls_ite looks_verify_contents (calls_pure _)
  apply wp_seq (wp_looks_preparing hjob hu hverified) (fun _ _ h => ⟨h, fun _ h => nomatch h⟩)
  intro verified v hv
  apply wp_ofExcept_seq (fun _ _ => ⟨hv, fun _ h => nomatch h⟩)
  intro _ _
  have htime : (verification_time remote).Calls Look := by
    exact calls_ite (calls_bind looks_clock fun _ => calls_pure _) (calls_pure _)
  apply wp_seq (wp_looks_preparing hjob hv htime) (fun _ _ h => ⟨h, fun _ h => nomatch h⟩)
  intro verified_at w hw
  refine ⟨hw, ?_⟩
  intro m hm
  obtain rfl := Except.ok.inj hm
  rfl

/-! ## The marker -/

omit hjob in
theorem manifest_digest_ok {value : Option Json} {artifact digest : String}
    (h : manifest_digest value artifact = .ok digest) :
    ∃ text, value = some (.str text) ∧ digest = text.toLower ∧ is_digest digest = true := by
  unfold manifest_digest at h
  split at h
  next text =>
    split at h
    next hdigest =>
      obtain rfl := Except.ok.inj h
      exact ⟨text, rfl, rfl, hdigest⟩
    · cases h
  · cases h

/-- The digests that the manifest records for the required artifacts. -/
structure Expects (a : S3Adapter) (body : Body) (expected : List (String × String)) : Prop where
  recorded : ∀ artifact ∈ REQUIRED_ARTIFACT_CHECKSUMS, ∃ digest,
    Recorded a body artifact digest ∧ (artifact.1, digest) ∈ expected
  required : ∀ p ∈ expected, (∃ artifact ∈ REQUIRED_ARTIFACT_CHECKSUMS, p.1 = artifact.1) ∧
    is_digest p.2 = true

omit hjob in
theorem expected_digests_ok {checksums : Items} {required expected : List (String × String)}
    (h : expected_digests checksums required = .ok expected) :
    (∀ artifact ∈ required, ∃ text,
      (get checksums artifact.2).or (get checksums artifact.1) = some (.str text) ∧
        (artifact.1, text.toLower) ∈ expected) ∧
    ∀ p ∈ expected, (∃ artifact ∈ required, p.1 = artifact.1) ∧ is_digest p.2 = true := by
  induction required generalizing expected with
  | nil =>
    obtain rfl := Except.ok.inj h
    exact ⟨(fun _ h => nomatch h), (fun _ h => nomatch h)⟩
  | cons first rest ih =>
    obtain ⟨artifact, name⟩ := first
    obtain ⟨digest, hdigest, h⟩ := CheckedLists.bind_eq_ok.mp h
    obtain ⟨others, hothers, h⟩ := CheckedLists.bind_eq_ok.mp h
    obtain rfl := Except.ok.inj h
    obtain ⟨text, htext, rfl, hvalid⟩ := manifest_digest_ok hdigest
    obtain ⟨hall, hwithin⟩ := ih hothers
    constructor
    · intro x hx
      rcases List.mem_cons.mp hx with rfl | hx
      · exact ⟨text, htext, List.mem_cons_self⟩
      · obtain ⟨text', htext', hmem⟩ := hall x hx
        exact ⟨text', htext', List.mem_cons_of_mem _ hmem⟩
    · intro p hp
      rcases List.mem_cons.mp hp with rfl | hp
      · exact ⟨⟨_, List.mem_cons_self, rfl⟩, hvalid⟩
      · obtain ⟨⟨x, hx, heq⟩, hdigest⟩ := hwithin p hp
        exact ⟨⟨x, List.mem_cons_of_mem _ hx, heq⟩, hdigest⟩

omit hjob in
theorem manifest_expectations_ok {name : String} {loaded : Except String Json}
    {expected : List (String × String)} (h : manifest_expectations name loaded = .ok expected) :
    ∃ manifest checksums, loaded = .ok (.dict manifest) ∧
      get manifest "checksums" = some (.dict checksums) ∧
      expected_digests checksums REQUIRED_ARTIFACT_CHECKSUMS = .ok expected := by
  unfold manifest_expectations at h
  obtain ⟨manifest, hmanifest, h⟩ := CheckedLists.bind_eq_ok.mp h
  obtain ⟨_, -, h⟩ := CheckedLists.bind_eq_ok.mp h
  obtain ⟨_, -, h⟩ := CheckedLists.bind_eq_ok.mp h
  obtain ⟨_, -, h⟩ := CheckedLists.bind_eq_ok.mp h
  obtain ⟨_, -, h⟩ := CheckedLists.bind_eq_ok.mp h
  obtain ⟨_, -, h⟩ := CheckedLists.bind_eq_ok.mp h
  obtain ⟨_, -, h⟩ := CheckedLists.bind_eq_ok.mp h
  unfold artifact_expectations at h
  obtain ⟨paths, -, h⟩ := CheckedLists.bind_eq_ok.mp h
  obtain ⟨normalized, -, h⟩ := CheckedLists.bind_eq_ok.mp h
  obtain ⟨_, -, h⟩ := CheckedLists.bind_eq_ok.mp h
  split at h
  next checksums hchecksums =>
    refine ⟨manifest, checksums, ?_, hchecksums, h⟩
    unfold loaded_manifest at hmanifest
    split at hmanifest
    next raw =>
      obtain rfl := Except.ok.inj hmanifest
      rfl
    · cases hmanifest
    · cases hmanifest
  · cases h

omit hjob in
theorem expects_of_expectations {name : String} {body : Body} {expected : List (String × String)}
    (h : manifest_expectations name (a.loads body) = .ok expected) : Expects a body expected := by
  obtain ⟨manifest, checksums, hloaded, hget, hexpected⟩ := manifest_expectations_ok h
  obtain ⟨hall, hwithin⟩ := expected_digests_ok hexpected
  refine ⟨?_, hwithin⟩
  intro artifact hartifact
  obtain ⟨text, htext, hmem⟩ := hall artifact hartifact
  exact ⟨text.toLower, ⟨manifest, checksums, text, hloaded, hget, htext, rfl⟩, hmem⟩

/-- The staged manifest is what is to be published. -/
structure Holding (a : S3Adapter) (id : String) (relative : List String) (body : Body) (s : Store) :
    Prop extends Preparing a id s where
  staged : s.files (.backup id relative) = some body

/-- Everything expected is there, unless the backup has been fenced. -/
def Matched (a : S3Adapter) (id : String) (expected : List (String × String)) (s : Store) : Prop :=
  Fenced s id ∨ ∀ p ∈ expected, ∃ o, s.objects [id, p.1] = some o ∧ a.sha256 o.body = p.2

variable {relative : List String} {body : Body} {expected : List (String × String)}

theorem Holding.around (h : Holding a id relative body s) (hst : Around a job s t) :
    Holding a id relative body t :=
  ⟨h.toPreparing.leaves hjob hst.1, (own_file hjob hst).trans h.staged⟩

theorem Matched.around (h : Matched a id expected s) (hs : ¬ s.marked id)
    (hst : Around a job s t) : Matched a id expected t := by
  by_cases hfence : Fenced s id
  · exact .inl (hst.1.fenced id hfence)
  · right
    intro p hp
    obtain ⟨o, ho, hdigest⟩ := h.resolve_left hfence p hp
    exact ⟨o, (hst.1.unfenced hjob hs hfence [p.1]).trans ho, hdigest⟩

theorem wp_looks_holding {p : BackupM α} (hs : Holding a id relative body s) (h : p.Calls Look) :
    wp (jobWorld a job) (Permitted a job) p (fun _ t => Around a job s t ∧
      Holding a id relative body t) s :=
  wp_post (wp_looks steady (fun _ _ => permitted_look) h) fun _ _ ht => ⟨ht, hs.around hjob ht⟩

omit hjob in
theorem matched_cons {p : String × String} {rest : List (String × String)}
    (hp : Matched a id [p] s) (h : Matched a id rest s) : Matched a id (p :: rest) s := by
  rcases hp with hf | hp
  · exact .inl hf
  rcases h with hf | h
  · exact .inl hf
  · right
    intro q hq
    rcases List.mem_cons.mp hq with rfl | hq
    · exact hp q List.mem_cons_self
    · exact h q hq

/-- Metadata of an artifact is the digest of its bytes. -/
theorem matched_of_headed {p : String × String} {info : S3ObjectInfo} {digest : String}
    (hs : Preparing a id s) (hst : Around a job s t) (h : Headed s [id, p.1] info)
    (hp : ∃ artifact ∈ REQUIRED_ARTIFACT_CHECKSUMS, p.1 = artifact.1) (hvalid : is_digest p.2 = true)
    (hinfo : info.sha256 = some digest) (hdigest : digest = p.2.toLower) :
    Matched a id [p] t := by
  refine Matched.around hjob (.inr ?_) hs.unmarked hst
  intro q hq
  obtain rfl := List.mem_singleton.mp hq
  obtain ⟨-, o, ho, hsha⟩ := h
  obtain ⟨artifact, hartifact, heq⟩ := hp
  have hhonest := hs.honest artifact hartifact o (heq ▸ ho)
  refine ⟨o, ho, ?_⟩
  rw [← hsha, hinfo, hdigest, toLower_of_digest hvalid] at hhonest
  exact (Option.some.inj hhonest).symm

theorem matched_of_seen {p : String × String} {body : Body} (hs : Preparing a id s)
    (h : Seen (Around a job) s [id, p.1] body t) (hvalid : is_digest p.2 = true)
    (hdigest : a.sha256 body = p.2.toLower) : Matched a id [p] t := by
  obtain ⟨u, o, hsu, hut, ho, rfl⟩ := h
  refine Matched.around hjob (.inr ?_) (hs.leaves hjob hsu.1).unmarked hut
  intro q hq
  obtain rfl := List.mem_singleton.mp hq
  exact ⟨o, ho, hdigest.trans (toLower_of_digest hvalid)⟩

theorem wp_payloads (hexpected : ∀ p ∈ expected,
      (∃ artifact ∈ REQUIRED_ARTIFACT_CHECKSUMS, p.1 = artifact.1) ∧ is_digest p.2 = true)
    (hs : Preparing a id s) :
    wp (jobWorld a job) (Permitted a job) (verify_manifest_payloads a id expected) (fun r t =>
      Around a job s t ∧ (r = .ok () → Matched a id expected t)) s := by
  induction expected generalizing s with
  | nil => exact ⟨steady.refl s, fun _ => .inr fun _ h => by cases h⟩
  | cons p rest ih =>
    obtain ⟨hp, hvalid⟩ := hexpected p List.mem_cons_self
    have hrest := fun q hq => hexpected q (List.mem_cons_of_mem p hq)
    have hnext : ∀ t, Around a job s t → Matched a id [p] t →
        wp (jobWorld a job) (Permitted a job) (verify_manifest_payloads a id rest) (fun r u =>
          Around a job s u ∧ (r = .ok () → Matched a id (p :: rest) u)) t := by
      intro t hst ht
      have hpre := hs.leaves hjob hst.1
      apply wp_post (ih hrest hpre)
      intro r u hu
      refine ⟨steady.trans _ _ _ hst hu.1, ?_⟩
      intro hr
      exact matched_cons (ht.around hjob hpre.unmarked hu.1) (hu.2 hr)
    obtain ⟨artifact, digest⟩ := p
    unfold verify_manifest_payloads
    apply wp_seq (wp_head steady fun _ _ => permitted_look)
    · exact fun e t h => ⟨h.1, fun h => by cases h⟩
    intro info t ht
    have hpre := hs.leaves hjob ht.1.1
    cases hinfo : info.sha256 with
    | none =>
      dsimp only
      apply wp_seq (wp_read_verified steady fun _ _ => permitted_look)
      · exact fun e u h => ⟨steady.trans _ _ _ ht.1 h.1, fun h => by cases h⟩
      intro read u hu
      obtain ⟨hseen, hsha⟩ := hu.2 read rfl
      exact hnext u (steady.trans _ _ _ ht.1 hu.1)
        (matched_of_seen hjob hpre hseen hvalid (hsha digest rfl))
    | some found =>
      dsimp only
      apply wp_seq (wp_verify steady fun _ _ => permitted_look)
      · exact fun e u h => ⟨steady.trans _ _ _ ht.1 h.1, fun h => by cases h⟩
      intro info' u hu
      obtain ⟨hheaded, hsha⟩ := hu.2 info' rfl
      apply hnext u (steady.trans _ _ _ ht.1 hu.1)
      obtain ⟨o, ho, hsame⟩ := hheaded.2
      obtain ⟨x, hx, heq⟩ := hp
      have hdigest : info'.sha256 = some (a.sha256 o.body) :=
        hsame.trans (hpre.honest x hx o (heq ▸ ho))
      exact matched_of_headed hjob hpre hu.1 hheaded ⟨x, hx, heq⟩ hvalid hdigest
        (hsha digest rfl _ hdigest)

/-- The staged manifest may be published. -/
structure Ready (a : S3Adapter) (id : String) (relative : List String) (body : Body) (s : Store) :
    Prop extends Holding a id relative body s where
  unfenced : ¬ Fenced s id
  covered : Covered a s id body

theorem Ready.around (h : Ready a id relative body s) (hst : Around a job s t) :
    Ready a id relative body t where
  toHolding := h.toHolding.around hjob hst
  unfenced := hst.1.still_unfenced hjob h.unmarked h.unfenced
  covered := covered_of_same h.covered fun artifact _ =>
    hst.1.unfenced hjob h.unmarked h.unfenced [artifact.1]

omit hjob in
theorem covered_of_matched (h : Expects a body expected) (hs : Matched a id expected s)
    (hfence : ¬ Fenced s id) : Covered a s id body := by
  intro artifact hartifact
  obtain ⟨digest, hrecorded, hmem⟩ := h.recorded artifact hartifact
  obtain ⟨o, ho, hdigest⟩ := hs.resolve_left hfence _ hmem
  exact ⟨digest, o, hrecorded, ho, hdigest⟩

theorem wp_check_upload (hs : Preparing a id s) :
    wp (jobWorld a job) (Permitted a job) (check_manifest_upload a (.backup id relative) id)
      (fun r t => Preparing a id t ∧ (r = .ok () → ∃ body, Ready a id relative body t)) s := by
  have herr : ∀ (e : BackupError) t, Preparing a id t → Preparing a id t ∧
      ((.error e : Except BackupError Unit) = .ok () → ∃ body, Ready a id relative body t) :=
    fun _ _ h => ⟨h, fun h => nomatch h⟩
  unfold check_manifest_upload upload_manifest_expectations
  apply wp_bind'.mpr
  apply wp_seq (wp_looks_preparing hjob hs looks_read_file) herr
  intro stat t ht
  apply wp_refuse_if_seq (fun e => herr e t ht)
  intro _
  apply wp_bind'.mpr
  apply wp_attempt.mpr
  apply wp_look (fun _ _ => permitted_look) (o := .read_file _) trivial
  intro r u hread htu
  have hu := ht.leaves hjob htu.1
  apply wp_ofExcept.mpr
  cases hloaded : manifest_expectations id
      (((asOs r).mapError BackupError.message) >>= a.loads) with
  | error e => exact herr e u hu
  | ok expected =>
    obtain ⟨body, hbody⟩ : ∃ body, r = .ok body := by
      cases r with
      | ok body => exact ⟨body, rfl⟩
      | error e =>
        obtain ⟨_, _, h, -⟩ := manifest_expectations_ok hloaded
        cases h
    subst hbody
    have hexpects : Expects a body expected := expects_of_expectations hloaded
    have hholding : Holding a id relative body u :=
      ⟨hu, (own_file hjob htu).trans (hread.2 body rfl)⟩
    dsimp only
    apply wp_seq (wp_payloads hjob hexpects.required hu)
    · exact fun e v h => herr e v (hu.leaves hjob h.1.1)
    intro _ v hv
    have hv' := hholding.around hjob hv.1
    have hmatched := hv.2 rfl
    apply wp_post (wp_not_abandoned steady fun _ _ => permitted_look)
    intro r w hw
    refine ⟨(hv'.around hjob hw.1).toPreparing, ?_⟩
    intro hr
    have hfence := hw.2 hr
    have hready : Ready a id relative body v :=
      ⟨hv', hfence, covered_of_matched hexpects hmatched hfence⟩
    exact ⟨body, hready.around hjob hw.1⟩

theorem wp_upload_marker (hs : Ready a id relative body s) :
    wp (jobWorld a job) (Permitted a job)
      (upload_object a (.backup id relative) (manifest_key id)) (fun _ _ => True) s := by
  unfold upload_object
  apply wp_bind'.mpr
  apply wp_look (fun _ _ => permitted_look) (o := .kind _) trivial
  intro is t _ hst
  have ht := hs.around hjob hst
  apply wp_refuse_if_seq (fun _ => trivial)
  intro _
  apply wp_ofExcept_seq (fun _ _ => trivial)
  intro key hkey
  obtain rfl := scoped_key_eq hkey
  apply wp_bind'.mpr
  apply wp_look (fun _ _ => permitted_look) (o := .read_file _) trivial
  intro r u _ htu
  have hu := ht.around hjob htu
  cases r with
  | error e => trivial
  | ok read =>
    apply wp_bind'.mpr
    apply wp_perform_under
    · refine ⟨id, [COMPLETION_MARKER], rfl, .inl ⟨rfl, hjob, hu.unmarked, hu.unfenced, ?_⟩⟩
      intro other hother
      obtain rfl := Option.some.inj (hother.symm.trans hu.staged)
      exact hu.covered
    intro r v _ w _
    cases r with
    | error e => trivial
    | ok _ =>
      exact wp_post (wp_free authorised_own (free_of_look looks_verify)) fun _ _ _ => trivial

theorem wp_upload_manifest (hs : Preparing a id s) :
    wp (jobWorld a job) (Permitted a job) (upload_manifest a (.backup id relative) id)
      (fun _ _ => True) s := by
  unfold upload_manifest
  apply wp_backup_name_seq (fun _ => trivial)
  apply wp_seq (wp_looks_preparing hjob hs looks_kind) (fun _ _ _ => trivial)
  intro is t ht
  apply wp_refuse_if_seq (fun _ => trivial)
  intro _
  apply wp_seq (wp_looks_preparing hjob ht looks_not_abandoned) (fun _ _ _ => trivial)
  intro _ u hu
  apply wp_attempt_seq (wp_check_upload hjob hu)
  intro checked v hv
  cases checked with
  | error e =>
    apply wp_seq (wp_free authorised_own free_delete_marker) (fun _ _ _ => trivial)
    exact fun _ _ _ => trivial
  | ok _ =>
    obtain ⟨body, hready⟩ := hv.2 rfl
    exact wp_upload_marker hjob hready

/-! ## The whole publication -/

theorem wp_stage {manifest : BackupManifest} (hs : Preparing a id s) :
    wp (jobWorld a job) (Permitted a job) (stage_manifest id manifest) (fun r t =>
      Preparing a id t ∧ ∀ path, r = .ok path →
        ∃ name, path = .backup id [name] ∧ name.toList.head? = some '.') s := by
  unfold stage_manifest
  apply wp_seq (wp_looks_preparing hjob hs looks_random_hex)
    (fun _ _ h => ⟨h, fun _ h => nomatch h⟩)
  intro token t ht
  have hname : (s!".manifest-{token}.remote").toList.head? = some '.' := dotted (dotted rfl)
  have hcreate : (create_file (.backup id [s!".manifest-{token}.remote"])
      (.manifest manifest)).Calls (Free job job.Publishes) :=
    calls_perform.mpr (writable_dotted hjob hname)
  apply wp_seq (wp_preparing hjob ht hcreate) (fun _ _ h => ⟨h, fun _ h => nomatch h⟩)
  intro _ u hu
  refine ⟨hu, ?_⟩
  intro path hpath
  obtain rfl := Except.ok.inj hpath
  exact ⟨_, rfl, hname⟩

theorem wp_publish_marker {remote : RemoteBackupConfig} {complete : BackupManifest}
    {name : String} (hid : complete.backup_id = id) (hs : Preparing a id s) :
    wp (jobWorld a job) (Permitted a job)
      (publish_marker a remote id (.backup id [name]) complete) (fun _ _ => True) s := by
  subst hid
  unfold publish_marker
  apply wp_seq (wp_upload_manifest hjob hs) (fun _ _ _ => trivial)
  intro marker t _
  have hrest : ∀ body, (do
      refuse_if (marker.sha256 ≠ some (a.sha256 body)) .integrity
        "Published completion marker does not match the final manifest"
      if remote.verify_after_upload then do
        let _ ← verify_object_content a marker.key (some (a.sha256 body))
        persist_local_manifest complete.backup_id complete
        .pure complete
      else do
        persist_local_manifest complete.backup_id complete
        .pure complete : BackupM BackupManifest).Calls (Free job job.Publishes) := by
    intro body
    apply calls_bind calls_refuse_if
    intro _
    have hpersist : (do
        persist_local_manifest complete.backup_id complete
        .pure complete : BackupM BackupManifest).Calls (Free job job.Publishes) :=
      calls_bind (free_persist hjob) fun _ => calls_pure _
    exact calls_ite (calls_bind (free_of_look looks_verify_content) fun _ => hpersist) hpersist
  have hread : (read_file (.backup complete.backup_id [name])).Calls
      (Free job job.Publishes) := free_of_look looks_read_file
  have hfree := calls_bind hread hrest
  exact wp_post (wp_free authorised_own hfree) fun _ _ _ => trivial

theorem wp_try_publish {remote : RemoteBackupConfig} {pending : BackupManifest}
    (hid : pending.backup_id = id) (hs : Preparing a id s) :
    wp (jobWorld a job) (Permitted a job) (try_publish a remote id pending) (fun r _ =>
      ∀ path outcome, r = .ok (some path, outcome) → Writable job path) s := by
  unfold try_publish
  apply wp_attempt_seq (wp_publish_payload hjob hs)
  intro uploaded t ht
  cases uploaded with
  | error e => exact fun _ _ h => nomatch h
  | ok complete =>
    apply wp_attempt_seq (wp_stage hjob ht.1)
    intro staged u hu
    cases staged with
    | error e => exact fun _ _ h => nomatch h
    | ok path =>
      obtain ⟨name, rfl, hname⟩ := hu.2 path rfl
      have hcomplete := (ht.2 complete rfl).trans hid
      apply wp_attempt_seq (wp_publish_marker hjob hcomplete hu.1)
      intro published v _ path outcome h
      cases h
      exact writable_dotted hjob hname

theorem wp_publish_pending {remote : RemoteBackupConfig} {pending : BackupManifest}
    (hs : Preparing a id s) :
    wp (jobWorld a job) (Permitted a job) (publish_pending a remote id pending)
      (fun _ _ => True) s := by
  unfold publish_pending
  by_cases hid : id = pending.backup_id
  · apply wp_seq (wp_preparing hjob hs (free_persist hjob)) (fun _ _ _ => trivial)
    intro _ t ht
    apply wp_seq (wp_try_publish hjob hid.symm ht) (fun _ _ _ => trivial)
    intro tried u hu
    have hconclude : (conclude a remote id pending tried.2).Calls (Free job job.Publishes) :=
      free_conclude hjob (hid ▸ hjob)
    have hdiscard : (discard_staged tried.1).Calls (Free job job.Publishes) := by
      obtain ⟨staged, outcome⟩ := tried
      cases staged with
      | none => exact calls_pure _
      | some path => exact calls_perform (F := Backups) |>.mpr (hu path outcome rfl)
    exact wp_post (wp_free authorised_own (calls_ensuring hconclude hdiscard))
      fun _ _ _ => trivial
  · unfold persist_local_manifest refuse_if fail
    rw [if_pos hid]
    trivial

theorem wp_publish {manifest : BackupManifest} (hs : Preparing a id s) :
    wp (jobWorld a job) (Permitted a job) (publish_remote_backup a ctx id manifest)
      (fun _ _ => True) s := by
  unfold publish_remote_backup
  split
  · have hdisabled : (publish_disabled id manifest).Calls (Free job job.Publishes) :=
      calls_ite (calls_pure _) (calls_bind (free_persist hjob) fun _ => calls_pure _)
    exact wp_post (wp_free authorised_own hdisabled) fun _ _ _ => trivial
  · exact wp_publish_pending hjob hs

end Publication

end RemotePublication
