import Odooctl.MigrationReads

/-!
# What a filestore migration deletes

The source of a migration is removed only under a manifest that says so, after the target
has been read in full, and, unless the source was not found, after the source has been
compared in the same call.
-/
namespace MigrationSafety

open EffectPrograms FilestoreManifest ObjectFilestore FilestoreMigration MigrationWorld
open MigrationReads
open ProjectConfiguration (PosixPath validate_identifier)

variable {lib : Library} {ctx : ServiceContext} {W : World Migration State}
  {G : Migration.Op → State → Prop} {s t u : State} {α β : Type}

section Sequences

variable {Q : Except String α → State → Prop}

/-! ## Manifests -/

theorem wp_loaded {label : String} {fields : MigrationFields}
    {f : MigrationManifest lib → MigrationM α} (herr : ∀ e, Q (.error e) s)
    (hok : ∀ m, m.toMigrationFields = fields → wp W G (f m) Q s) :
    wp W G (loaded lib label fields >>= f) Q s := by
  apply wp_ofExcept_bind herr
  intro m hm
  cases hv : (model_validate fields : Except (List String) (MigrationManifest lib)) with
  | error faults =>
    rw [hv] at hm
    cases hm
  | ok m' =>
    rw [hv] at hm
    obtain rfl := Except.ok.inj hm
    exact hok m' (model_validate_ok hv)

theorem wp_updated {manifest : MigrationManifest lib} {updates : MigrationFields → MigrationFields}
    {f : MigrationManifest lib → MigrationM α} (herr : ∀ e, Q (.error e) s)
    (hok : ∀ m, m.toMigrationFields = updates manifest.toMigrationFields → wp W G (f m) Q s) :
    wp W G (updated manifest updates >>= f) Q s := by
  apply wp_ofExcept_bind herr
  intro m hm
  cases hv : validated_update manifest updates with
  | error faults =>
    rw [hv] at hm
    cases hm
  | ok m' =>
    rw [hv] at hm
    obtain rfl := Except.ok.inj hm
    exact hok m' (model_validate_ok hv)

/-- A save that returns has written the manifest. -/
theorem wp_save (hW : Noting W) (hG : ∀ o u, Plain o → G o u) {manifest : MigrationManifest lib}
    (hwrite : ∀ t, Reads s t → G (.inl (.write_manifest manifest.toMigrationFields)) t) :
    wp W G (save_filestore_migration manifest) (fun r t => r = .ok () →
      ∃ u, Reads s u ∧ Reads (u.write manifest.toMigrationFields) t) s := by
  unfold save_filestore_migration
  apply wp_ofExcept_bind (fun _ h => nomatch h)
  intro safe_id _
  have hfound : wp W (fun o _ => Look o) (send (.existing_manifest safe_id))
      (fun _ _ => True) s := wp_send.mpr ⟨trivial, fun _ _ _ => trivial⟩
  apply wp_look_seq hW hG hfound (fun _ _ _ h => nomatch h)
  intro existing t _ hst
  have hguard : wp W (fun o _ => Look o) (guard_existing_identity manifest existing)
      (fun _ _ => True) t := by
    cases existing with
    | none => trivial
    | some fields =>
      apply wp_loaded (fun _ => trivial)
      intro current _
      unfold reject_if
      split <;> trivial
  apply wp_look_seq hW hG hguard (fun _ _ _ h => nomatch h)
  intro _ u _ htu
  apply wp_send.mpr
  refine ⟨hwrite u (hst.trans htu), ?_⟩
  intro r v hw hok
  rcases hW.write hw with hv | ⟨-, e, he⟩
  · exact ⟨u, hst.trans htu, hv⟩
  · rw [he] at hok
    cases hok

/-- What a call finds of its migration: the manifest on disk, and a configuration that it
was planned for. -/
structure Owns (lib : Library) (ctx : ServiceContext) (environment migration_id : String)
    (s : State) (owned : Owned lib) : Prop where
  configured : backend ctx environment = .pure (owned.env, owned.backend)
  durable : s.manifests migration_id = some owned.manifest.toMigrationFields
  id : owned.manifest.migration_id = migration_id
  in_project : owned.manifest.project = ctx.project
  in_environment : owned.manifest.environment = environment
  source : (owned.manifest.source_backend, owned.manifest.source_location) =
    source_description (source_of ctx owned.env owned.backend)
  target : some owned.manifest.target_backend = owned.backend.type.target
  modular : owned.manifest.module_name = owned.backend.module_name
  location : target_location lib ctx environment owned.backend migration_id =
    .pure owned.manifest.target_location

variable {environment migration_id : String} {owned owned' : Owned lib}

theorem Owns.same (h : Owns lib ctx environment migration_id s owned)
    (k : Owns lib ctx environment migration_id t owned') (hst : t.manifests = s.manifests) :
    owned' = owned := by
  obtain ⟨manifest, env, backend⟩ := owned
  obtain ⟨manifest', env', backend'⟩ := owned'
  have hpair := Prog.pure.inj (k.configured.symm.trans h.configured)
  obtain ⟨rfl, rfl⟩ := Prod.mk.inj hpair
  have hdurable := k.durable
  rw [hst, h.durable] at hdurable
  have hmanifest : manifest = manifest' := by
    cases manifest
    cases manifest'
    simpa using hdurable
  rw [hmanifest]

/-- The location of the target takes no operation to find. -/
theorem target_location_plain {backend : FilestoreBackendConfig} :
    ∃ r, target_location lib ctx environment backend migration_id = .ofExcept r := by
  unfold target_location
  split
  · cases object_store_of ctx environment backend with
    | error e => exact ⟨.error e, rfl⟩
    | ok config =>
      simp only [Prog.ofExcept, Prog.bind_eq, Prog.bind, migration_manifest_key,
        ObjectFilestore.migration_id]
      split
      · simp only [Prog.bind, scoped_key]
        split
        · exact ⟨.error _, rfl⟩
        · exact ⟨.ok _, rfl⟩
      · exact ⟨.error _, rfl⟩
  · split
    · split
      · exact ⟨.ok _, rfl⟩
      · exact ⟨.error _, rfl⟩
    · exact ⟨.error _, rfl⟩

theorem backend_plain : ∃ r, backend ctx environment = .ofExcept r := by
  unfold backend env
  cases ctx.environments.lookup environment with
  | none => exact ⟨.error _, rfl⟩
  | some env =>
    simp only [Prog.bind_eq, Prog.bind]
    cases env.filestore_backend with
    | none => exact ⟨.error _, rfl⟩
    | some backend => exact ⟨.ok _, rfl⟩

theorem wp_owned_migration (hW : Noting W) (hG : ∀ o u, Plain o → G o u) :
    wp W G (owned_migration lib ctx environment migration_id) (fun r t =>
      ∀ owned, r = .ok owned → t.manifests = s.manifests ∧
        Owns lib ctx environment migration_id s owned) s := by
  unfold owned_migration
  obtain ⟨rb, hb⟩ : ∃ r, backend ctx environment = .ofExcept r := backend_plain
  rw [hb]
  apply wp_ofExcept_bind (fun _ _ h => nomatch h)
  intro (env, backend) hrb
  subst hrb
  unfold get_filestore_migration
  apply wp_bind'.mpr
  apply wp_ofExcept_bind (fun _ _ h => nomatch h)
  intro safe_id hsafe
  obtain rfl : safe_id = migration_id := by
    unfold safe_backup_component at hsafe
    split at hsafe
    · cases hsafe
    · exact (Except.ok.inj hsafe).symm
  apply wp_bind'.mpr
  apply wp_send.mpr
  refine ⟨hG _ _ trivial, ?_⟩
  intro r t hload
  obtain ⟨hst, hfound⟩ := hW.load hload
  cases r with
  | error e => exact fun _ h => nomatch h
  | ok fields =>
  apply wp_loaded (fun _ _ h => nomatch h)
  intro manifest hfields
  apply wp_reject_if (fun _ _ h => nomatch h)
  intro hid
  apply wp_reject_if (fun _ _ h => nomatch h)
  intro hbelongs
  obtain ⟨rl, hl⟩ : ∃ r, target_location lib ctx environment backend safe_id = .ofExcept r :=
    target_location_plain
  rw [hl]
  apply wp_ofExcept_bind (fun _ _ h => nomatch h)
  intro location hrl
  subst hrl
  apply wp_reject_if (fun _ _ h => nomatch h)
  intro hsame owned howned
  obtain rfl := Except.ok.inj howned
  simp only [not_or, not_not] at hid hbelongs hsame
  obtain ⟨hsource, htarget, hmodule⟩ := hsame
  refine ⟨hst.manifests, hb, ?_, hid, hbelongs.1, hbelongs.2.1, hsource, hbelongs.2.2, hmodule,
    ?_⟩
  · rw [hfields]
    exact hfound fields rfl
  · rw [hl, htarget]
    rfl

/-! ## Deletion -/

theorem adapter_length {config : FilestoreObjectStoreConfig} :
    (object_adapter lib ctx environment config).length = body_length lib := by
  funext body
  cases body <;> rfl

theorem wp_verify_target (hW : Noting W)
    (howned : Owns lib ctx environment migration_id s owned) :
    wp W (fun o _ => Look o) (verify_target ctx environment owned)
      (fun r u => r = .ok () → TargetVerified lib u owned.manifest.toMigrationFields) t := by
  unfold verify_target
  have htarget := howned.target
  by_cases hobjects : owned.backend.type.in_objects = true
  · have hposix : owned.manifest.target_backend ≠ .posix_object_mount := by
      intro hposix
      rw [hposix] at htarget
      cases htype : owned.backend.type <;> simp_all [BackendType.in_objects, BackendType.target]
    rw [if_pos hobjects]
    apply wp_ofExcept_bind (fun _ h => nomatch h)
    intro config _
    let adapter := object_adapter lib ctx environment config
    have hremote : wp W.onRight (fun o _ => Look (.inr o))
        (verify_inventory (a := adapter) owned.manifest) (fun r u => ∀ v, r = .ok v →
          RemoteRead adapter.sha256 adapter.length u owned.manifest.toMigrationFields) t :=
      wp_verify_inventory hW fun e he => entry_sha256 he
    apply wp_bind'.mpr
    apply wp_onStore.mpr
    apply wp_post hremote
    intro r u hread
    cases r with
    | error e => exact fun h => nomatch h
    | ok remote =>
    have hverified : TargetVerified lib u owned.manifest.toMigrationFields := by
      rw [TargetVerified, if_neg hposix, ← adapter_length]
      exact hread remote rfl
    change wp _ _ (reject_if _ _) _ _
    unfold reject_if
    split <;> exact fun _ => hverified
  · have hposix : owned.manifest.target_backend = .posix_object_mount := by
      cases htype : owned.backend.type <;> simp_all [BackendType.in_objects, BackendType.target]
    rw [if_neg hobjects]
    apply wp_post (wp_require_inventory hW)
    intro r u hmatched hr
    rw [TargetVerified, if_pos hposix]
    exact hmatched hr

/-- The verification that a deletion begins with. -/
theorem wp_verify_migration (hW : Noting W) (hG : ∀ o u, Plain o → G o u)
    (howned : Owns lib ctx environment migration_id s owned) (hst : t.manifests = s.manifests)
    (hcutover : owned.manifest.status = .cutover) :
    wp W G (verify_migration lib ctx environment migration_id) (fun r u =>
      ∀ v, r = .ok v → u.manifests = s.manifests ∧
        TargetVerified lib u owned.manifest.toMigrationFields) t := by
  unfold verify_migration
  apply wp_seq (wp_owned_migration hW hG) (fun _ _ _ _ h => nomatch h)
  intro owned' u hu
  obtain ⟨hsame, howns⟩ := hu owned' rfl
  obtain rfl : owned' = owned := howned.same howns hst
  apply wp_reject_if (fun _ _ h => nomatch h)
  intro _
  apply wp_look_seq hW hG (wp_verify_target hW howned) (fun _ _ _ _ h => nomatch h)
  intro _ v hverified huv
  have hnow : wp W (fun o _ => Look o) (send .now_utc) (fun _ _ => True) v :=
    wp_send.mpr ⟨trivial, fun _ _ _ => trivial⟩
  apply wp_look_seq hW hG hnow (fun _ _ _ _ h => nomatch h)
  intro verified_at w _ hvw
  unfold record_verified
  rw [if_neg (not_not.mpr hcutover)]
  intro _ _
  exact ⟨(hvw.manifests.trans huv.manifests).trans (hsame.trans hst),
    (hverified rfl).later hvw.toMore⟩

/-- What holds where the source of a migration may be removed. -/
structure Authorized (lib : Library) (t : State) (source : Source) (m : MigrationFields) : Prop where
  durable : t.manifests m.migration_id = some m
  cutover : m.status = .cutover
  started : m.source_delete_started_at ≠ none
  described : (m.source_backend, m.source_location) = source_description source
  target : TargetVerified lib t m

theorem Authorized.later {source : Source} {m : MigrationFields} (h : Authorized lib s source m)
    (hr : Reads s t) : Authorized lib t source m where
  durable := hr.manifests ▸ h.durable
  cutover := h.cutover
  started := h.started
  described := h.described
  target := h.target.later hr.toMore

theorem verified_started {m : MigrationFields} {at_ : Option PitrRestoreRecord.Timestamp}
    {e : Option String} (h : TargetVerified lib t m) :
    TargetVerified lib t { m with source_delete_started_at := at_, last_error := e } := by
  unfold TargetVerified at h ⊢
  by_cases hposix : m.target_backend = .posix_object_mount
  · rw [if_pos hposix] at h ⊢
    exact h
  · rw [if_neg hposix] at h ⊢
    exact ⟨h.marker, h.entries⟩

/-- What is written when a deletion starts. -/
def Starts (lib : Library) (ctx : ServiceContext) (environment migration_id : String) (u : State)
    (m : MigrationFields) : Prop :=
  ∃ (owned : Owned lib) (at_ : PitrRestoreRecord.Timestamp),
    Owns lib ctx environment migration_id u owned ∧ owned.manifest.status = .cutover ∧
    TargetVerified lib u owned.manifest.toMigrationFields ∧
    m = { owned.manifest.toMigrationFields with
          source_delete_started_at := some at_, last_error := none }

/-- What is written when a deletion is complete. -/
def Completes (migration_id : String) (u : State) (m : MigrationFields) : Prop :=
  ∃ started at_, u.manifests migration_id = some started ∧
    started.source_delete_started_at ≠ none ∧
    m = { started with source_deleted := true, source_deleted_at := at_, last_error := none }

theorem Owns.later (h : Owns lib ctx environment migration_id s owned)
    (hst : t.manifests = s.manifests) : Owns lib ctx environment migration_id t owned :=
  { h with durable := hst ▸ h.durable }

theorem wp_authorize_deletion (hW : Noting W) (hG : ∀ o u, Plain o → G o u)
    (howned : Owns lib ctx environment migration_id t owned)
    (hcutover : owned.manifest.status = .cutover)
    (htarget : TargetVerified lib t owned.manifest.toMigrationFields) {found : Bool}
    (habsent : found = false → t.said_absent = true)
    (hwrite : ∀ u (m : MigrationManifest lib), Starts lib ctx environment migration_id u
      m.toMigrationFields → G (.inl (.write_manifest m.toMigrationFields)) u) :
    wp W G (authorize_deletion owned.manifest (source_of ctx owned.env owned.backend) found)
      (fun r u => ∀ started, r = .ok started → started.migration_id = migration_id ∧
        Authorized lib u (source_of ctx owned.env owned.backend) started.toMigrationFields ∧
        (Matched lib u (source_of ctx owned.env owned.backend) started.toMigrationFields ∨
          u.said_absent = true)) t := by
  have hauthorized : ∀ u, Reads t u → owned.manifest.source_delete_started_at ≠ none →
      Authorized lib u (source_of ctx owned.env owned.backend) owned.manifest.toMigrationFields := by
    intro u htu hstarted
    refine ⟨?_, hcutover, hstarted, howned.source, htarget.later htu.toMore⟩
    rw [htu.manifests, howned.id]
    exact howned.durable
  unfold authorize_deletion
  split
  next hnew =>
    apply wp_reject_if (fun _ _ h => nomatch h)
    intro _
    apply wp_match_source hW hG (fun _ _ _ _ h => nomatch h)
    intro u htu hmatched
    have hnow : wp W (fun o _ => Look o) (send .now_utc) (fun _ _ => True) u :=
      wp_send.mpr ⟨trivial, fun _ _ _ => trivial⟩
    apply wp_look_seq hW hG hnow (fun _ _ _ _ h => nomatch h)
    intro at_ v _ huv
    apply wp_updated (fun _ _ h => nomatch h)
    intro started hfields
    have htv := htu.trans huv
    have hstarts : ∀ w, Reads v w →
        G (.inl (.write_manifest started.toMigrationFields)) w := by
      intro w hvw
      have htw := htv.trans hvw
      exact hwrite w started ⟨owned, at_, howned.later htw.manifests, hcutover,
        htarget.later htw.toMore, hfields⟩
    apply wp_seq (wp_save hW hG hstarts) (fun _ _ _ _ h => nomatch h)
    intro _ y hy m hm
    obtain rfl : started = m := Except.ok.inj hm
    obtain ⟨w, hvw, hwritten⟩ := hy rfl
    have hmore : More w y := ⟨hwritten.listed, hwritten.headed, hwritten.fetched⟩
    have htarget' := htarget.later ((htv.trans hvw).toMore.trans hmore)
    have hmatched' := hmatched.later ((huv.trans hvw).toMore.trans hmore)
    have hdurable : y.manifests started.migration_id = some started.toMigrationFields := by
      rw [hwritten.manifests]
      exact Function.update_self _ _ _
    refine ⟨?_, ⟨hdurable, ?_, ?_, ?_, ?_⟩, .inl ?_⟩
    · rw [hfields]
      exact howned.id
    · rw [hfields]
      exact hcutover
    · simp [hfields]
    · rw [hfields]
      exact howned.source
    · rw [hfields]
      exact verified_started htarget'
    · rw [hfields]
      exact hmatched'
  next hold =>
    split
    next hfound =>
      apply wp_match_source hW hG (fun _ _ _ _ h => nomatch h)
      intro u htu hmatched m hm
      obtain rfl := Except.ok.inj hm
      exact ⟨howned.id, hauthorized u htu hold, .inl hmatched⟩
    next hfound =>
      intro m hm
      obtain rfl := Except.ok.inj hm
      exact ⟨howned.id, hauthorized t (Reads.refl t) hold, .inr (habsent (by simpa using hfound))⟩

theorem wp_delete_source (hW : Noting W) (hG : ∀ o u, Plain o → G o u)
    (hwrite : ∀ u (m : MigrationManifest lib),
      (Starts lib ctx environment migration_id u m.toMigrationFields ∨
        Completes migration_id u m.toMigrationFields) →
      G (.inl (.write_manifest m.toMigrationFields)) u)
    (hremove : ∀ u source m, Authorized lib u source m →
      (Matched lib u source m ∨ u.said_absent = true) → G (.inl (.remove_source source)) u)
    {confirm_environment confirm_migration_id : String} {delete_source : Bool} :
    wp W G (delete_source_after_cutover lib ctx environment migration_id confirm_environment
      confirm_migration_id delete_source) (fun _ _ => True) s := by
  unfold delete_source_after_cutover
  apply wp_reject_if (fun _ => trivial)
  intro _
  apply wp_seq (wp_owned_migration hW hG) (fun _ _ _ => trivial)
  intro owned t ht
  obtain ⟨hst, howned⟩ := ht owned rfl
  apply wp_reject_if (fun _ => trivial)
  intro _
  by_cases hdeleted : owned.manifest.source_deleted = true
  · rw [if_pos hdeleted]
    trivial
  rw [if_neg hdeleted]
  apply wp_reject_if (fun _ => trivial)
  intro hstatus
  have hcutover := not_not.mp hstatus
  apply wp_seq (wp_verify_migration hW hG howned hst hcutover) (fun _ _ _ => trivial)
  intro verified u hu
  obtain ⟨hsu, htarget⟩ := hu verified rfl
  apply wp_bind'.mpr
  apply wp_send.mpr
  refine ⟨hG _ _ trivial, ?_⟩
  intro r v htest
  cases r with
  | error e => trivial
  | ok found =>
  have huv := hW.test htest
  have habsent : found = false → v.said_absent = true := by
    intro hfound
    rw [huv.said_absent, hfound]
    rfl
  have htarget' : TargetVerified lib v owned.manifest.toMigrationFields :=
    htarget.later ⟨huv.listed, huv.headed, huv.fetched⟩
  have howned' := howned.later (huv.manifests.trans hsu)
  apply wp_seq (wp_authorize_deletion hW hG howned' hcutover htarget' habsent
    fun u m hm => hwrite u m (.inl hm)) (fun _ _ _ => trivial)
  intro started w hw
  obtain ⟨hid, hauthorized, hmatched⟩ := hw started rfl
  apply wp_seq (R := fun _ x => x.manifests = w.manifests)
  · generalize source_of ctx owned.env owned.backend = source at *
    have hsend : wp W G (send (.remove_source source)) (fun _ x => x.manifests = w.manifests) w :=
      wp_send.mpr ⟨hremove w source _ hauthorized hmatched, fun _ _ h => hW.remove h⟩
    cases source with
    | path text => exact wp_reject_if (fun _ => rfl) fun _ => hsend
    | volume v => exact hsend
  · exact fun _ _ _ => trivial
  intro _ x hx
  have hnow : wp W (fun o _ => Look o) (send .now_utc) (fun _ _ => True) x :=
    wp_send.mpr ⟨trivial, fun _ _ _ => trivial⟩
  apply wp_look_seq hW hG hnow (fun _ _ _ => trivial)
  intro at_ y _ hxy
  apply wp_updated (fun _ => trivial)
  intro deleted hfields
  apply wp_seq (wp_save hW hG fun z hyz => hwrite z deleted (.inr ?_)) (fun _ _ _ => trivial)
  · exact fun _ _ _ => trivial
  · refine ⟨started.toMigrationFields, some at_, ?_, hauthorized.started, hfields⟩
    rw [hyz.manifests, hxy.manifests, hx, ← hid]
    exact hauthorized.durable

end Sequences

/-! ## The other operations -/

/-- Removes no source, and writes only valid manifests. -/
def Careful (lib : Library) : Migration.Op → Prop
  | .inl (.write_manifest m) => m.faults lib.sha256 = []
  | .inl (.remove_source _) => False
  | _ => True

section Calls

variable {environment migration_id : String}

theorem calls_send {c : LocalCall} (h : Careful lib (.inl c)) : (send c).Calls (Careful lib) :=
  calls_left (calls_perform.mpr h)

theorem calls_onStore {p : StoreM α} : (onStore p).Calls (Careful lib) :=
  calls_right (calls_all (fun _ => trivial) _)

theorem calls_reject_if {c : Prop} [Decidable c] {message : String} :
    (reject_if c message).Calls (Careful lib) :=
  calls_ite (calls_raise _) (calls_pure _)

theorem calls_save {manifest : MigrationManifest lib} :
    (save_filestore_migration manifest).Calls (Careful lib) := by
  apply calls_bind (calls_ofExcept _)
  intro safe_id
  refine calls_bind (calls_send trivial) ?_
  intro existing
  apply calls_bind
  · cases existing with
    | none => exact calls_pure _
    | some fields => exact calls_bind (calls_ofExcept _) fun _ => calls_reject_if
  · intro _
    exact calls_send manifest.valid

/-- An update that is saved, and what follows. -/
theorem calls_update {manifest : MigrationManifest lib} {updates : MigrationFields → MigrationFields}
    {f : MigrationManifest lib → MigrationM α} (hf : ∀ m, (f m).Calls (Careful lib)) :
    (updated manifest updates >>= fun m =>
      save_filestore_migration m >>= fun _ => f m).Calls (Careful lib) :=
  calls_bind (calls_ofExcept _) fun m => calls_bind calls_save fun _ => hf m

theorem calls_scan_filestore {root : Root} : (scan_filestore lib root).Calls (Careful lib) := by
  apply calls_bind
  · cases root with
    | directory path => exact calls_bind (calls_send trivial) fun _ => calls_reject_if
    | extracted tree => exact calls_pure _
  · intro _
    exact calls_bind (calls_send trivial) fun _ => calls_ofExcept _

theorem calls_require_inventory {root : Root} {manifest : MigrationManifest lib}
    {message : String} : (require_inventory root manifest message).Calls (Careful lib) :=
  calls_bind calls_scan_filestore fun _ => calls_reject_if

theorem calls_materialized_source {source : Source} :
    (materialized_source source).Calls (Careful lib) := by
  cases source with
  | path text =>
    apply calls_bind
    · exact calls_bind (calls_send trivial) fun _ => calls_reject_if
    · exact fun _ => calls_pure _
  | volume v => exact calls_bind (calls_send trivial) fun _ => calls_pure _

theorem calls_target_location {backend : FilestoreBackendConfig} :
    (target_location lib ctx environment backend migration_id).Calls (Careful lib) := by
  obtain ⟨r, hr⟩ : ∃ r, target_location lib ctx environment backend migration_id = .ofExcept r :=
    target_location_plain
  rw [hr]
  exact calls_ofExcept r

theorem calls_backend : (backend ctx environment).Calls (Careful lib) := by
  obtain ⟨r, hr⟩ : ∃ r, backend ctx environment = .ofExcept r := backend_plain
  rw [hr]
  exact calls_ofExcept r

theorem calls_owned_migration :
    (owned_migration lib ctx environment migration_id).Calls (Careful lib) := by
  apply calls_bind calls_backend
  intro (env, backend)
  apply calls_bind
  · apply calls_bind (calls_ofExcept _)
    intro _
    refine calls_bind (calls_send trivial) ?_
    intro _
    exact calls_bind (calls_ofExcept _) fun _ => calls_bind calls_reject_if fun _ => calls_pure _
  · intro manifest
    apply calls_bind calls_reject_if
    intro _
    apply calls_bind calls_target_location
    intro _
    exact calls_bind calls_reject_if fun _ => calls_pure _

theorem calls_copy_inventory {root : Root} {destination : String}
    {manifest : MigrationManifest lib} :
    (copy_inventory root destination manifest).Calls (Careful lib) := by
  refine calls_bind (calls_send trivial) ?_
  intro found
  apply calls_ite calls_require_inventory
  refine calls_bind (calls_send trivial) ?_
  intro left
  apply calls_bind calls_reject_if
  intro _
  refine calls_bind (calls_send trivial) ?_
  intro _
  have hentries : ∀ partial_path (entries : List FilestoreObjectEntry),
      (copy_entries lib root partial_path entries).Calls (Careful lib) := by
    intro partial_path entries
    induction entries with
    | nil => exact calls_pure _
    | cons entry entries ih =>
      exact calls_bind (calls_send trivial) fun _ => calls_bind calls_reject_if fun _ => ih
  apply calls_bind
  · apply calls_attempt
    apply calls_bind (hentries _ _)
    intro _
    exact calls_bind calls_require_inventory fun _ => calls_send trivial
  · intro filled
    cases filled with
    | ok u => exact calls_pure _
    | error e =>
      exact calls_bind (calls_attempt (calls_send trivial)) fun _ => calls_raise _

theorem calls_upload_object {a : ObjectFilestoreAdapter} {root : Root} {path : String} {key : Key} :
    (upload_object a root path key).Calls (Careful lib) := by
  refine calls_bind (calls_send trivial) ?_
  intro content
  cases content with
  | none => exact calls_raise _
  | some bytes =>
    apply calls_bind calls_onStore
    intro _
    apply calls_bind calls_onStore
    intro _
    exact calls_bind calls_reject_if fun _ => calls_pure _

theorem calls_upload_entries {a : ObjectFilestoreAdapter} {root : Root} {completed : List Key}
    {entries : List FilestoreObjectEntry} :
    (upload_entries a root completed entries).Calls (Careful lib) := by
  induction entries generalizing completed with
  | nil => exact calls_pure _
  | cons entry entries ih =>
    refine calls_bind (calls_send trivial) ?_
    intro content
    cases content with
    | none => exact calls_raise _
    | some bytes =>
      apply calls_bind calls_reject_if
      intro _
      apply calls_bind calls_onStore
      intro key
      apply calls_ite ih
      apply calls_bind calls_onStore
      intro found
      apply calls_bind
      · cases found with
        | true => exact calls_pure _
        | false => exact calls_bind calls_upload_object fun _ => calls_reject_if
      · intro _
        exact calls_bind calls_onStore fun _ => ih

theorem calls_upload_inventory {a : ObjectFilestoreAdapter} {root : Root} {manifest : Manifest a} :
    (upload_inventory root manifest).Calls (Careful lib) := by
  apply calls_bind calls_onStore
  intro _
  apply calls_bind
  · cases root with
    | directory path => exact calls_bind (calls_send trivial) fun _ => calls_reject_if
    | extracted tree => exact calls_pure _
  · intro _
    apply calls_bind calls_upload_entries
    intro _
    exact calls_bind calls_onStore fun _ => calls_bind calls_onStore fun _ => calls_onStore

theorem calls_previous_active {backend : FilestoreBackendConfig} :
    (previous_active lib ctx environment backend).Calls (Careful lib) := by
  unfold previous_active
  split
  · apply calls_bind (calls_ofExcept _)
    intro config
    generalize read_active (object_adapter lib ctx environment config) = reading
    apply calls_bind calls_onStore
    intro active
    exact calls_pure _
  · exact calls_pure _

theorem calls_plan_for {source : Source} {target : TargetBackend}
    {backend : FilestoreBackendConfig} :
    (plan_for lib ctx environment source target backend).Calls (Careful lib) := by
  refine calls_bind (calls_send trivial) ?_
  intro token
  apply calls_bind calls_target_location
  intro location
  apply calls_bind calls_reject_if
  intro _
  apply calls_bind calls_previous_active
  · intro previous
    apply calls_bind calls_materialized_source
    intro root
    apply calls_bind calls_scan_filestore
    intro found
    refine calls_bind (calls_send trivial) ?_
    intro now
    apply calls_bind (calls_ofExcept _)
    intro manifest
    exact calls_bind calls_save fun _ => calls_pure _

theorem calls_plan_migration : (plan_migration lib ctx environment).Calls (Careful lib) := by
  apply calls_bind calls_backend
  intro (env, backend)
  cases htarget : backend.type.target with
  | none =>
    simp only [htarget]
    exact calls_raise _
  | some target =>
    simp only [htarget]
    exact calls_plan_for

theorem calls_sync_migration :
    (sync_migration lib ctx environment migration_id).Calls (Careful lib) := by
  apply calls_bind calls_owned_migration
  intro owned
  apply calls_bind calls_reject_if
  intro _
  apply calls_bind
  · apply calls_attempt
    apply calls_bind calls_materialized_source
    intro root
    apply calls_bind calls_require_inventory
    intro _
    apply calls_bind
    · apply calls_ite _ calls_copy_inventory
      apply calls_bind (calls_ofExcept _)
      intro config
      exact calls_bind calls_upload_inventory fun _ => calls_pure _
    · intro _
      exact calls_bind (calls_send trivial) fun _ => calls_update fun _ => calls_pure _
  · intro synced
    cases synced with
    | ok manifest => exact calls_pure _
    | error e => exact calls_update fun _ => calls_raise _

theorem calls_verify_migration :
    (verify_migration lib ctx environment migration_id).Calls (Careful lib) := by
  apply calls_bind calls_owned_migration
  intro owned
  apply calls_bind calls_reject_if
  intro _
  apply calls_bind
  · apply calls_ite _ calls_require_inventory
    apply calls_bind (calls_ofExcept _)
    intro config
    exact calls_bind calls_onStore fun _ => calls_reject_if
  · intro _
    refine calls_bind (calls_send trivial) ?_
    intro now
    apply calls_bind _ fun _ => calls_pure _
    apply calls_ite _ (calls_pure _)
    exact calls_bind (calls_ofExcept _) fun _ => calls_save

theorem calls_cutover_migration {confirm_environment : String} {confirm_source_retained : Bool} :
    (cutover_migration lib ctx environment migration_id confirm_environment
      confirm_source_retained).Calls (Careful lib) := by
  apply calls_bind calls_reject_if
  intro _
  apply calls_bind calls_owned_migration
  intro owned
  apply calls_ite (calls_pure _)
  apply calls_bind calls_reject_if
  intro _
  apply calls_bind calls_verify_migration
  intro _
  apply calls_bind calls_materialized_source
  intro root
  apply calls_bind calls_require_inventory
  intro _
  apply calls_bind
  · apply calls_ite _ (calls_pure _)
    apply calls_bind (calls_ofExcept _)
    intro config
    exact calls_bind calls_onStore fun _ => calls_pure _
  · intro _
    exact calls_bind (calls_send trivial) fun _ => calls_update fun _ => calls_pure _

end Calls

/-! ## Runs -/

inductive Request where
  | plan
  | sync (migration_id : String)
  | verify (migration_id : String)
  | cutover (migration_id confirm_environment : String) (confirm_source_retained : Bool)
  | delete_source (migration_id confirm_environment confirm_migration_id : String)
      (delete_source : Bool)
  deriving DecidableEq, Repr

/-- A request, with the configuration that is read for it. -/
structure Call where
  ctx : ServiceContext
  environment : String
  request : Request

def discard (p : MigrationM α) : MigrationM Unit := do
  let _ ← p
  .pure ()

def Call.run (lib : Library) (c : Call) : MigrationM Unit :=
  match c.request with
  | .plan => discard (plan_migration lib c.ctx c.environment)
  | .sync id => discard (sync_migration lib c.ctx c.environment id)
  | .verify id => discard (verify_migration lib c.ctx c.environment id)
  | .cutover id confirm retained =>
    discard (cutover_migration lib c.ctx c.environment id confirm retained)
  | .delete_source id confirm confirm_id delete =>
    discard (delete_source_after_cutover lib c.ctx c.environment id confirm confirm_id delete)

/-- Every manifest on disk satisfies its validators. -/
def Sound (lib : Library) (s : State) : Prop :=
  ∀ id m, s.manifests id = some m → m.faults lib.sha256 = []

/-- The source may be removed: the manifest on disk says so, the target has been verified in
this call, and so has the source if there is one. -/
def Deletable (lib : Library) (t : State) (source : Source) : Prop :=
  ∃ m, Authorized lib t source m ∧ (t.held source ≠ .absent → Matched lib t source m)

/-- What the test for the source did not find is not there. -/
def TestHeld (t : State) (source : Source) : Prop :=
  t.said_absent = true → t.held source = .absent

def Guard (lib : Library) (o : Migration.Op) (t : State) : Prop :=
  match o with
  | .inl (.write_manifest m) => m.faults lib.sha256 = []
  | .inl (.remove_source source) => TestHeld t source → Deletable lib t source
  | _ => True

/-- The environment of the calls: others write to the source and to the target at any time. -/
abbrev shared (lib : Library) : World Migration State := (world lib).under Elsewhere

theorem guard_of_plain {o : Migration.Op} (h : Plain o) (t : State) : Guard lib o t := by
  rcases o with o | o
  · cases o with
    | write_manifest m => exact h.elim
    | remove_source source => exact h.elim
    | _ => trivial
  · trivial

theorem guard_of_careful {o : Migration.Op} (h : Careful lib o) (t : State) : Guard lib o t := by
  rcases o with o | o
  · cases o with
    | write_manifest m => exact h
    | remove_source source => exact h.elim
    | _ => trivial
  · trivial

theorem call_guarded (c : Call) (s : State) :
    wp (shared lib) (Guard lib) (c.run lib) (fun _ _ => True) s := by
  have hcareful : ∀ {γ : Type} {p : MigrationM γ}, p.Calls (Careful lib) →
      wp (shared lib) (Guard lib) (discard p) (fun _ _ => True) s := by
    intro γ p hp
    exact wp_of_calls (calls_bind hp fun _ => calls_pure _) (fun o u ho => guard_of_careful ho u) s
  obtain ⟨ctx, environment, request⟩ := c
  cases request with
  | plan => exact hcareful calls_plan_migration
  | sync id => exact hcareful calls_sync_migration
  | verify id => exact hcareful calls_verify_migration
  | cutover id confirm retained => exact hcareful calls_cutover_migration
  | delete_source id confirm confirm_id delete =>
    have hremove : ∀ u source m, Authorized lib u source m →
        (Matched lib u source m ∨ u.said_absent = true) →
        Guard lib (.inl (.remove_source source)) u := by
      intro u source m hauthorized hmatched htest
      refine ⟨m, hauthorized, ?_⟩
      intro hpresent
      rcases hmatched with hmatched | habsent
      · exact hmatched
      · exact absurd (htest habsent) hpresent
    apply wp_seq (wp_delete_source world_notes.shared (fun o u ho => guard_of_plain ho u)
      (fun u m _ => m.valid) hremove) (fun _ _ _ => trivial)
    intro _ _ _
    trivial

/-- Only a write changes a manifest. -/
theorem world_manifests {o : Migration.Op} {r : Migration.Reply o}
    (h : ∀ m, o ≠ .inl (.write_manifest m)) (hw : world lib o s r t) :
    t.manifests = s.manifests := by
  rcases o with o | o
  · change LocalCall at o
    cases o with
    | write_manifest m => exact absurd rfl (h m)
    | read_manifest id => exact hw.1 ▸ rfl
    | existing_manifest id | is_real_dir path | lexists path | read_file root path => exact hw.1 ▸ rfl
    | token_hex | now_utc =>
      obtain rfl : t = s := hw
      rfl
    | source_exists source =>
      rcases hw with ⟨-, rfl⟩ | ⟨found, -, rfl, -⟩ <;> rfl
    | materialize v =>
      rcases hw with ⟨-, rfl⟩ | ⟨tree, -, -, rfl⟩ <;> rfl
    | walk root =>
      cases root with
      | directory path => rcases hw with ⟨-, rfl⟩ | ⟨tree, -, -, rfl⟩ <;> rfl
      | extracted tree => exact hw.1 ▸ rfl
    | make_dir path => rcases hw with rfl | ⟨rfl, -⟩ <;> rfl
    | copy_file root path partial_path =>
      obtain ⟨after, rfl, -⟩ := hw
      rfl
    | replace partial_path destination => rcases hw with rfl | ⟨rfl, -⟩ <;> rfl
    | remove_partial_copy path =>
      obtain ⟨after, -, rfl⟩ := hw
      rfl
    | remove_source source =>
      obtain ⟨after, -, rfl, -⟩ := hw
      rfl
  · change StoreCall at o
    cases o with
    | head_object key => rcases hw with ⟨o, -, -, rfl⟩ | ⟨e, -, rfl, -⟩ <;> rfl
    | get_object key => rcases hw with ⟨o, -, -, rfl⟩ | ⟨-, rfl⟩ <;> rfl
    | put_object key body sha256 condition => rcases hw with ⟨-, etag, rfl⟩ | ⟨-, rfl⟩ <;> rfl
    | delete_object key => rcases hw with rfl | ⟨-, rfl⟩ <;> rfl

theorem sound_kept {o : Migration.Op} {r : Migration.Reply o} (hs : Sound lib s)
    (hg : Guard lib o s) (hw : shared lib o s r t) : Sound lib t := by
  obtain ⟨u, hu, he⟩ := hw
  intro id m hm
  rw [he.manifests] at hm
  by_cases hwrite : ∃ m', o = .inl (.write_manifest m')
  · obtain ⟨m', rfl⟩ := hwrite
    rcases hu with rfl | ⟨rfl, -⟩
    · by_cases hid : id = m'.migration_id
      · subst hid
        simp only [State.write, Function.update_self] at hm
        rw [← Option.some.inj hm]
        exact hg
      · simp only [State.write, Function.update_of_ne hid] at hm
        exact hs id m hm
    · exact hs id m hm
  · rw [world_manifests (fun m' h => hwrite ⟨m', h⟩) hu] at hm
    exact hs id m hm

/-- In every run of calls, each begun after any others and cut off anywhere, every manifest on
disk is valid, and a source is about to be removed only where it is deletable, unless the test
for it missed it. -/
theorem deletes_only_verified {c : Call} {q : MigrationM Unit} (hs : Sound lib s)
    (hruns : Session (shared lib) Elsewhere (fun _ _ => True) (Call.run lib) s t)
    (hcall : Steps (shared lib) t (c.run lib) u q) :
    Sound lib u ∧ ∀ source k, q = .call (.inl (.remove_source source)) k →
      TestHeld u source → Deletable lib u source := by
  have hguarded : ∀ (c : Call) v, Sound lib v → wp (shared lib)
      (fun o w => Guard lib o w ∧ Sound lib w) (c.run lib) (fun _ w => Sound lib w) v := by
    intro c v hv
    apply wp_post (wp_stable (call_guarded c v) hv ?_)
    · intro _ _ h
      exact h.2
    · intro o w r x hg hw hstep
      exact sound_kept hw hg hstep
  have ht : Sound lib t := by
    apply hruns.invariant hs
    · intro v w hv he id m hm
      exact hv id m (he.manifests ▸ hm)
    · intro c v hv _
      exact wp_mono (hguarded c v hv) (fun _ _ h => h.2) (fun _ _ h => h)
  have hu := wp_steps hcall (hguarded c t ht)
  constructor
  · exact wp_invariant (hguarded c t ht) hcall (fun _ _ h => h.2) (fun _ _ h => h)
  · intro source k hq
    subst hq
    exact hu.1.1

/-! ## A test that misses the source -/

def exampleLibrary : Library := ⟨ActivePointer.exampleHash, fun _ => 200, fun _ => none⟩

theorem odoo_data_safe :
    ∀ v ∈ some "odoo_data", validate_identifier v "filestore_volume" = .ok v := by
  decide +kernel

def mountedEnvironment : BackedEnvironment where
  branch := "main"
  domain := "erp.example.com"
  db_name := "odoo"
  filestore_path := "filestore/odoo"
  filestore_volume := some "odoo_data"
  db_name_safe := ProjectConfiguration.odoo_safe
  filestore_volume_safe := odoo_data_safe
  filestore_path_safe := ProjectConfiguration.odoo_path_safe
  filestore_backend := some { type := .posix_object_mount, mount_path := some "/mnt/filestore" }

def exampleContext : ServiceContext where
  project := "acme"
  host := ⟨.parse "/srv/acme", .parse "/srv/acme", id, PosixPath.parts⟩
  environments := [("production", mountedEnvironment)]
  redact_text := id

def exampleVolume : Source := .volume ⟨"odoo_data", "filestore/odoo"⟩

def unplanned : State where
  manifests := fun _ => none
  held := fun source =>
    if source = exampleVolume then .directory [("ab/1", .file [1, 2])] else .absent
  objects := fun _ => none

def exampleId : String := "production_filestore_000000000000000000000000"

def requested (request : Request) : Call := ⟨exampleContext, "production", request⟩

def deletion : Call := requested (.delete_source exampleId "production" exampleId true)

/-- What a call without faults leaves. -/
def after (s : State) (request : Request) : State :=
  (((requested request).run exampleLibrary).run (serve exampleLibrary 7) s).2

def cutOver : State :=
  after (after (after (after unplanned .plan) (.sync exampleId)) (.verify exampleId))
    (.cutover exampleId "production" true)

/-- Nothing fails but, where told to, the test for a volume. -/
def serveTest (fails : Bool) (o : Migration.Op) (s : State) : Migration.Reply o × State :=
  match fails, o with
  | true, .inl (.source_exists (.volume _)) => (.ok false, s.tested false)
  | _, o => serve exampleLibrary 8 o s

theorem elsewhere_hold (s : State) (source : Source) (h : Held) :
    Elsewhere s (s.hold source h) := ⟨rfl, rfl, rfl, rfl, rfl⟩

theorem shared_of {o : Migration.Op} {r : Migration.Reply o} (h : world lib o s r t) :
    shared lib o s r t := ⟨t, h, rfl, rfl, rfl, rfl, rfl⟩

theorem serveTest_world (fails : Bool) (o : Migration.Op) (s : State) :
    world exampleLibrary o s (serveTest fails o s).1 (serveTest fails o s).2 := by
  unfold serveTest
  split
  · exact .inr ⟨false, rfl, rfl, fun h => (nomatch h), fun _ h => (nomatch h)⟩
  · exact serve_world _ _ _ _

def next_removal : MigrationM Unit → Option Source
  | .call o _ => match o with
    | .inl (.remove_source source) => some source
    | _ => none
  | _ => none

theorem next_removal_call {q : MigrationM Unit} {source : Source}
    (h : next_removal q = some source) : ∃ k, q = .call (.inl (.remove_source source)) k := by
  cases q with
  | pure a => cases h
  | raise e => cases h
  | call o k =>
    rcases o with o | o
    · cases o with
      | remove_source source' =>
        obtain rfl := Option.some.inj h
        exact ⟨k, rfl⟩
      | _ => cases h
    · cases h

/-- The deletion, as far as the operation that removes. -/
def begun : MigrationM Unit × State :=
  (deletion.run exampleLibrary).play serveTest (List.replicate 11 false) cutOver

/-- Odoo has written to the volume after the deletion was cut off. -/
def rewritten : State := begun.2.hold exampleVolume (.directory [("ab/1", .file [1, 2, 3])])

def retried : MigrationM Unit × State :=
  (deletion.run exampleLibrary).play serveTest (List.replicate 6 true) rewritten

theorem cutOver_session {E : State → State → Prop}
    (hW : ∀ o s, W o s (serve exampleLibrary 7 o s).1 (serve exampleLibrary 7 o s).2) :
    Session W E (fun _ _ => True) (Call.run exampleLibrary) unplanned cutOver := by
  have hcall : ∀ {s : State} (request : Request),
      Session W E (fun _ _ => True) (Call.run exampleLibrary) unplanned s →
      Session W E (fun _ _ => True) (Call.run exampleLibrary) unplanned (after s request) :=
    fun request h => .call h trivial (ends_run hW ((requested request).run exampleLibrary) _)
  exact hcall _ (hcall _ (hcall _ (hcall _ (.refl unplanned))))

theorem cutOver_shared : Session (shared exampleLibrary) Elsewhere (fun _ _ => True)
    (Call.run exampleLibrary) unplanned cutOver :=
  cutOver_session fun o s => shared_of (serve_world _ _ o s)

theorem begun_steps :
    Steps (shared exampleLibrary) cutOver (deletion.run exampleLibrary) begun.2 begun.1 :=
  steps_play (fun fails o s => shared_of (serveTest_world fails o s)) _ _ _

/-- What the runs come to, evaluated together since all of them go through the first. -/
theorem runs_evaluated :
    (next_removal begun.1 = some exampleVolume ∧ begun.2.said_absent = false) ∧
      (next_removal retried.1 = some exampleVolume ∧
        retried.2.listed.map Prod.fst = [.path "/mnt/filestore"] ∧
        retried.2.held exampleVolume ≠ .absent) ∧
      begun.2.held exampleVolume = .directory [("ab/1", .file [1, 2])] ∧
      (((begun.2.hold exampleVolume (.directory [])).manifests exampleId).bind
        MigrationFields.source_delete_started_at).isSome = true ∧
      ((delete_source_after_cutover exampleLibrary exampleContext "production" exampleId
        "production" exampleId true).run (serve exampleLibrary 8)
          (begun.2.hold exampleVolume (.directory []))).1.toOption.isNone = true := by
  decide +kernel

theorem first_deletion_verified : Deletable exampleLibrary begun.2 exampleVolume := by
  obtain ⟨hbegun, htest⟩ := runs_evaluated.1
  have hs : Sound exampleLibrary unplanned := fun _ _ h => nomatch h
  obtain ⟨k, hk⟩ := next_removal_call hbegun
  apply (deletes_only_verified hs cutOver_shared begun_steps).2 exampleVolume k hk
  intro habsent
  rw [htest] at habsent
  cases habsent

theorem missed_test_deletes_unverified :
    ∃ (t : State) (k : _), Session (shared exampleLibrary) Elsewhere (fun _ _ => True)
      (Call.run exampleLibrary) unplanned rewritten ∧
      Steps (shared exampleLibrary) rewritten (deletion.run exampleLibrary) t
        (.call (.inl (.remove_source exampleVolume)) k) ∧
      ¬ Deletable exampleLibrary t exampleVolume := by
  obtain ⟨hretried, hlisted, hpresent⟩ := runs_evaluated.2.1
  have hsteps : Steps (shared exampleLibrary) rewritten (deletion.run exampleLibrary) retried.2
      retried.1 := steps_play (fun fails o s => shared_of (serveTest_world fails o s)) _ _ _
  obtain ⟨k, hk⟩ := next_removal_call hretried
  refine ⟨retried.2, k, ?_, hk ▸ hsteps, ?_⟩
  · exact .other (.call cutOver_shared trivial begun_steps) (elsewhere_hold _ _ _)
  · intro ⟨m, _, hmatched⟩
    obtain ⟨tree, htree, -⟩ := hmatched hpresent
    have hmem : exampleVolume ∈ retried.2.listed.map Prod.fst := List.mem_map_of_mem htree
    rw [hlisted] at hmem
    exact absurd hmem (by decide)

end MigrationSafety
