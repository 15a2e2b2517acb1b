import Odooctl.MigrationSafety

/-!
# Finishing the deletion of a source

A deletion that was cut off after its start was recorded is called again, and nothing fails.
It finishes where the source still has the inventory of the manifest, or where the source is
a volume whose directory is gone.
-/
namespace SourceDeletion

open EffectPrograms FilestoreManifest ObjectFilestore FilestoreMigration MigrationWorld
open MigrationReads MigrationSafety
open PitrRestoreRecord (Timestamp matchesComponent)

variable {lib : Library} {now : Timestamp} {ctx : ServiceContext} {s t u : State} {α β : Type}

/-! ## Runs without faults -/

/-- What a run without faults ends with. -/
abbrev Yields (lib : Library) (now : Timestamp) (p : MigrationM α)
    (Q : Except String α → State → Prop) (s : State) : Prop :=
  wp (World.ofServer (serve lib now)) (fun _ _ => True) p Q s

theorem yields_iff {p : MigrationM α} {Q : Except String α → State → Prop} :
    Yields lib now p Q s ↔ Q (p.run (serve lib now) s).1 (p.run (serve lib now) s).2 := by
  induction p generalizing s with
  | pure a => rfl
  | raise e => rfl
  | call o k ih =>
    rw [Yields, wp_call, Prog.run, ← ih]
    constructor
    · intro h
      exact h.2 _ _ rfl
    · intro h
      refine ⟨trivial, ?_⟩
      intro r t hrt
      obtain ⟨rfl, rfl⟩ := Prod.mk.inj hrt
      exact h

section Rules

variable {Q : Except String α → State → Prop}

theorem yields_send {c : LocalCall} {Q : Except String c.Answer → State → Prop} :
    Yields lib now (send c) Q s ↔ Q (serveLocal now c s).1 (serveLocal now c s).2 := by
  rw [Yields, wp_send]
  constructor
  · intro h
    exact h.2 _ _ rfl
  · intro h
    refine ⟨trivial, ?_⟩
    intro r t hrt
    obtain ⟨rfl, rfl⟩ := Prod.mk.inj hrt
    exact h

/-- A part that returns `b` and leaves what it found, and what follows it. -/
theorem yields_seq {p : MigrationM β} {f : β → MigrationM α} {b : β} {R : State → Prop}
    (h : Yields lib now p (fun r t => r = .ok b ∧ R t) s)
    (hrest : ∀ t, R t → Yields lib now (f b) Q t) : Yields lib now (p >>= f) Q s := by
  apply wp_bind'.mpr
  apply wp_post h
  intro r t ⟨hr, ht⟩
  subst hr
  exact hrest t ht

/-- A part that raises. -/
theorem yields_raise {p : MigrationM β} {f : β → MigrationM α}
    (h : Yields lib now p (fun r _ => ∃ e, r = .error e) s) :
    Yields lib now (p >>= f) (fun r _ => ∃ e, r = .error e) s := by
  apply wp_bind'.mpr
  apply wp_post h
  intro r t ⟨e, hr⟩
  subst hr
  exact ⟨e, rfl⟩

end Rules

/-- The stores are the same; what has been read is not compared. -/
structure Same (s t : State) : Prop where
  manifests : t.manifests = s.manifests
  held : t.held = s.held
  objects : t.objects = s.objects

theorem Same.refl (s : State) : Same s s := ⟨rfl, rfl, rfl⟩

theorem Same.trans (h : Same s t) (k : Same t u) : Same s u :=
  ⟨k.manifests.trans h.manifests, k.held.trans h.held, k.objects.trans h.objects⟩

/-! ## Directories -/

theorem yields_real_dir {path label : String} {tree : Tree}
    (h : s.held (.path path) = .directory tree) :
    Yields lib now (require_real_dir path label) (fun r t => r = .ok () ∧ Same s t) s := by
  apply wp_bind'.mpr
  apply yields_send.mpr
  simp only [serveLocal, h]
  exact ⟨rfl, Same.refl s⟩

/-- The tree at a root. -/
def At (s : State) : Root → Tree → Prop
  | .directory path, tree => s.held (.path path) = .directory tree
  | .extracted copy, tree => tree = copy

theorem yields_scan {root : Root} {tree : Tree} (h : At s root tree) :
    Yields lib now (scan_filestore lib root)
      (fun r t => r = inventory_of lib tree ∧ Same s t) s := by
  have hroot : Yields lib now (require_root root) (fun r t => r = .ok () ∧ Same s t) s := by
    cases root with
    | directory path => exact yields_real_dir h
    | extracted copy => exact ⟨rfl, Same.refl s⟩
  apply yields_seq hroot
  intro t hst
  apply wp_bind'.mpr
  apply yields_send.mpr
  have hwalk : ∃ t', serveLocal now (.walk root) t = (.ok tree, t') ∧ Same t t' := by
    cases root with
    | directory path =>
      have ht : t.held (.path path) = .directory tree := by rw [hst.held, h]
      simp only [serveLocal, ht]
      exact ⟨_, rfl, rfl, rfl, rfl⟩
    | extracted copy =>
      obtain rfl : tree = copy := h
      exact ⟨t, rfl, Same.refl t⟩
  obtain ⟨t', hserve, htt⟩ := hwalk
  rw [hserve]
  apply wp_ofExcept.mpr
  exact ⟨rfl, hst.trans htt⟩

theorem yields_inventory {root : Root} {tree : Tree} {manifest : MigrationManifest lib}
    {message : String} (h : At s root tree)
    (hinventory : inventory_of lib tree = .ok (.of_manifest manifest.toMigrationFields)) :
    Yields lib now (require_inventory root manifest message)
      (fun r t => r = .ok () ∧ Same s t) s := by
  have hscan : Yields lib now (scan_filestore lib root)
      (fun r t => r = inventory_of lib tree ∧ Same s t) s := yields_scan h
  rw [hinventory] at hscan
  apply yields_seq hscan
  intro t hst
  rw [reject_if, if_neg (not_not.mpr rfl)]
  exact ⟨rfl, hst⟩

/-- Any other inventory is refused. -/
theorem yields_mismatch {root : Root} {tree : Tree} {manifest : MigrationManifest lib}
    {message : String} (h : At s root tree)
    (hinventory : inventory_of lib tree ≠ .ok (.of_manifest manifest.toMigrationFields)) :
    Yields lib now (require_inventory root manifest message) (fun r _ => ∃ e, r = .error e) s := by
  apply wp_bind'.mpr
  apply wp_post (yields_scan h)
  intro r t ⟨hr, _⟩
  subst hr
  cases hfound : inventory_of lib tree with
  | error e => exact ⟨e, rfl⟩
  | ok found =>
    have hne : found ≠ .of_manifest manifest.toMigrationFields := by
      intro hsame
      exact hinventory (hsame ▸ hfound)
    simp only [reject_if, if_pos hne]
    exact ⟨_, rfl⟩

theorem yields_materialized {source : Source} {tree : Tree} (h : s.held source = .directory tree) :
    ∃ root, Yields lib now (materialized_source source)
      (fun r t => r = .ok root ∧ Same s t ∧ At t root tree) s := by
  cases source with
  | path text =>
    refine ⟨.directory text, ?_⟩
    apply yields_seq (yields_real_dir h)
    intro t hst
    exact ⟨rfl, hst, by rw [At, hst.held, h]⟩
  | volume v =>
    refine ⟨.extracted tree, ?_⟩
    apply wp_bind'.mpr
    apply yields_send.mpr
    simp only [serveLocal, h]
    exact ⟨rfl, ⟨rfl, rfl, rfl⟩, rfl⟩

/-! ## Objects -/

/-- The object under the key is what its metadata says, and the key is not too long. -/
structure Intact (a : ObjectFilestoreAdapter) (s : State) (key : Key) (body : Body)
    (most : Option ℕ) : Prop where
  stored : ∃ etag, s.objects key = some ⟨body, some (a.sha256 body), etag⟩
  digest : is_sha256 (a.sha256 body) = true
  bounded : ∀ m ∈ most, a.length body ≤ m
  short : (a.key key).utf8ByteSize ≤ 1024

/-- The object store holds the manifest and all its entries. -/
structure RemoteHolds (a : ObjectFilestoreAdapter) (s : State) (m : MigrationFields) : Prop where
  marker : Intact a s (.migration m.migration_id) (.manifest m.document)
    (some MAX_FILESTORE_MANIFEST_BYTES)
  entries : ∀ e ∈ m.entries, ∃ body, Intact a s (.object e.sha256) body none ∧
    a.sha256 body = e.sha256 ∧ a.length body = e.size

section Objects

variable {a : ObjectFilestoreAdapter}

abbrev YieldsStore (lib : Library) (now : Timestamp) (p : StoreM α)
    (Q : Except StoreFailure α → State → Prop) (s : State) : Prop :=
  wp (World.ofServer (serve lib now)).onRight (fun _ _ => True) p Q s

theorem yields_store_call {c : StoreCall} {k : Except StoreException c.Answer → StoreM α}
    {Q : Except StoreFailure α → State → Prop} :
    YieldsStore lib now (.call c k) Q s ↔
      YieldsStore lib now (k (serveStore lib c s).1) Q (serveStore lib c s).2 := by
  constructor
  · intro h
    exact h.2 _ _ rfl
  · intro h
    refine ⟨trivial, ?_⟩
    intro r t hrt
    obtain ⟨rfl, rfl⟩ := Prod.mk.inj hrt
    exact h

/-- The library measures bodies as the adapter does. -/
def Measures (lib : Library) (a : ObjectFilestoreAdapter) : Prop := a.length = body_length lib

theorem Intact.later {key : Key} {body : Body} {most : Option ℕ} (h : Intact a s key body most)
    (hst : Same s t) : Intact a t key body most :=
  { h with stored := hst.objects ▸ h.stored }

theorem RemoteHolds.later {m : MigrationFields} (h : RemoteHolds a s m) (hst : Same s t) :
    RemoteHolds a t m where
  marker := h.marker.later hst
  entries := fun e he => by
    obtain ⟨body, hbody, hsame⟩ := h.entries e he
    exact ⟨body, hbody.later hst, hsame⟩

theorem store_passes {c : Prop} [Decidable c] {e : StoreFailure} {f : Unit → StoreM α}
    {Q : Except StoreFailure α → State → Prop} (hc : ¬ c) (h : YieldsStore lib now (f ()) Q s) :
    YieldsStore lib now (refuse_if c e >>= f) Q s :=
  wp_refuse_if (fun hbad => absurd hbad hc) fun _ => h

theorem yields_read_verified (hlib : Measures lib a) {key : Key} {body : Body}
    {expected : Option String} {most : Option ℕ} (h : Intact a s key body most)
    (hexpected : ∀ e ∈ expected, a.sha256 body = e.toLower) :
    YieldsStore lib now (read_verified_object a key expected most)
      (fun r t => (∃ info, r = .ok (info, body) ∧ info.size = a.length body) ∧ Same s t) s := by
  obtain ⟨etag, hstored⟩ := h.stored
  have hlength : body_length lib body = a.length body := (congrFun hlib body).symm
  apply wp_bind'.mpr
  apply wp_bind'.mpr
  apply yields_store_call.mpr
  simp only [serveStore, hstored]
  apply store_passes
  · intro hbad
    exact absurd h.digest (by simp [hbad (a.sha256 body) rfl])
  apply store_passes
  · rintro ⟨e, he, hne⟩
    exact hne (congrArg some (hexpected e he))
  apply store_passes
  · rintro ⟨m, hm, hlong⟩
    exact absurd (h.bounded m hm) (Nat.not_le.mpr (hlength ▸ hlong))
  apply wp_bind'.mpr
  apply yields_store_call.mpr
  have hkept : (s.head key (info_of lib key ⟨body, some (a.sha256 body), etag⟩)).objects key =
      some ⟨body, some (a.sha256 body), etag⟩ := hstored
  simp only [serveStore, hkept]
  apply store_passes
  · rintro ⟨m, hm, hlong⟩
    exact absurd (h.bounded m hm) (Nat.not_le.mpr hlong)
  apply store_passes
  · rintro (hsize | hdigest)
    · exact hsize hlength.symm
    · apply hdigest
      cases expected with
      | none => rfl
      | some e => exact congrArg some (hexpected e rfl)
  exact ⟨⟨_, rfl, hlength⟩, rfl, rfl, rfl⟩

theorem yields_object_key {value : String} {f : Key → StoreM α}
    {Q : Except StoreFailure α → State → Prop} (hvalue : is_sha256 value = true)
    (hshort : (a.key (.object value)).utf8ByteSize ≤ 1024)
    (h : YieldsStore lib now (f (.object value)) Q s) :
    YieldsStore lib now (object_key a value >>= f) Q s := by
  have hlower : value.toLower = value := S3Objects.toLower_of_digest hvalue
  have hdigest : digest value = .ok value := by
    rw [digest, hlower, if_pos hvalue]
  simp only [object_key, hdigest, scoped_key, Prog.ofExcept, Prog.bind_eq, Prog.bind,
    if_neg (Nat.not_lt.mpr hshort)]
  exact h

theorem yields_verify_entries (hlib : Measures lib a) {entries : List FilestoreObjectEntry}
    (hdigests : ∀ e ∈ entries, is_sha256 e.sha256 = true)
    (h : ∀ e ∈ entries, ∃ body, Intact a s (.object e.sha256) body none ∧
      a.sha256 body = e.sha256 ∧ a.length body = e.size) :
    YieldsStore lib now (verify_entries a entries) (fun r t => r = .ok () ∧ Same s t) s := by
  induction entries generalizing s with
  | nil => exact ⟨rfl, Same.refl s⟩
  | cons entry entries ih =>
    obtain ⟨body, hintact, hsha, hsize⟩ := h entry List.mem_cons_self
    have hentry := hdigests entry List.mem_cons_self
    apply yields_object_key hentry hintact.short
    apply wp_bind'.mpr
    apply wp_bind'.mpr
    have hexpected : ∀ e ∈ some entry.sha256, a.sha256 body = e.toLower := by
      intro e he
      obtain rfl := Option.some.inj he
      rw [S3Objects.toLower_of_digest hentry, hsha]
    apply wp_post (yields_read_verified hlib hintact hexpected)
    intro r t ⟨⟨info, hr, hinfo⟩, hst⟩
    subst hr
    apply store_passes (not_not.mpr (hinfo.trans hsize))
    have hrest : ∀ e ∈ entries, ∃ body, Intact a t (.object e.sha256) body none ∧
        a.sha256 body = e.sha256 ∧ a.length body = e.size := by
      intro e he
      obtain ⟨b, hb, hsame⟩ := h e (List.mem_cons_of_mem _ he)
      exact ⟨b, hb.later hst, hsame⟩
    apply wp_post (ih (fun e he => hdigests e (List.mem_cons_of_mem _ he)) hrest)
    intro r u ⟨hr, htu⟩
    exact ⟨hr, hst.trans htu⟩

theorem yields_verify_inventory (hlib : Measures lib a) {manifest : Manifest a}
    (hscope : manifest.project = a.project ∧ manifest.environment = a.environment ∧
      manifest.target_backend ≠ .posix_object_mount ∧
      manifest.target_location = uri_for_migration a manifest.migration_id)
    (hid : matchesComponent manifest.migration_id.toList = true)
    (hdigests : ∀ e ∈ manifest.entries, is_sha256 e.sha256 = true)
    (h : RemoteHolds a s manifest.toMigrationFields) :
    YieldsStore lib now (verify_inventory manifest) (fun r t =>
      (∃ v, r = .ok v ∧ v.object_count = manifest.entries.length ∧
        v.total_size = manifest.total_size) ∧ Same s t) s := by
  obtain ⟨hproject, henvironment, hremote, hlocation⟩ := hscope
  apply store_passes
  · simp [hproject, henvironment, hremote, hlocation]
  simp only [migration_manifest_key, migration_id, hid, if_true, scoped_key, Prog.ofExcept,
    Prog.bind_eq, Prog.bind, if_neg (Nat.not_lt.mpr h.marker.short)]
  apply wp_bind.mpr
  apply wp_post (yields_read_verified hlib h.marker (by simp))
  rintro r t ⟨⟨info, hr, -⟩, hst⟩
  subst hr
  apply store_passes (not_not.mpr rfl)
  apply wp_bind.mpr
  apply wp_post (yields_verify_entries hlib hdigests (h.later hst).entries)
  rintro r u ⟨hr, htu⟩
  subst hr
  exact ⟨⟨_, rfl, rfl, rfl⟩, hst.trans htu⟩

end Objects

/-! ## The target -/

/-- The target has what the manifest says. -/
def TargetHolds (lib : Library) (ctx : ServiceContext) (environment : String) (s : State)
    (owned : Owned lib) : Prop :=
  if owned.manifest.target_backend = .posix_object_mount then
    ∃ tree, s.held (.path owned.manifest.target_location) = .directory tree ∧
      inventory_of lib tree = .ok (.of_manifest owned.manifest.toMigrationFields)
  else ∀ config, object_store_of ctx environment owned.backend = .ok config →
    RemoteHolds (object_adapter lib ctx environment config) s owned.manifest.toMigrationFields

theorem TargetHolds.later {environment : String} {owned : Owned lib}
    (h : TargetHolds lib ctx environment s owned) (hst : Same s t) :
    TargetHolds lib ctx environment t owned := by
  unfold TargetHolds at h ⊢
  by_cases hposix : owned.manifest.target_backend = .posix_object_mount
  · rw [if_pos hposix] at h ⊢
    rw [hst.held]
    exact h
  · rw [if_neg hposix] at h ⊢
    exact fun config hconfig => (h config hconfig).later hst

section Calls

variable {environment migration_id : String} {owned : Owned lib}
  {Q : Except String α → State → Prop}

theorem passes {c : Prop} [Decidable c] {message : String} {f : Unit → MigrationM α} (hc : ¬ c)
    (h : Yields lib now (f ()) Q s) : Yields lib now (reject_if c message >>= f) Q s :=
  wp_reject_if (fun hbad => absurd hbad hc) fun _ => h

/-- A valid manifest is loaded as it was written. -/
theorem yields_loaded {label : String} {manifest : MigrationManifest lib}
    {f : MigrationManifest lib → MigrationM α} (h : Yields lib now (f manifest) Q s) :
    Yields lib now (loaded lib label manifest.toMigrationFields >>= f) Q s := by
  have hvalid : (model_validate manifest.toMigrationFields :
      Except (List String) (MigrationManifest lib)) = .ok manifest := by
    rw [model_validate, dif_pos manifest.valid]
  rw [loaded, hvalid]
  exact h

theorem safe_backup_component_of_safe {value label : String}
    (h : PitrRestoreRecord.is_safe_component value = true) :
    safe_backup_component value label = .ok value := by
  simp only [PitrRestoreRecord.is_safe_component, Bool.and_eq_true] at h
  obtain ⟨-, hmatch⟩ := h
  unfold safe_backup_component
  rw [if_neg]
  rintro (hvalue | hchars)
  · have hlist : ∀ v ∈ ["", ".", ".."], matchesComponent v.toList = false := by decide +kernel
    rw [hlist value hvalue] at hmatch
    cases hmatch
  · cases hcs : value.toList with
    | nil => simp [hcs] at hchars
    | cons c cs =>
      rw [hcs] at hmatch hchars
      simp only [matchesComponent, Bool.and_eq_true] at hmatch
      obtain ⟨⟨hc, hall⟩, -⟩ := hmatch
      simp [PitrRestoreRecord.isComponentChar, hc, hall] at hchars

theorem component_of_valid (manifest : MigrationManifest lib) :
    PitrRestoreRecord.is_safe_component manifest.migration_id = true := by
  have hfields := manifest.fields_sound
  simp only [MigrationFields.fieldFaults, List.append_eq_nil_iff, List.reduceOption,
    List.filterMap_eq_nil_iff] at hfields
  have hid := hfields.1.1 _ List.mem_cons_self
  by_contra hbad
  simp [PitrRestoreRecord.componentFault, hbad] at hid

theorem yields_owned (h : Owns lib ctx environment migration_id s owned) :
    Yields lib now (owned_migration lib ctx environment migration_id)
      (fun r t => r = .ok owned ∧ Same s t) s := by
  obtain ⟨manifest, env, backend⟩ := owned
  have hid : manifest.migration_id = migration_id := h.id
  have hdurable : s.manifests migration_id = some manifest.toMigrationFields := h.durable
  unfold owned_migration
  rw [h.configured]
  apply wp_bind'.mpr
  unfold get_filestore_migration
  have hsafe : safe_backup_component migration_id "migration_id" = .ok migration_id :=
    hid ▸ safe_backup_component_of_safe (component_of_valid manifest)
  rw [hsafe]
  apply wp_bind'.mpr
  apply wp_bind'.mpr
  apply wp_bind'.mpr
  apply yields_send.mpr
  simp only [serveLocal, hdurable]
  apply yields_loaded
  apply passes (not_not.mpr hid)
  apply passes
  · simp only [h.target, not_or, not_not]
    exact ⟨h.in_project, h.in_environment, trivial⟩
  rw [h.location]
  apply passes
  · simp only [h.source, not_or, not_not]
    exact ⟨trivial, trivial, h.modular⟩
  exact ⟨rfl, rfl, rfl, rfl⟩

theorem in_objects_iff (h : Owns lib ctx environment migration_id t owned) :
    owned.backend.type.in_objects = true ↔ owned.manifest.target_backend ≠ .posix_object_mount := by
  have htarget := h.target
  cases htype : owned.backend.type <;> simp_all [BackendType.in_objects, BackendType.target]

theorem manifest_key {a : ObjectFilestoreAdapter} (hmatch : matchesComponent migration_id.toList = true)
    (hshort : (a.key (.migration migration_id)).utf8ByteSize ≤ 1024) :
    migration_manifest_key a migration_id = .pure (.migration migration_id) := by
  simp only [migration_manifest_key, ObjectFilestore.migration_id, hmatch, if_true, Prog.ofExcept,
    Prog.bind_eq, Prog.bind, scoped_key, if_neg (Nat.not_lt.mpr hshort)]

theorem target_location_remote {backend : FilestoreBackendConfig}
    {config : FilestoreObjectStoreConfig} {key : Key} (hobjects : backend.type.in_objects = true)
    (hconfig : object_store_of ctx environment backend = .ok config)
    (hkey : migration_manifest_key (object_adapter lib ctx environment config) migration_id =
      .pure key) :
    target_location lib ctx environment backend migration_id =
      .pure (uri_for_migration (object_adapter lib ctx environment config) migration_id) := by
  simp only [target_location, if_pos hobjects, hconfig, Prog.ofExcept, Prog.bind_eq, Prog.bind, hkey]
  rfl

theorem yields_verify_target (h : Owns lib ctx environment migration_id t owned)
    (htarget : TargetHolds lib ctx environment s owned) :
    Yields lib now (verify_target ctx environment owned) (fun r t => r = .ok () ∧ Same s t) s := by
  unfold verify_target
  unfold TargetHolds at htarget
  by_cases hposix : owned.manifest.target_backend = .posix_object_mount
  · rw [if_pos hposix] at htarget
    rw [if_neg fun hobjects => (in_objects_iff h).mp hobjects hposix]
    obtain ⟨tree, hheld, hinventory⟩ := htarget
    exact yields_inventory hheld hinventory
  · rw [if_neg hposix] at htarget
    have hobjects := (in_objects_iff h).mpr hposix
    rw [if_pos hobjects]
    cases hconfig : object_store_of ctx environment owned.backend with
    | error e =>
      have hlocation := h.location
      simp only [target_location, if_pos hobjects, hconfig] at hlocation
      cases hlocation
    | ok config =>
      have hremote := htarget config hconfig
      let adapter := object_adapter lib ctx environment config
      have hmatch : matchesComponent owned.manifest.migration_id.toList = true := by
        have hsafe := component_of_valid owned.manifest
        rw [PitrRestoreRecord.is_safe_component, Bool.and_eq_true] at hsafe
        exact hsafe.2
      have hkey : migration_manifest_key adapter migration_id = .pure (.migration migration_id) := by
        have hshort := hremote.marker.short
        rw [h.id] at hmatch hshort
        exact manifest_key hmatch hshort
      have huri : owned.manifest.target_location =
          uri_for_migration adapter owned.manifest.migration_id := by
        have hremotely := h.location
        rw [target_location_remote hobjects hconfig hkey] at hremotely
        rw [h.id]
        exact (Prog.pure.inj hremotely).symm
      have hscope : owned.manifest.project = adapter.project ∧
          owned.manifest.environment = adapter.environment ∧
          owned.manifest.target_backend ≠ .posix_object_mount ∧
          owned.manifest.target_location = uri_for_migration adapter owned.manifest.migration_id :=
        ⟨h.in_project, h.in_environment, hposix, huri⟩
      have hmeasures : Measures lib adapter := adapter_length
      change Yields lib now (onStore (verify_inventory (a := adapter) owned.manifest) >>= _) _ s
      apply wp_bind'.mpr
      apply wp_onStore.mpr
      apply wp_post (yields_verify_inventory hmeasures hscope hmatch (fun e he => entry_sha256 he)
        hremote)
      rintro r t ⟨⟨v, hr, hcount, hsize⟩, hst⟩
      subst hr
      change Yields lib now (reject_if _ _) _ t
      rw [reject_if, if_neg (by simp [hcount, hsize])]
      exact ⟨rfl, hst⟩

theorem yields_verify_migration (h : Owns lib ctx environment migration_id s owned)
    (hcutover : owned.manifest.status = .cutover)
    (htarget : TargetHolds lib ctx environment s owned) :
    Yields lib now (verify_migration lib ctx environment migration_id)
      (fun r t => (∃ v, r = .ok v) ∧ Same s t) s := by
  unfold verify_migration
  apply yields_seq (yields_owned h)
  intro t hst
  apply passes
  · simp [hcutover]
  apply yields_seq (yields_verify_target h (htarget.later hst))
  intro u htu
  apply wp_bind'.mpr
  apply yields_send.mpr
  change Yields lib now (record_verified owned.manifest now >>= _) _ u
  rw [record_verified, if_neg (not_not.mpr hcutover)]
  exact ⟨⟨_, rfl⟩, hst.trans htu⟩

end Calls

/-! ## The retry -/

section Retry

variable {environment migration_id : String} {owned : Owned lib}

/-- The source has what the manifest says. -/
def SourceHolds (lib : Library) (s : State) (source : Source) (m : MigrationFields) : Prop :=
  ∃ tree, s.held source = .directory tree ∧ inventory_of lib tree = .ok (.of_manifest m)

/-- The source is the directory that the target resolves to. -/
def IsTarget (ctx : ServiceContext) (owned : Owned lib) : Prop :=
  owned.backend.type = .posix_object_mount ∧
    source_of ctx owned.env owned.backend = .path (resolved ctx owned.manifest.target_location)

/-- The deletion is recorded, or the source is complete and is not the target, or it is a volume
without the directory. -/
def Finishable (lib : Library) (ctx : ServiceContext) (s : State) (owned : Owned lib) : Prop :=
  owned.manifest.source_deleted = true ∨
  SourceHolds lib s (source_of ctx owned.env owned.backend) owned.manifest.toMigrationFields ∧
    ¬ IsTarget ctx owned ∨
  (∃ v, source_of ctx owned.env owned.backend = .volume v) ∧
    ∀ tree, s.held (source_of ctx owned.env owned.backend) ≠ .directory tree

/-- It returns a manifest that records the deletion, and that is on disk. -/
def Finished (lib : Library) (migration_id : String) (r : Except String (MigrationManifest lib))
    (t : State) : Prop :=
  ∃ m, r = .ok m ∧ m.source_deleted = true ∧ t.manifests migration_id = some m.toMigrationFields

/-- A deletion that is called again, all confirmed and without faults. -/
def Finishes (lib : Library) (now : Timestamp) (ctx : ServiceContext)
    (environment migration_id : String) (s : State) : Prop :=
  let retry := (delete_source_after_cutover lib ctx environment migration_id environment
    migration_id true).run (serve lib now) s
  Finished lib migration_id retry.1 retry.2

theorem yields_save {manifest current : MigrationManifest lib} {f : Unit → MigrationM α}
    {Q : Except String α → State → Prop}
    (hcurrent : s.manifests manifest.migration_id = some current.toMigrationFields)
    (hidentity : current.identity = manifest.identity)
    (h : Yields lib now (f ()) Q (s.write manifest.toMigrationFields)) :
    Yields lib now (save_filestore_migration manifest >>= f) Q s := by
  unfold save_filestore_migration
  rw [safe_backup_component_of_safe (component_of_valid manifest)]
  apply wp_bind'.mpr
  apply wp_bind'.mpr
  apply wp_bind'.mpr
  apply yields_send.mpr
  simp only [serveLocal, hcurrent]
  apply wp_bind'.mpr
  apply yields_loaded
  rw [reject_if, if_neg (not_not.mpr hidentity)]
  apply yields_send.mpr
  exact h

def completion (now : Timestamp) (m : MigrationFields) : MigrationFields :=
  { m with source_deleted := true, source_deleted_at := some now, last_error := none }

/-- The completion of a deletion that has started is a valid manifest. -/
theorem completed_valid {manifest : MigrationManifest lib}
    (hstarted : manifest.source_delete_started_at ≠ none) :
    ∃ deleted : MigrationManifest lib, validated_update manifest (completion now) = .ok deleted ∧
      deleted.toMigrationFields = completion now manifest.toMigrationFields := by
  have hc := manifest.consistent
  apply validated_update_ok
  · exact manifest.fields_sound
  · constructor
    · exact hc.sorted
    · exact hc.total
    · exact hc.inventory
    · exact hc.module
    · exact hc.synced
    · exact hc.verified
    · exact hc.cutover
    · rfl
    · exact hc.started
    · exact fun _ => hstarted

theorem yields_record {manifest : MigrationManifest lib}
    (hid : manifest.migration_id = migration_id)
    (hcurrent : s.manifests migration_id = some manifest.toMigrationFields)
    (hstarted : manifest.source_delete_started_at ≠ none) :
    Yields lib now (do
      let now ← send .now_utc
      let deleted ← updated manifest fun m =>
        { m with source_deleted := true, source_deleted_at := some now, last_error := none }
      save_filestore_migration deleted
      .pure deleted) (Finished lib migration_id) s := by
  obtain ⟨deleted, hvalid, hfields⟩ : ∃ deleted : MigrationManifest lib,
      validated_update manifest (completion now) = .ok deleted ∧
        deleted.toMigrationFields = completion now manifest.toMigrationFields :=
    completed_valid hstarted
  apply wp_bind'.mpr
  apply yields_send.mpr
  have hdeleted : deleted.migration_id = migration_id := by
    rw [hfields]
    exact hid
  change Yields lib now (updated manifest (completion now) >>= _) _ s
  rw [updated, hvalid]
  apply wp_bind'.mpr
  apply yields_save (hdeleted.symm ▸ hcurrent)
  · rw [hfields]
    rfl
  · refine ⟨deleted, rfl, ?_, ?_⟩
    · rw [hfields]
      rfl
    · rw [← hdeleted]
      exact Function.update_self _ _ _

/-- What is left of a deletion once the source has been compared. -/
def conclude (ctx : ServiceContext) (type : BackendType) (source : Source)
    (manifest : MigrationManifest lib) : MigrationM (MigrationManifest lib) := do
  delete_tree ctx type manifest.target_location source
  let now ← send .now_utc
  let deleted ← updated manifest fun m =>
    { m with source_deleted := true, source_deleted_at := some now, last_error := none }
  save_filestore_migration deleted
  .pure deleted

/-- A source that `shutil.rmtree` or `rm -rf` removes. -/
def Removable (s : State) (source : Source) : Prop :=
  (∃ v, source = .volume v) ∨ ∃ tree, s.held source = .directory tree

theorem yields_conclude {type : BackendType} {source : Source} {manifest : MigrationManifest lib}
    (hid : manifest.migration_id = migration_id)
    (hcurrent : s.manifests migration_id = some manifest.toMigrationFields)
    (hstarted : manifest.source_delete_started_at ≠ none)
    (htarget : ¬ (type = .posix_object_mount ∧
      source = .path (resolved ctx manifest.target_location)))
    (hremovable : Removable s source) :
    Yields lib now (conclude ctx type source manifest) (Finished lib migration_id) s := by
  have hremoved : Yields lib now (send (.remove_source source))
      (fun r t => r = .ok () ∧ t.manifests = s.manifests) s := by
    apply yields_send.mpr
    rcases hremovable with ⟨v, rfl⟩ | ⟨tree, htree⟩
    · simp only [serveLocal]
      exact ⟨trivial, rfl⟩
    · simp only [serveLocal, htree]
      exact ⟨trivial, rfl⟩
  have hdeleted : Yields lib now (delete_tree ctx type manifest.target_location source)
      (fun r t => r = .ok () ∧ t.manifests = s.manifests) s := by
    cases source with
    | path text =>
      apply passes _ hremoved
      rintro ⟨hposix, htext⟩
      exact htarget ⟨hposix, congrArg Source.path htext⟩
    | volume v => exact hremoved
  apply yields_seq hdeleted
  intro t ht
  exact yields_record hid (ht ▸ hcurrent) hstarted

/-- A path where there is no directory, or that is the target, stops the deletion. -/
theorem conclude_raises {type : BackendType} {source : Source} {manifest : MigrationManifest lib}
    (h : (type = .posix_object_mount ∧ source = .path (resolved ctx manifest.target_location)) ∨
      ¬ Removable s source) :
    Yields lib now (conclude ctx type source manifest) (fun r _ => ∃ e, r = .error e) s := by
  apply yields_raise
  cases source with
  | volume v =>
    rcases h with ⟨-, h⟩ | h
    · cases h
    · exact absurd (.inl ⟨v, rfl⟩) h
  | path text =>
    apply wp_reject_if (fun _ => ⟨_, rfl⟩)
    intro hdistinct
    rcases h with ⟨hposix, htext⟩ | h
    · exact absurd ⟨hposix, Source.path.inj htext⟩ hdistinct
    · apply yields_send.mpr
      cases hheld : s.held (.path text) with
      | directory tree => exact absurd (.inr ⟨tree, hheld⟩) h
      | absent =>
        simp only [serveLocal, hheld]
        exact ⟨_, rfl⟩
      | other =>
        simp only [serveLocal, hheld]
        exact ⟨_, rfl⟩

/-- A retry that finds the source compares it. -/
theorem yields_compared {source : Source} {tree : Tree} {manifest : MigrationManifest lib}
    {Q : Except String (MigrationManifest lib) → State → Prop}
    (hstarted : manifest.source_delete_started_at ≠ none) (htree : s.held source = .directory tree)
    (hinventory : inventory_of lib tree = .ok (.of_manifest manifest.toMigrationFields))
    (h : ∀ t, Same s t → Q (.ok manifest) t) :
    Yields lib now (authorize_deletion manifest source true) Q s := by
  unfold authorize_deletion
  rw [if_neg hstarted, if_pos rfl]
  obtain ⟨root, hroot⟩ : ∃ root, Yields lib now (materialized_source source)
      (fun r t => r = .ok root ∧ Same s t ∧ At t root tree) s := yields_materialized htree
  apply yields_seq hroot
  intro t ⟨hst, hat⟩
  apply yields_seq (yields_inventory hat hinventory)
  intro u htu
  exact h u (hst.trans htu)

theorem mismatch_raises {source : Source} {tree : Tree} {manifest : MigrationManifest lib}
    (hstarted : manifest.source_delete_started_at ≠ none) (htree : s.held source = .directory tree)
    (hinventory : inventory_of lib tree ≠ .ok (.of_manifest manifest.toMigrationFields)) :
    Yields lib now (authorize_deletion manifest source true) (fun r _ => ∃ e, r = .error e) s := by
  unfold authorize_deletion
  rw [if_neg hstarted, if_pos rfl]
  obtain ⟨root, hroot⟩ : ∃ root, Yields lib now (materialized_source source)
      (fun r t => r = .ok root ∧ Same s t ∧ At t root tree) s := yields_materialized htree
  apply yields_seq hroot
  intro t ⟨hst, hat⟩
  exact yields_raise (yields_mismatch hat hinventory)

/-- Where no directory is found, nothing is compared. -/
theorem yields_missing {source : Source} {manifest : MigrationManifest lib}
    {Q : Except String (MigrationManifest lib) → State → Prop}
    (hstarted : manifest.source_delete_started_at ≠ none) (h : Q (.ok manifest) s) :
    Yields lib now (authorize_deletion manifest source false) Q s := by
  unfold authorize_deletion
  rw [if_neg hstarted, if_neg Bool.false_ne_true]
  exact h

theorem yields_exists (lib : Library) (now : Timestamp) (s : State) (source : Source) :
    (∃ tree, s.held source = .directory tree) ∧ Yields lib now (send (.source_exists source))
      (fun r t => r = .ok true ∧ Same s t) s ∨
    (∀ tree, s.held source ≠ .directory tree) ∧ (Yields lib now (send (.source_exists source))
      (fun r t => r = .ok false ∧ Same s t) s ∨
      (∀ v, source ≠ .volume v) ∧ Yields lib now (send (.source_exists source))
        (fun r _ => ∃ e, r = .error e) s) := by
  cases hheld : s.held source with
  | directory tree =>
    refine .inl ⟨⟨tree, rfl⟩, yields_send.mpr ?_⟩
    simp only [serveLocal, hheld]
    exact ⟨trivial, rfl, rfl, rfl⟩
  | absent =>
    refine .inr ⟨fun tree h => (by cases h), .inl (yields_send.mpr ?_)⟩
    cases source <;> simp only [serveLocal, hheld] <;> exact ⟨trivial, rfl, rfl, rfl⟩
  | other =>
    refine .inr ⟨fun tree h => (by cases h), ?_⟩
    cases source with
    | volume v =>
      refine .inl (yields_send.mpr ?_)
      simp only [serveLocal, hheld]
      exact ⟨trivial, rfl, rfl, rfl⟩
    | path text =>
      refine .inr ⟨fun v h => (by cases h), yields_send.mpr ?_⟩
      simp only [serveLocal, hheld]
      exact ⟨_, rfl⟩

/-- The part of a retry that decides. -/
theorem yields_decided (h : Owns lib ctx environment migration_id s owned)
    (hstarted : owned.manifest.source_delete_started_at ≠ none)
    (hpending : owned.manifest.source_deleted = false) :
    Yields lib now (do
      let source_exists ← send (.source_exists (source_of ctx owned.env owned.backend))
      let started ← authorize_deletion owned.manifest (source_of ctx owned.env owned.backend)
        source_exists
      conclude ctx owned.backend.type (source_of ctx owned.env owned.backend) started)
      (fun r t => (Finishable lib ctx s owned ∧ Finished lib migration_id r t) ∨
        ¬ Finishable lib ctx s owned ∧ ∃ e, r = .error e) s := by
  have hunfinished : ∀ {p : MigrationM (MigrationManifest lib)} {u : State},
      ¬ Finishable lib ctx s owned → Yields lib now p (fun r _ => ∃ e, r = .error e) u →
      Yields lib now p (fun r t => (Finishable lib ctx s owned ∧ Finished lib migration_id r t) ∨
        ¬ Finishable lib ctx s owned ∧ ∃ e, r = .error e) u :=
    fun hnot hp => wp_post hp fun _ _ he => .inr ⟨hnot, he⟩
  have hfinished : ∀ {p : MigrationM (MigrationManifest lib)} {u : State},
      Finishable lib ctx s owned → Yields lib now p (Finished lib migration_id) u →
      Yields lib now p (fun r t => (Finishable lib ctx s owned ∧ Finished lib migration_id r t) ∨
        ¬ Finishable lib ctx s owned ∧ ∃ e, r = .error e) u :=
    fun hyes hp => wp_post hp fun _ _ hf => .inl ⟨hyes, hf⟩
  have hcurrent : ∀ {u}, Same s u →
      u.manifests migration_id = some owned.manifest.toMigrationFields :=
    fun hsu => hsu.manifests ▸ h.durable
  generalize hsource : source_of ctx owned.env owned.backend = source
  have hfinishable : Finishable lib ctx s owned ↔
      (SourceHolds lib s source owned.manifest.toMigrationFields ∧ ¬ IsTarget ctx owned) ∨
      (∃ v, source = .volume v) ∧ ∀ tree, s.held source ≠ .directory tree := by
    rw [Finishable, hsource, hpending]
    simp
  have htarget : IsTarget ctx owned ↔ owned.backend.type = .posix_object_mount ∧
      source = .path (resolved ctx owned.manifest.target_location) := by
    rw [IsTarget, hsource]
  rcases yields_exists lib now s source with
    ⟨⟨tree, htree⟩, hfound⟩ | ⟨hnone, hmissing | ⟨hpath, herror⟩⟩
  · apply yields_seq hfound
    intro t hst
    have htree' : t.held source = .directory tree := by rw [hst.held, htree]
    by_cases hinventory : inventory_of lib tree = .ok (.of_manifest owned.manifest.toMigrationFields)
    · apply yields_seq (R := fun u => Same s u)
        (yields_compared hstarted htree' hinventory fun u htu => ⟨rfl, hst.trans htu⟩)
      intro u hsu
      have hholds : SourceHolds lib s source owned.manifest.toMigrationFields :=
        ⟨tree, htree, hinventory⟩
      by_cases hdistinct : IsTarget ctx owned
      · apply hunfinished
        · rw [hfinishable]
          rintro (⟨-, hnot⟩ | ⟨-, hnot⟩)
          · exact hnot hdistinct
          · exact hnot tree htree
        · exact conclude_raises (.inl (htarget.mp hdistinct))
      · apply hfinished (hfinishable.mpr (.inl ⟨hholds, hdistinct⟩))
        apply yields_conclude h.id (hcurrent hsu) hstarted (fun ht => hdistinct (htarget.mpr ht))
        exact .inr ⟨tree, by rw [hsu.held, htree]⟩
    · apply hunfinished
      · rw [hfinishable]
        rintro (⟨⟨tree', htree', hinventory'⟩, -⟩ | ⟨-, hnot⟩)
        · obtain rfl := Held.directory.inj (htree.symm.trans htree')
          exact hinventory hinventory'
        · exact hnot tree htree
      · exact yields_raise (mismatch_raises hstarted htree' hinventory)
  · apply yields_seq hmissing
    intro t hst
    apply yields_seq (R := fun u => Same s u) (yields_missing hstarted ⟨rfl, hst⟩)
    intro u hsu
    cases hvolume : source with
    | volume v =>
      rw [hvolume] at hfinishable hnone htarget
      apply hfinished (hfinishable.mpr (.inr ⟨⟨v, rfl⟩, hnone⟩))
      apply yields_conclude h.id (hcurrent hsu) hstarted _ (.inl ⟨v, rfl⟩)
      rintro ⟨-, hpath⟩
      cases hpath
    | path text =>
      rw [hvolume] at hfinishable hnone htarget
      apply hunfinished
      · rw [hfinishable]
        rintro (⟨⟨tree, htree, -⟩, -⟩ | ⟨⟨v, hv⟩, -⟩)
        · exact hnone tree htree
        · cases hv
      · apply conclude_raises (.inr _)
        rintro (⟨v, hv⟩ | ⟨tree, htree⟩)
        · cases hv
        · rw [hsu.held] at htree
          exact hnone tree htree
  · apply hunfinished
    · rw [hfinishable]
      rintro (⟨⟨tree, htree, -⟩, -⟩ | ⟨⟨v, hv⟩, -⟩)
      · exact hnone tree htree
      · exact hpath v hv
    · exact yields_raise herror

theorem yields_retry (now : Timestamp) (h : Owns lib ctx environment migration_id s owned)
    (hstarted : owned.manifest.source_delete_started_at ≠ none)
    (hserving : owned.backend.type ≠ .object_mirror)
    (htarget : TargetHolds lib ctx environment s owned) :
    Yields lib now (delete_source_after_cutover lib ctx environment migration_id environment
      migration_id true) (fun r t => (Finishable lib ctx s owned ∧ Finished lib migration_id r t) ∨
        ¬ Finishable lib ctx s owned ∧ ∃ e, r = .error e) s := by
  have hcutover : owned.manifest.status = .cutover :=
    owned.manifest.consistent.started (Option.isSome_iff_ne_none.mpr hstarted)
  have hsame : ∀ {u}, Same s u → (Finishable lib ctx u owned ↔ Finishable lib ctx s owned) := by
    intro u hsu
    simp only [Finishable, SourceHolds, hsu.held]
  unfold delete_source_after_cutover
  apply passes (by simp)
  apply yields_seq (yields_owned h)
  intro t hst
  apply passes hserving
  by_cases hdeleted : owned.manifest.source_deleted = true
  · rw [if_pos hdeleted]
    exact .inl ⟨.inl hdeleted, owned.manifest, rfl, hdeleted, hst.manifests ▸ h.durable⟩
  rw [if_neg hdeleted]
  apply passes (not_not.mpr hcutover)
  have ht := h.later hst.manifests
  apply wp_bind'.mpr
  apply wp_post (yields_verify_migration ht hcutover (htarget.later hst))
  intro r u ⟨⟨v, hr⟩, htu⟩
  subst hr
  have hsu := hst.trans htu
  apply wp_post (yields_decided (h.later hsu.manifests) hstarted (by simpa using hdeleted))
  intro r w hw
  rw [hsame hsu] at hw
  exact hw

/-- Once its start is on disk, a deletion that is called again finishes exactly where the source
is whole, or is a volume whose directory is gone, or the deletion has been recorded. -/
theorem deletion_finishes_iff (h : Owns lib ctx environment migration_id s owned)
    (hstarted : owned.manifest.source_delete_started_at ≠ none)
    (hserving : owned.backend.type ≠ .object_mirror)
    (htarget : TargetHolds lib ctx environment s owned) :
    Finishes lib now ctx environment migration_id s ↔ Finishable lib ctx s owned := by
  have hretry := yields_iff.mp (yields_retry now h hstarted hserving htarget)
  rcases hretry with ⟨hfinishable, hfinished⟩ | ⟨hnot, e, he⟩
  · exact ⟨fun _ => hfinishable, fun _ => hfinished⟩
  · constructor
    · rintro ⟨m, hm, -⟩
      rw [he] at hm
      cases hm
    · exact fun hfinishable => absurd hfinishable hnot

end Retry

/-! ## A volume that is gone -/

def startedTree : Tree := [("ab/1", .file [1, 2])]

def startedFields : MigrationFields where
  migration_id := exampleId
  project := "acme"
  environment := "production"
  source_backend := .docker_volume
  target_backend := .posix_object_mount
  source_location := "volume:odoo_data:filestore/odoo"
  target_location := "/mnt/filestore"
  entries := [⟨"ab/1", exampleLibrary.sha256 (.content [1, 2]), 2⟩]
  inventory_sha256 := exampleLibrary.sha256 (.inventory [])
  total_size := 2
  created_at := 1
  synced_at := some 2
  verified_at := some 3
  cutover_at := some 4
  source_delete_started_at := some 5
  status := .cutover

theorem startedFields_valid : startedFields.faults exampleLibrary.sha256 = [] := by decide +kernel

def mountedBackend : FilestoreBackendConfig :=
  { type := .posix_object_mount, mount_path := some "/mnt/filestore" }

def startedOwned : Owned exampleLibrary :=
  ⟨⟨startedFields, startedFields_valid⟩, mountedEnvironment, mountedBackend⟩

/-- The volume has been removed and this has not been recorded. -/
def volumeGone : State where
  manifests := fun id => if id = exampleId then some startedFields else none
  held := fun source => if source = .path "/mnt/filestore" then .directory startedTree else .absent
  objects := fun _ => none

theorem mount_resolved : resolve_host_path exampleContext "/mnt/filestore" = "/mnt/filestore" := by
  decide +kernel

theorem source_is_volume :
    source_of exampleContext mountedEnvironment mountedBackend = exampleVolume := by
  decide +kernel

theorem startedOwned_owns : Owns exampleLibrary exampleContext "production" exampleId volumeGone
    startedOwned where
  configured := rfl
  durable := by simp [volumeGone, startedOwned]
  id := rfl
  in_project := rfl
  in_environment := rfl
  source := by
    change _ = source_description (source_of exampleContext mountedEnvironment mountedBackend)
    rw [source_is_volume]
    decide +kernel
  target := rfl
  modular := rfl
  location := congrArg Prog.pure mount_resolved

theorem gone_volume_finishes :
    Finishes exampleLibrary 8 exampleContext "production" exampleId volumeGone := by
  have htarget : TargetHolds exampleLibrary exampleContext "production" volumeGone startedOwned := by
    have hposix : startedOwned.manifest.target_backend = .posix_object_mount := rfl
    have hheld : volumeGone.held (.path startedOwned.manifest.target_location) =
        .directory startedTree := by simp [volumeGone, startedOwned, startedFields]
    rw [TargetHolds, if_pos hposix]
    exact ⟨startedTree, hheld, by decide +kernel⟩
  apply (deletion_finishes_iff startedOwned_owns (Option.some_ne_none _) (by decide) htarget).mpr
  refine .inr (.inr ⟨⟨_, source_is_volume⟩, ?_⟩)
  change ∀ tree, volumeGone.held (source_of exampleContext mountedEnvironment mountedBackend) ≠ _
  rw [source_is_volume]
  intro tree h
  cases h

/-! ## A deletion cut off half way -/

/-- The file of the volume is gone and its directory is not. -/
def halfDeleted : State := begun.2.hold exampleVolume (.directory [])

theorem begun_world :
    Steps (world exampleLibrary) cutOver (deletion.run exampleLibrary) begun.2 begun.1 :=
  steps_play serveTest_world _ _ _

theorem half_deleted_stuck :
    (∃ q, Session (world exampleLibrary) (fun _ _ => False) (fun _ _ => True)
      (Call.run exampleLibrary) unplanned cutOver ∧
      Steps (world exampleLibrary) cutOver (deletion.run exampleLibrary) halfDeleted q) ∧
    ((halfDeleted.manifests exampleId).bind
      MigrationFields.source_delete_started_at).isSome = true ∧
    ¬ Finishes exampleLibrary 8 exampleContext "production" exampleId halfDeleted := by
  obtain ⟨⟨hremoval, -⟩, -, hheld, hstarted, hfailed⟩ := runs_evaluated
  refine ⟨?_, hstarted, ?_⟩
  · obtain ⟨k, hk⟩ := next_removal_call hremoval
    refine ⟨k (.error "rm: interrupted"), cutOver_session (serve_world exampleLibrary 7), ?_⟩
    have hsteps := begun_world
    rw [hk] at hsteps
    apply hsteps.trans
    apply Steps.call _ (Steps.refl _ _)
    refine ⟨.directory [], .inr (.inr ⟨_, _, hheld, rfl, List.nil_sublist _⟩), rfl, nofun⟩
  · rintro ⟨m, hm, -⟩
    rw [halfDeleted] at hm
    rw [hm] at hfailed
    cases hfailed

end SourceDeletion
