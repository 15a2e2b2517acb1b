import Odooctl.FilestoreIsolation

/-!
# Cloning into a protected environment

The swap refuses a protected target, but only after the filestore of the target has been
replaced. What is left of the protection is that of the configuration.
-/
namespace CloneProtection

open EffectPrograms PostgresCatalog DatabaseCutover SwapTempDatabase
open ProjectConfiguration FilestoreAdapters EnvironmentServices
open DatabaseIsolation (SparesIn Spares exampleHost serveAll exampleReply exampleStep)
open FilestoreIsolation

variable (host : Host) (cfg : OdooCtlConfig)

/-- No clone into the environment succeeds or calls anything that changes its database or its
filestore. -/
structure Untouched (p : String × EnvironmentConfig) : Prop where
  refused : ∀ source sanitize,
    ¬ (run_clone host cfg.toConfigFields source p.1 sanitize false).MayReturn ()
  database : ∀ source sanitize preview,
    (run_clone host cfg.toConfigFields source p.1 sanitize preview).Calls
      (SparesIn (live p.2.db_name))
  filestore : ∀ home, filestore_home host cfg p = .ok home → ∀ source sanitize preview,
    (run_clone host cfg.toConfigFields source p.1 sanitize preview).Calls (AvoidsIn home)

def SparesProtected : Prop :=
  ∀ p ∈ cfg.environments, is_protected cfg.toConfigFields p.1 = .ok true → Untouched host cfg p

variable {host cfg} {p : String × EnvironmentConfig} {source : String} {sanitize : Option Bool}
  {preview : Bool}

theorem orRaise_of_mayReturn {α : Type} {r : Except String α} {a : α}
    (h : (orRaise r).MayReturn a) : r = .ok a := by
  cases r with
  | error e => exact h.elim
  | ok b => exact congrArg Except.ok h

/-! ## The guard of the swap -/

theorem swap_refuses {temp_db target_db m : DbName} {name : String} {a : Unit}
    (hprotected : is_protected cfg.toConfigFields name = .ok true) :
    ¬ (onDatabase (swap_temp_database postgresHooks temp_db target_db name
      (some fun name => (is_protected cfg.toConfigFields name).mapError .runtimeError) m)).MayReturn
        a := by
  simp only [swap_temp_database, refuses_target, hprotected]
  exact id

/-- A clone into a protected environment raises, or previews. -/
theorem clone_refused (hprotected : is_protected cfg.toConfigFields p.1 = .ok true) :
    ¬ (run_clone host cfg.toConfigFields source p.1 sanitize false).MayReturn () := by
  intro h
  obtain ⟨src, -, h⟩ := mayReturn_of_bind h
  obtain ⟨dst, -, h⟩ := mayReturn_of_bind h
  split at h
  · exact h
  split at h
  · exact h
  obtain ⟨b, -, h⟩ := mayReturn_of_bind h
  split at h
  · exact h
  obtain ⟨_, -, h⟩ := mayReturn_of_bind h
  obtain ⟨_, -, h⟩ := mayReturn_of_bind h
  obtain ⟨_, hswap, -⟩ := mayReturn_of_bind h
  exact swap_refuses hprotected hswap

/-! ## Where no clone gets as far -/

section WithoutAdapter

variable {D : Services.Op → Prop} {src dst : EnvironmentConfig} {b : Bool}

/-- A clone is prepared no further than to the runtime adapter. -/
theorem calls_prepare_without_adapter (hstep : ∀ c, D (.inr (.inr c)))
    (hnone : ∀ place, make_runtime_adapter cfg.toConfigFields p.1 ≠ .ok place) :
    (prepare_clone host cfg.toConfigFields p.1 src dst b).Calls D := by
  apply calls_bind (calls_step hstep _)
  intro missing
  apply calls_ite (calls_raise _)
  cases b with
  | true =>
    apply calls_bind (calls_step hstep _)
    intro _
    exact calls_orRaise_bind fun place hplace => absurd hplace (hnone place)
  | false => exact calls_orRaise_bind fun place hplace => absurd hplace (hnone place)

theorem prepare_without_adapter
    (hnone : ∀ place, make_runtime_adapter cfg.toConfigFields p.1 ≠ .ok place) :
    ¬ (prepare_clone host cfg.toConfigFields p.1 src dst b).MayReturn () := by
  intro h
  obtain ⟨missing, -, h⟩ := mayReturn_of_bind h
  split at h
  · exact h
  cases b with
  | true =>
    obtain ⟨_, -, h⟩ := mayReturn_of_bind h
    obtain ⟨place, hplace, -⟩ := mayReturn_of_bind h
    exact hnone place (orRaise_of_mayReturn hplace)
  | false =>
    obtain ⟨_, -, h⟩ := mayReturn_of_bind h
    obtain ⟨place, hplace, -⟩ := mayReturn_of_bind h
    exact hnone place (orRaise_of_mayReturn hplace)

/-- Where nothing may be cloned, or the runtime adapter cannot be built, a clone calls neither
the database server nor a filestore. -/
theorem calls_of_not_clonable (hstep : ∀ c, D (.inr (.inr c)))
    (hp : p ∈ cfg.environments) (h : ¬ Clonable cfg.toConfigFields p) :
    (run_clone host cfg.toConfigFields source p.1 sanitize preview).Calls D := by
  apply calls_orRaise_bind
  intro src _
  apply calls_orRaise_bind
  intro dst hdst
  obtain rfl := env_ok (cfg.find_of_mem hp) hdst
  split
  · exact calls_raise _
  next hfrom =>
    apply calls_ite (calls_raise _)
    apply calls_orRaise_bind
    intro b _
    apply calls_ite (calls_raise _)
    apply calls_bind (calls_step hstep _)
    intro _
    apply calls_ite (calls_pure _)
    have hnone : ∀ place, make_runtime_adapter cfg.toConfigFields p.1 ≠ .ok place :=
      fun place hplace => h ⟨hfrom, place, hplace⟩
    apply calls_bind_of (calls_prepare_without_adapter hstep hnone)
    intro _ hprepare
    exact absurd hprepare (prepare_without_adapter hnone)

end WithoutAdapter

theorem untouched_of_not_clonable (hp : p ∈ cfg.environments)
    (hprotected : is_protected cfg.toConfigFields p.1 = .ok true)
    (h : ¬ Clonable cfg.toConfigFields p) : Untouched host cfg p := by
  constructor
  · intro source sanitize
    exact clone_refused hprotected
  · intro source sanitize preview
    exact calls_of_not_clonable (fun _ => trivial) hp h
  · intro home _ source sanitize preview
    exact calls_of_not_clonable (fun _ => trivial) hp h

/-! ## Where a clone replaces the filestore -/

/-- A copy into the environment's filestore replaces it. -/
theorem copy_replaces {home : Location} {src : EnvironmentConfig}
    (hhome : filestore_home host cfg p = .ok home) :
    ¬ (copy_filestore host cfg.toConfigFields p.1 src p.2).Calls (AvoidsIn home) := by
  intro h
  unfold copy_filestore at h
  unfold filestore_home at hhome
  cases hv : p.2.filestore_volume with
  | none =>
    simp only [hv] at h hhome
    obtain rfl := Except.ok.inj hhome
    exact (copy_iff.mp (FilestoreIsolation.calls_onFiles.mp h)).here (.inl (Location.within_refl _))
  | some v =>
    simp only [hv] at h hhome
    cases hfs : runtime_volume cfg.toConfigFields p.1 with
    | error e =>
      rw [hfs] at hhome
      cases hhome
    | ok fs =>
      rw [hfs] at hhome
      obtain rfl := Except.ok.inj hhome
      have hcopy := FilestoreIsolation.calls_onFiles.mp (h.rest (mayReturn_orRaise hfs))
      have hparent : ¬ fs.parent.Within
          (fs.container_filestore_dir (PosixPath.parse p.2.filestore_path).name) :=
        Location.not_within_child _ _
      exact (volume_copy_iff hparent).mp hcopy (.inl (Location.within_refl _))

theorem touched_of_clonable (hp : p ∈ cfg.environments) (h : Clonable cfg.toConfigFields p) :
    ¬ Untouched host cfg p := by
  intro huntouched
  obtain ⟨place, hplace⟩ := h.2
  have hhome : ∃ home, filestore_home host cfg p = .ok home := home_of_adapter hplace
  obtain ⟨home, hhome⟩ := hhome
  obtain ⟨src, hcopy⟩ := clone_copy_files hp (huntouched.filestore home hhome) h
  exact copy_replaces hhome hcopy

/-- A protected environment, and a clone target by configuration. -/
def mirror : EnvironmentConfig where
  branch := "mirror"
  domain := "mirror.example.com"
  db_name := "odoo_mirror"
  filestore_path := "filestore/odoo_mirror"
  protected_ := some true
  clone_from := some "staging"
  db_name_safe := by decide +kernel
  filestore_volume_safe := no_volume_safe
  filestore_path_safe := by decide +kernel

def mirrorConfig : OdooCtlConfig where
  environments := [("mirror", mirror), ("staging", DatabaseIsolation.staging)]
  names_distinct := by decide
  names_safe := by decide +kernel
  suffix_safe := default_suffix_safe
  graph_valid := by decide +kernel

def mirrorHome : Location := (exampleHost.resolve_path "filestore/odoo_mirror").here

/-- Nothing fails; what is done to filestores is noted. -/
def serveNoting (o : Services.Op) (s : Catalog × List FileCall) :
    Services.Reply o × Catalog × List FileCall :=
  match o with
  | .inl o => ((serveAll (.inl o) s.1).1, (serveAll (.inl o) s.1).2, s.2)
  | .inr (.inl c) => (.ok (exampleReply c), s.1, s.2 ++ [c])
  | .inr (.inr c) => (.ok (exampleStep c), s.1, s.2)

def mirrorClone : Except ServiceError Unit × Catalog × List FileCall :=
  (run_clone exampleHost mirrorConfig.toConfigFields "staging" "mirror" none false).run serveNoting
    (DatabaseIsolation.bothLive, [])

end CloneProtection
