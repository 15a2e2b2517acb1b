import Odooctl.DatabaseNames

/-!
# No restore or clone touches another environment's database

What each service may do to a name, whatever the server and the rest reply, and what
follows for the configurations that keep the names apart.
-/
namespace DatabaseIsolation

open EffectPrograms PostgresCatalog DatabaseCutover DatabaseCutoverSafety SwapTempDatabase
open ProjectConfiguration FilestoreAdapters EnvironmentServices DatabaseNames

/-- No effect of the call changes what bears the name. -/
def Spares (n : DbName) (o : AdapterCall) : Prop := ∀ c d, Affects c o d → d n = c n

/-- Only the calls on the server can change what bears a name. -/
def SparesIn (n : DbName) : Services.Op → Prop
  | .inl o => Spares n o
  | .inr _ => True

variable {n : DbName} {α β : Type}

theorem spares_psql {m : DbName} {sql : Statement}
    (h : ∀ c d, Executes c sql d → d n = c n) : Spares n (.psql m sql) := by
  rintro c d ⟨hx⟩
  exact h c d hx

theorem spares_drop {m x : DbName} (h : n ≠ serverName x) :
    Spares n (.psql m (.dropDatabase x)) := by
  refine spares_psql fun c d hx => ?_
  cases hx with
  | drop => exact Catalog.drop_other _ h

theorem spares_rename {m old new : DbName} (hold : n ≠ serverName old) (hnew : n ≠ serverName new) :
    Spares n (.psql m (.renameDatabase old new)) := by
  refine spares_psql fun c d hx => ?_
  cases hx with
  | rename => exact Catalog.move_other _ _ hold hnew

theorem spares_terminate {m x : DbName} : Spares n (.psql m (.terminateConnections x)) := by
  refine spares_psql fun c d hx => ?_
  cases hx
  rfl

theorem spares_create {x : DbName} (h : n ≠ serverName x) : Spares n (.create x) := by
  rintro c d ⟨o, hfree⟩
  exact Function.update_of_ne h _ _

theorem spares_of_isLookup {o : AdapterCall} (h : o.isLookup = true) : Spares n o := by
  intro c d hx
  cases hx with
  | psql => cases h
  | create => cases h
  | drop => cases h

/-! ## Programs on the server -/

theorem calls_terminate {x m : DbName} : (terminate_connections x m).Calls (Spares n) :=
  calls_perform.mpr spares_terminate

theorem calls_quote {x : DbName} : (quote_identifier x).Calls (Spares n) := by
  unfold quote_identifier
  split
  · exact calls_raise _
  · exact calls_pure _

theorem calls_drop_database {x m : DbName} (h : n ≠ serverName x) :
    (drop_database x m).Calls (Spares n) :=
  calls_bind calls_quote fun _ => calls_perform.mpr (spares_drop h)

theorem calls_rename {old new m : DbName} (hold : n ≠ serverName old) (hnew : n ≠ serverName new) :
    (rename_database old new m).Calls (Spares n) :=
  calls_bind calls_quote fun _ => calls_bind calls_quote fun _ =>
    calls_perform.mpr (spares_rename hold hnew)

theorem calls_exists {x : DbName} : (database_exists x).Calls (Spares n) :=
  calls_perform.mpr (spares_of_isLookup rfl)

theorem calls_create {x : DbName} (h : n ≠ serverName x) : (create x).Calls (Spares n) :=
  calls_perform.mpr (spares_create h)

theorem calls_drop_create {mode : ExecutionMode} {x : DbName} (h : n ≠ serverName x) :
    (drop_create mode x).Calls (Spares n) := by
  have hdrop : (psql "postgres" (.dropDatabase x)).Calls (Spares n) :=
    calls_perform.mpr (spares_drop h)
  unfold drop_create
  cases mode with
  | docker =>
    exact calls_bind calls_terminate fun _ => calls_bind hdrop fun _ => calls_create h
  | host => exact calls_bind hdrop fun _ => calls_create h

theorem calls_restore {mode : ExecutionMode} {x : DbName} (h : n ≠ serverName x) :
    (restore mode x).Calls (Spares n) :=
  calls_bind (calls_drop_create h) fun _ => calls_perform.mpr (spares_of_isLookup rfl)

theorem calls_drop_if_exists {x m : DbName} (h : n ≠ serverName x) :
    (drop_if_exists x m).Calls (Spares n) := by
  refine calls_bind calls_exists fun b => ?_
  split
  · exact calls_bind calls_terminate fun _ => calls_drop_database h
  · exact calls_pure _

/-- A swap drops, renames and creates no name but the three that it is about. -/
theorem calls_swap {pg : Hooks} {temp_db target_db m : DbName} {target_env_name : String}
    {is_protected_fn : Option (String → Except SwapError Bool)}
    (hlive : n ≠ live target_db) (htemp : n ≠ serverName temp_db) (hcopy : n ≠ copy target_db) :
    (swap_temp_database pg temp_db target_db target_env_name is_protected_fn m).Calls
      (Spares n) := by
  have hpromote : ∀ b, (promote_temp temp_db target_db (aside_name target_db) m b).Calls
      (Spares n) := by
    intro b
    refine calls_bind (calls_attempt (calls_bind calls_terminate fun _ =>
      calls_rename htemp hlive)) fun r => ?_
    cases r with
    | ok x => exact calls_pure _
    | error e =>
      simp only
      split
      swap
      · exact calls_raise _
      refine calls_bind calls_exists fun b => ?_
      split
      · exact calls_bind (calls_rename hcopy hlive) fun _ => calls_raise _
      · exact calls_raise _
  have haside : ∀ b, (move_aside target_db (aside_name target_db) m b).Calls (Spares n) := by
    intro b
    unfold move_aside
    split
    · exact calls_bind calls_terminate fun _ => calls_rename hlive hcopy
    · exact calls_pure _
  refine calls_bind (calls_ofExcept _) fun refused => ?_
  split
  · exact calls_raise _
  split
  · exact calls_raise _
  split
  · exact calls_bind calls_terminate fun _ => calls_bind (calls_drop_database hlive) fun _ =>
      calls_bind calls_terminate fun _ => calls_rename htemp hlive
  refine calls_bind (calls_drop_if_exists hcopy) fun _ => ?_
  refine calls_bind calls_exists fun b => ?_
  refine calls_bind (haside b) fun _ => ?_
  refine calls_bind (hpromote b) fun _ => ?_
  split
  · exact calls_drop_if_exists hcopy
  · exact calls_pure _

/-! ## The services -/

variable {host : Host} {cfg : ConfigFields} {e src : EnvironmentConfig}
  {environment backup source : String}

theorem calls_onDatabase {p : SwapM α} (h : p.Calls (Spares n)) :
    (onDatabase p).Calls (SparesIn n) := calls_left (calls_mapError h)

theorem calls_onFiles (p : FileM α) : (onFiles p).Calls (SparesIn n) :=
  calls_right (calls_all (fun _ => trivial) _)

theorem spares_step (c : ServiceStep) : SparesIn n (.inr (.inr c)) := trivial

theorem calls_restore_filestore {archive : String} :
    (restore_filestore host cfg environment e archive).Calls (SparesIn n) := by
  unfold restore_filestore
  split
  · exact calls_bind (calls_ofExcept _) fun _ => calls_onFiles _
  · exact calls_onFiles _

theorem calls_copy_filestore :
    (copy_filestore host cfg environment src e).Calls (SparesIn n) := by
  unfold copy_filestore
  split
  · exact calls_bind (calls_ofExcept _) fun _ => calls_onFiles _
  · exact calls_onFiles _

/-- The name is not the environment's temporary one. -/
theorem spares_staging (h : n ≠ serverName (temp_name cfg e)) :
    Staging host cfg environment e (SparesIn n) := by
  constructor
  · exact fun _ => calls_onDatabase (calls_restore h)
  · exact fun _ => calls_onDatabase (calls_drop_create h)
  · exact fun _ => calls_restore_filestore

/-- Neither the live name of the environment nor its temporary or set-aside one. -/
structure Foreign (cfg : ConfigFields) (e : EnvironmentConfig) (n : DbName) : Prop where
  live : n ≠ live e.db_name
  temp : n ≠ serverName (temp_name cfg e)
  copy : n ≠ copy e.db_name

theorem Foreign.swapping (h : Foreign cfg e n) (name : String)
    (guard : Option (String → Except SwapError Bool)) :
    (onDatabase (swap_temp_database postgresHooks (temp_name cfg e) e.db_name name guard)).Calls
      (SparesIn n) := calls_onDatabase (calls_swap h.live h.temp h.copy)

/-! ## Runs -/

/-- The database server may fail in any way; whatever else is called leaves it alone. -/
def server : World Services Catalog
  | .inl o, c, r, d => faulty o c r d
  | .inr _, c, _, d => d = c

theorem run_spares {p q : ServiceM α} {c d : Catalog} (h : p.Calls (SparesIn n))
    (hrun : Steps server c p d q) : d n = c n := by
  refine run_preserves (f := fun c : Catalog => c n) (calls_mono h ?_) hrun
  rintro (o | o) hspares c r d hw
  · rcases hw.2 with rfl | haffects
    · rfl
    · exact hspares c d haffects
  · exact congrFun (show d = c from hw) n

variable (host : Host) (cfg : OdooCtlConfig)

/-- A run that serves `p` does not change what bears the name. -/
def Kept (p : ServiceM Unit) (n : DbName) : Prop :=
  ∀ c d q, Steps server c p d q → d n = c n

/-- No run of a restore or clone, finished or cut short, drops or renames the live database
of another environment, or its own before the swap. -/
structure Harmless : Prop where
  others : ∀ p ∈ cfg.environments, ∀ q ∈ cfg.environments, p ≠ q →
    (∀ backup, Kept (run_restore host cfg.toConfigFields p.1 backup) (live q.2.db_name)) ∧
    (∀ source backup, Kept (restore_to_env host cfg.toConfigFields source p.1 backup)
      (live q.2.db_name)) ∧
    ∀ source sanitize preview,
      Kept (run_clone host cfg.toConfigFields source p.1 sanitize preview) (live q.2.db_name)
  own : ∀ p ∈ cfg.environments,
    (∀ backup, Kept (prepare_restore host cfg.toConfigFields p.1 p.2 backup)
      (live p.2.db_name)) ∧
    (∀ source b backup, Kept (prepare_restore_to_env host cfg.toConfigFields source p.1 p.2 b
      backup) (live p.2.db_name)) ∧
    ∀ src b, Kept (prepare_clone host cfg.toConfigFields p.1 src p.2 b) (live p.2.db_name)

variable {cfg}

theorem separate_foreign (h : Separate cfg) {p q : String × EnvironmentConfig}
    (hp : p ∈ cfg.environments) (hq : q ∈ cfg.environments) (hne : p ≠ q) :
    Foreign cfg.toConfigFields p.2 (SwapTempDatabase.live q.2.db_name) := by
  have hlive : SwapTempDatabase.live q.2.db_name ∈ names cfg q.2 := List.mem_cons_self
  have hfar := fun m hm => Ne.symm (h.others p hp q hq hne m hm _ hlive)
  constructor
  · exact hfar _ (by simp [names])
  · exact hfar _ (by simp [names])
  · exact hfar _ (by simp [names])

theorem separate_live_ne_temp (h : Separate cfg) {p : String × EnvironmentConfig}
    (hp : p ∈ cfg.environments) :
    SwapTempDatabase.live p.2.db_name ≠ serverName (temp_name cfg.toConfigFields p.2) := by
  have hown := h.own p hp
  simp only [names, List.nodup_cons, List.mem_cons, not_or] at hown
  exact hown.1.1

theorem separate_harmless (h : Separate cfg) : Harmless host cfg := by
  constructor
  · intro p hp q hq hne
    have hfind := cfg.find_of_mem hp
    have hforeign := separate_foreign h hp hq hne
    refine ⟨?_, ?_, ?_⟩
    · intro backup c d r hrun
      exact run_spares (calls_run_restore spares_step hfind (spares_staging hforeign.temp)
        (hforeign.swapping _)) hrun
    · intro source backup c d r hrun
      exact run_spares (calls_restore_to_env spares_step hfind (spares_staging hforeign.temp)
        (hforeign.swapping _)) hrun
    · intro source sanitize preview c d r hrun
      exact run_spares (calls_run_clone spares_step hfind (spares_staging hforeign.temp)
        (fun _ _ _ _ => calls_copy_filestore) (hforeign.swapping _)) hrun
  · intro p hp
    have hne := separate_live_ne_temp h hp
    refine ⟨?_, ?_, ?_⟩
    · intro backup c d r hrun
      exact run_spares (calls_prepare_restore spares_step (spares_staging hne)) hrun
    · intro source b backup c d r hrun
      exact run_spares (calls_prepare_restore_to_env spares_step (spares_staging hne)) hrun
    · intro src b c d r hrun
      exact run_spares (calls_prepare_clone spares_step (spares_staging hne)
        fun _ _ _ => calls_copy_filestore) hrun

/-- Databases of different environments never collide exactly where the names fit. -/
theorem databases_isolated_iff : Separate cfg ∧ Harmless host cfg ↔ Fits cfg := by
  constructor
  · rintro ⟨h, -⟩
    exact separate_iff.mp h
  · intro h
    have hs := separate_iff.mpr h
    exact ⟨hs, separate_harmless host hs⟩

/-! ## A configuration whose names collide -/

def exampleHost : Host where
  project_root := .parse "/srv/acme"
  cwd := .parse "/srv/acme"
  expanduser := id
  real := PosixPath.parts

def staging : EnvironmentConfig where
  branch := "staging"
  domain := "staging.example.com"
  db_name := "odoo"
  filestore_path := "filestore/odoo"
  db_name_safe := odoo_safe
  filestore_volume_safe := no_volume_safe
  filestore_path_safe := odoo_path_safe

/-- Its live database has the name that a swap of `odoo` sets `odoo` aside under. -/
def production : EnvironmentConfig where
  branch := "main"
  domain := "example.com"
  db_name := "odoo__old_swap"
  filestore_path := "filestore/odoo__old_swap"
  db_name_safe := by decide +kernel
  filestore_volume_safe := no_volume_safe
  filestore_path_safe := by decide +kernel

def collidingConfig : OdooCtlConfig where
  environments := [("production", production), ("staging", staging)]
  names_distinct := by decide
  names_safe := by decide +kernel
  suffix_safe := default_suffix_safe
  graph_valid := by decide +kernel

def exampleReply : (c : FileCall) → c.Answer
  | .archive_exists _ => true
  | .archive_root_name _ => "odoo"
  | .exists_ _ => true
  | .make_temp_dir _ _ => ⟨"abcdefgh".toList, rfl, rfl⟩
  | .children _ => []
  | .validate_tar_members _ => ()
  | .ensure_dir _ => ()
  | .extract _ _ => ()
  | .remove_tree _ => ()
  | .move _ _ => ()
  | .copy_tree _ _ => ()

def exampleStep : (c : ServiceStep) → c.Answer
  | .resolve_backup_dir _ _ => "/srv/acme/backups/staging_1"
  | .missing_env_vars => []
  | .ps => "odoo running"
  | .validate_backup_dir _ _ => ()
  | .check_sanitization_sql_files => ()
  | .probe_native_neutralization _ => ()
  | .neutralize_database _ _ => ()
  | .dump _ => ()
  | .unlink_dump => ()
  | .pipe_dump _ _ => ()
  | .validate_runtime_definition => ()
  | .update_modules _ => ()
  | .restart => ()
  | .check_url _ => ()
  | .save_sanitization _ _ => ()
  | .save_clone_manifest _ _ => ()
  | .start_operation _ => ()
  | .emit _ => ()
  | .write_config_without _ => ()

/-- Nothing fails. -/
def serveAll : (o : Services.Op) → Catalog → Services.Reply o × Catalog
  | .inl o, c => serve restoredOid o c
  | .inr (.inl o), c => (.ok (exampleReply o), c)
  | .inr (.inr o), c => (.ok (exampleStep o), c)

theorem serveAll_server (o : Services.Op) (c : Catalog) :
    server o c (serveAll o c).1 (serveAll o c).2 := by
  rcases o with o | o | o
  · exact serve_faulty restoredOid o c
  · rfl
  · rfl

def productionOid : Oid := ⟨16500, by decide, by decide⟩

def bothLive : Catalog := fun n =>
  if n = "odoo" then some liveOid
  else if n = "odoo__old_swap" then some productionOid
  else none

def restored : Catalog :=
  ((run_restore exampleHost collidingConfig.toConfigFields "staging" "latest").run serveAll
    bothLive).2

theorem restore_drops_other_live_database :
    ¬ Separate collidingConfig ∧ ¬ Harmless exampleHost collidingConfig := by
  have hs : ("staging", staging) ∈ collidingConfig.environments := by simp [collidingConfig]
  have hp : ("production", production) ∈ collidingConfig.environments := by
    simp [collidingConfig]
  have hne : ("staging", staging) ≠ ("production", production) := by
    intro h
    exact absurd (congrArg Prod.fst h) (by decide)
  constructor
  · intro h
    have hfits := separate_iff.mp h
    exact hfits.unclaimed _ hs _ hp (by decide)
  · intro h
    have hrun := ends_run serveAll_server
      (run_restore exampleHost collidingConfig.toConfigFields "staging" "latest") bothLive
    have hkept : restored (SwapTempDatabase.live "odoo__old_swap") =
        bothLive (SwapTempDatabase.live "odoo__old_swap") :=
      (h.others _ hs _ hp hne).1 "latest" _ _ _ hrun
    have hlost : restored (SwapTempDatabase.live "odoo__old_swap") = none := by decide +kernel
    have hlive : bothLive (SwapTempDatabase.live "odoo__old_swap") ≠ none := by decide +kernel
    exact hlive (hkept.symm.trans hlost)

end DatabaseIsolation
