import Odooctl.FilestoreIsolation
import Odooctl.ProgramRules

/-!
# Removing an environment

`env destroy` of `commands/env.py` with the validation of what is left of the configuration
file, which `EnvironmentServices.destroy_env` has in its last step. The purge comes before
that validation.
-/
namespace EnvironmentRemoval

open EffectPrograms ProgramRules PostgresCatalog DatabaseCutover ProjectConfiguration
open FilestoreAdapters EnvironmentServices DatabaseNames FilestoreIsolation
open DatabaseIsolation (SparesIn Spares)

/-- The file that the command edits, without its local overlay: the names of its environments,
and what the validators of the fields make of it without one of them. -/
structure ConfigFile where
  environments : List String
  without : String → Except String ConfigFields

/-- A file without overlay, which holds what was loaded. -/
def ConfigFile.of (cfg : ConfigFields) : ConfigFile where
  environments := cfg.environments.map Prod.fst
  without := fun name =>
    .ok { cfg with environments := cfg.environments.filter fun p => p.1 ≠ name }

/-- `OdooCtlConfig.model_validate(updated)`. -/
def model_validate (file : ConfigFile) (name : String) : Except String Unit := do
  let fields ← file.without name
  must_have_environments fields.environments
  validate_environment_graph fields

/-- `make_filestore_adapter`: the volume is that of the first environment equal to the given
one, which is the environment itself. -/
def make_filestore_adapter (cfg : ConfigFields) (name : String) (e : EnvironmentConfig) :
    Except String (Option RuntimeVolumeFilestore) :=
  match e.filestore_volume with
  | some _ => (runtime_volume cfg name).map some
  | none => .ok none

def delete_with (host : Host) (e : EnvironmentConfig) :
    Option RuntimeVolumeFilestore → ServiceM Unit
  | some fs => onFiles (fs.delete (PosixPath.parse e.filestore_path).name)
  | none => onFiles (FilestoreAdapter.delete (host.as_given e.filestore_path))

variable (host : Host) (cfg : ConfigFields) (file : ConfigFile)

def purge_environment (name : String) (e : EnvironmentConfig) : ServiceM Unit := do
  step (.start_operation name)
  step (.emit s!"purging environment {name}")
  let fs ← orRaise (make_filestore_adapter cfg name e)
  onDatabase (drop e.db_name)
  delete_with host e fs
  step (.emit s!"environment {name} purged")

def purge_if (purge : Bool) (name : String) (e : EnvironmentConfig) : ServiceM Unit :=
  if purge then purge_environment host cfg name e else .pure ()

def destroy_env (name : String) (purge yes : Bool) : ServiceM Unit := do
  if name ∉ file.environments then fails s!"Unknown environment: {name}"
  else
  if ← orRaise (is_protected cfg name) then
    fails s!"Refusing to destroy protected environment '{name}'"
  else if yes = false then fails "Pass --yes to confirm environment removal"
  else
  let e ← orRaise (env cfg name)
  purge_if host cfg purge name e
  orRaise (model_validate file name)
  step (.write_config_without name)

/-! ## A removal that fails its validation -/

/-- Any operation may reply anything. -/
def anyReply : World Services Unit := fun _ _ _ _ => True

/-- The operation leaves the database and the filestore of the environment alone. -/
def Keeps (host : Host) (cfg : OdooCtlConfig) (p : String × EnvironmentConfig) (o : Services.Op) :
    Prop :=
  SparesIn (SwapTempDatabase.live p.2.db_name) o ∧
    ∀ home, filestore_home host cfg p = .ok home → AvoidsIn home o

/-- No run that ends with the rejection of what is left has called an operation on the
database or the filestore. -/
def Atomic (host : Host) (cfg : OdooCtlConfig) (file : ConfigFile)
    (p : String × EnvironmentConfig) (purge yes : Bool) : Prop :=
  ∀ e log, model_validate file p.1 = .error e →
    Ends anyReply.logged ((), [])
      (destroy_env host cfg.toConfigFields file p.1 purge yes) (.error (.raised e)) ((), log) →
    ∀ o ∈ log, Keeps host cfg p o

section Removal

variable {host : Host} {cfg : OdooCtlConfig} {file : ConfigFile}
  {p : String × EnvironmentConfig} {purge yes : Bool}

theorem keeps_step (c : ServiceStep) : Keeps host cfg p (.inr (.inr c)) :=
  ⟨trivial, fun _ _ => trivial⟩

theorem calls_of_unpurged (h : purge = false ∨ yes = false ∨ p.1 ∉ file.environments ∨
      ∀ fs, make_filestore_adapter cfg.toConfigFields p.1 p.2 ≠ .ok fs)
    (hp : p ∈ cfg.environments) :
    (destroy_env host cfg.toConfigFields file p.1 purge yes).Calls (Keeps host cfg p) := by
  rw [destroy_env]
  by_cases hfile : p.1 ∉ file.environments
  · rw [if_pos hfile]
    exact calls_raise _
  rw [if_neg hfile]
  apply calls_orRaise_bind
  intro refused _
  apply calls_ite (calls_raise _)
  by_cases hyes : yes = false
  · rw [if_pos hyes]
    exact calls_raise _
  rw [if_neg hyes]
  apply calls_orRaise_bind
  intro e he
  obtain rfl : p.2 = e := Except.ok.inj ((env_of_mem hp).symm.trans he)
  have hrest : (do
      orRaise (model_validate file p.1)
      step (.write_config_without p.1) : ServiceM Unit).Calls (Keeps host cfg p) :=
    calls_orRaise_bind fun _ _ => calls_step keeps_step _
  apply calls_bind _ fun _ => hrest
  rw [purge_if]
  cases purge with
  | false => exact calls_pure _
  | true =>
    rcases h with h | h | h | h
    · cases h
    · exact absurd h hyes
    · exact absurd h hfile
    · apply calls_bind (calls_step keeps_step _)
      intro _
      apply calls_bind (calls_step keeps_step _)
      intro _
      exact calls_orRaise_bind fun fs hfs => absurd hfs (h fs)

/-! ### A run in which every operation succeeds -/

theorem ends_call {α : Type} {o : Services.Op} {k : Services.Reply o → ServiceM α}
    {r : Except ServiceError α} {l m : List Services.Op} (reply : Services.Reply o)
    (h : Ends anyReply.logged ((), l ++ [o]) (k reply) r ((), m)) :
    Ends anyReply.logged ((), l) (.call o k) r ((), m) := Steps.call ⟨trivial, rfl⟩ h

theorem ends_step {c : ServiceStep} {l : List Services.Op} (a : c.Answer) :
    Ends anyReply.logged ((), l) (step c) (.ok a) ((), l ++ [.inr (.inr c)]) :=
  @ends_call _ (.inr (.inr c)) _ _ _ _ (Except.ok a : Except String c.Answer) (.refl _ _)

theorem ends_orRaise {α : Type} {r : Except String α} {a : α} {l : List Services.Op}
    (h : r = .ok a) : Ends anyReply.logged ((), l) (orRaise r) (.ok a) ((), l) := by
  rw [h]
  exact .refl _ _

theorem ends_drop {e : EnvironmentConfig} {l : List Services.Op} :
    Ends anyReply.logged ((), l) (onDatabase (drop e.db_name)) (.ok ())
      ((), l ++ [.inl (.psql "postgres" (.terminateConnections e.db_name))] ++
        [.inl (.psql "postgres" (.dropDatabase e.db_name))]) := by
  have hquote : quote_identifier e.db_name = .pure () := quote_of_identifier (db_name_chars e)
  rw [drop, drop_database, hquote]
  exact @ends_call _ (.inl (.psql "postgres" (.terminateConnections e.db_name))) _ _ _ _
    (Except.ok () : Except AdapterError Unit)
    (@ends_call _ (.inl (.psql "postgres" (.dropDatabase e.db_name))) _ _ _ _
      (Except.ok () : Except AdapterError Unit) (.refl _ _))

theorem ends_delete {host : Host} {e : EnvironmentConfig} {l : List Services.Op}
    (fs : Option RuntimeVolumeFilestore) :
    ∃ m, Ends anyReply.logged ((), l) (delete_with host e fs) (.ok ()) ((), l ++ m) := by
  cases fs with
  | some fs =>
    exact ⟨_, @ends_call _ (.inr (.inl (.remove_tree (fs.container_filestore_dir
      (PosixPath.parse e.filestore_path).name)))) _ _ _ _ (Except.ok () : Except String Unit)
        (.refl _ _)⟩
  | none =>
    exact ⟨_, @ends_call _ (.inr (.inl (.exists_ (host.as_given e.filestore_path).here))) _ _ _ _
      (Except.ok false : Except String Bool) (.refl _ _)⟩

theorem drop_not_kept : ¬ Keeps host cfg p (.inl (.psql "postgres" (.dropDatabase p.2.db_name))) := by
  intro h
  have hspared := h.1 (fun _ => some DatabaseCutoverSafety.liveOid) _
    (.psql (.drop _ p.2.db_name))
  rw [SwapTempDatabase.live, Catalog.drop_self] at hspared
  cases hspared

theorem ends_purge {fs : Option RuntimeVolumeFilestore}
    (hfs : make_filestore_adapter cfg.toConfigFields p.1 p.2 = .ok fs) :
    ∃ log, .inl (.psql "postgres" (.dropDatabase p.2.db_name)) ∈ log ∧
      Ends anyReply.logged ((), []) (purge_environment host cfg.toConfigFields p.1 p.2) (.ok ())
        ((), log) := by
  let started : List Services.Op := [.inr (.inr (.start_operation p.1)),
    .inr (.inr (.emit s!"purging environment {p.1}"))]
  let dropped : List Services.Op := started ++
    [.inl (.psql "postgres" (.terminateConnections p.2.db_name))] ++
    [.inl (.psql "postgres" (.dropDatabase p.2.db_name))]
  have hdropped : .inl (.psql "postgres" (.dropDatabase p.2.db_name)) ∈ dropped :=
    List.mem_append_right _ (List.mem_singleton.mpr rfl)
  obtain ⟨m, hdeleted⟩ := @ends_delete host p.2 dropped fs
  refine ⟨dropped ++ m ++ [.inr (.inr (.emit s!"environment {p.1} purged"))],
    List.mem_append_left _ (List.mem_append_left _ hdropped), ?_⟩
  rw [purge_environment]
  apply ends_bind (ends_step (c := .start_operation _) ())
  apply ends_bind (ends_step (c := .emit _) ())
  apply ends_bind (ends_orRaise hfs)
  apply ends_bind ends_drop
  apply ends_bind hdeleted
  exact ends_step (c := .emit _) ()

/-- A rejected removal has purged the environment. -/
theorem not_atomic {e : String} {fs : Option RuntimeVolumeFilestore} (hp : p ∈ cfg.environments)
    (hprotected : is_protected cfg.toConfigFields p.1 = .ok false) (hfile : p.1 ∈ file.environments)
    (hfs : make_filestore_adapter cfg.toConfigFields p.1 p.2 = .ok fs)
    (hrejected : model_validate file p.1 = .error e) : ¬ Atomic host cfg file p true true := by
  intro h
  obtain ⟨log, hmem, hpurged⟩ := @ends_purge host cfg p fs hfs
  refine drop_not_kept (h e log hrejected ?_ _ hmem)
  rw [destroy_env, if_neg (not_not.mpr hfile)]
  apply ends_bind (ends_orRaise hprotected)
  apply ends_bind (ends_orRaise (env_of_mem hp))
  apply ends_bind hpurged
  rw [hrejected]
  exact .refl _ _

/-- A removal is atomic with its validation exactly where it is not purged, or not confirmed,
or what is left is accepted, or the command fails before its purge. -/
theorem atomic_iff (host : Host) (cfg : OdooCtlConfig) (file : ConfigFile)
    {p : String × EnvironmentConfig} (purge yes : Bool) (hp : p ∈ cfg.environments)
    (hprotected : is_protected cfg.toConfigFields p.1 = .ok false) :
    Atomic host cfg file p purge yes ↔
      model_validate file p.1 = .ok () ∨ purge = false ∨ yes = false ∨ p.1 ∉ file.environments ∨
        ∀ fs, make_filestore_adapter cfg.toConfigFields p.1 p.2 ≠ .ok fs := by
  constructor
  · intro h
    by_contra hcondition
    simp only [not_or, not_not, not_forall, Bool.not_eq_false] at hcondition
    obtain ⟨hrejected, rfl, rfl, hfile, fs, hfs⟩ := hcondition
    cases hvalid : model_validate file p.1 with
    | ok u => exact hrejected hvalid
    | error e => exact not_atomic hp hprotected hfile hfs hvalid h
  · rintro (hvalid | hearly) e log hrejected hends
    · rw [hvalid] at hrejected
      cases hrejected
    · intro o ho
      rcases logged_calls (calls_of_unpurged hearly hp) hends o ho with hnone | hkept
      · cases hnone
      · exact hkept

end Removal

/-! ## A clone source that is destroyed -/

def main : EnvironmentConfig where
  branch := "main"
  domain := "example.com"
  db_name := "odoo"
  filestore_path := "filestore/odoo"
  db_name_safe := odoo_safe
  filestore_volume_safe := no_volume_safe
  filestore_path_safe := odoo_path_safe

def qa : EnvironmentConfig where
  branch := "qa"
  domain := "qa.example.com"
  db_name := "odoo_qa"
  filestore_path := "filestore/odoo_qa"
  db_name_safe := by decide +kernel
  filestore_volume_safe := no_volume_safe
  filestore_path_safe := by decide +kernel

def staging : EnvironmentConfig where
  branch := "staging"
  domain := "staging.example.com"
  db_name := "odoo_staging"
  filestore_path := "filestore/odoo_staging"
  clone_from := some "qa"
  sanitize := true
  db_name_safe := by decide +kernel
  filestore_volume_safe := no_volume_safe
  filestore_path_safe := by decide +kernel

def shop : OdooCtlConfig where
  environments := [("production", main), ("qa", qa), ("staging", staging)]
  names_distinct := by decide
  names_safe := by decide +kernel
  suffix_safe := default_suffix_safe
  graph_valid := by decide +kernel

theorem qa_mem : ("qa", qa) ∈ shop.environments := by simp [shop]

/-- `staging` is cloned from `qa`. -/
theorem purged_before_rejection :
    is_protected shop.toConfigFields "qa" = .ok false ∧
      (∃ e, model_validate (.of shop.toConfigFields) "qa" = .error e) ∧
      ¬ Atomic DatabaseIsolation.exampleHost shop (.of shop.toConfigFields) ("qa", qa) true true := by
  have hprotected : is_protected shop.toConfigFields "qa" = .ok false := by decide +kernel
  have hnot : (model_validate (.of shop.toConfigFields) "qa").isOk = false := by decide +kernel
  cases hrejected : model_validate (.of shop.toConfigFields) "qa" with
  | ok u =>
    rw [hrejected] at hnot
    cases hnot
  | error e =>
    refine ⟨hprotected, ⟨e, rfl⟩, not_atomic qa_mem hprotected ?_ rfl hrejected⟩
    exact List.mem_map.mpr ⟨_, qa_mem, rfl⟩

theorem unpurged_removal_atomic :
    Atomic DatabaseIsolation.exampleHost shop (.of shop.toConfigFields) ("qa", qa) false true :=
  (atomic_iff DatabaseIsolation.exampleHost shop (.of shop.toConfigFields) false true qa_mem
    (by decide +kernel)).mpr (.inr (.inl rfl))

end EnvironmentRemoval
