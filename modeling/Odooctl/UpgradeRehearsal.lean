import Odooctl.PostgresCatalog
import Odooctl.ProgramRules

/-!
# Upgrade rehearsals

`rehearse_upgrade` over the database adapters of `adapters/db.py`, and the database server
behind them: the databases under the names that the server reads, with where they come from.
-/
namespace UpgradeRehearsal

open EffectPrograms PostgresCatalog PythonText

/-! ## The calls of a rehearsal -/

structure UpgradeResult where
  ok : Bool
  log_ref : Option String := none
  failed_modules : List String := []
  warnings : List String := []
  installed_after : List String := []
  deriving DecidableEq, Repr

inductive Status where
  | success
  | failed
  deriving DecidableEq, Repr

inductive HealthcheckStatus where
  | passed
  | failed
  | skipped
  deriving DecidableEq, Repr

inductive CleanupStatus where
  | cleaned
  | kept
  | cleanup_failed
  deriving DecidableEq, Repr

/-- The report without its duration. -/
structure RehearsalReport where
  status : Status
  source_env : String
  source_version : String
  target_version : String
  installed_modules : List String
  failed_modules : List String
  warnings : List String
  healthcheck_status : HealthcheckStatus
  log_path : Option String
  cleanup_status : CleanupStatus
  next_actions : List String
  message : Option String := none
  deriving DecidableEq, Repr

/-- The client programs that the adapters run, the two functions of the caller, and the files
of the rehearsal. -/
inductive RehearsalCall where
  | mktemp
  | pg_dump (db_name : DbName) (output : String)
  | terminate_backends (db_name : DbName)
  | dropdb (db_name : DbName)
  | createdb (db_name : DbName)
  | pg_restore (db_name : DbName) (dump_path : String)
  | upgrade_fn (throwaway_db : DbName) (target_version : String)
  | healthcheck_fn (throwaway_db : DbName)
  | drop_statement (db_name : DbName)
  | unlink (path : String)
  | save_report (report_dir : String) (report : RehearsalReport)
  deriving DecidableEq, Repr

def RehearsalCall.Answer : RehearsalCall → Type
  | .mktemp => String
  | .upgrade_fn _ _ => UpgradeResult
  | .healthcheck_fn _ => Bool
  | .save_report _ _ => String
  | _ => Unit

abbrev RehearsalCalls : Interface := ⟨RehearsalCall, fun o => Except String o.Answer⟩

abbrev RehearsalM := Prog RehearsalCalls String

def ask (o : RehearsalCall) : RehearsalM o.Answer := .perform o id

/-! ## The adapters -/

/-- No process takes an argument with a NUL. -/
def command (db_name : DbName) (p : RehearsalM Unit) : RehearsalM Unit :=
  if db_name.toList.contains '\x00' then .raise "embedded null byte" else p

def dump (db_name : DbName) (output : String) : RehearsalM Unit :=
  command db_name (ask (.pg_dump db_name output))

def terminate_connections (db_name : DbName) : RehearsalM Unit :=
  command db_name (ask (.terminate_backends db_name))

def dropdb (db_name : DbName) : RehearsalM Unit := command db_name (ask (.dropdb db_name))

def create (db_name : DbName) : RehearsalM Unit := command db_name (ask (.createdb db_name))

def restore_into (db_name : DbName) (dump_path : String) : RehearsalM Unit :=
  command db_name (ask (.pg_restore db_name dump_path))

def drop_database (db_name : DbName) : RehearsalM Unit :=
  command db_name (ask (.drop_statement db_name))

inductive DbAdapter where
  | host
  | docker
  deriving DecidableEq, Repr

/-- The adapter of the host leaves the connections of the database alone. -/
def drop_create : DbAdapter → DbName → RehearsalM Unit
  | .host, db_name => do
    dropdb db_name
    create db_name
  | .docker, db_name => do
    terminate_connections db_name
    dropdb db_name
    create db_name

def restore (adapter : DbAdapter) (db_name : DbName) (dump_path : String) : RehearsalM Unit := do
  drop_create adapter db_name
  restore_into db_name dump_path

def drop (db_name : DbName) : RehearsalM Unit := do
  terminate_connections db_name
  drop_database db_name

/-! ## The rehearsal -/

structure Rehearsal where
  source_env : String
  source_version : String
  target_version : String
  source_db : DbName
  report_dir : Option String := none
  keep : Bool := false
  throwaway_suffix : String := "_mig_rehearsal"
  requires_openupgrade : Bool := false
  use_openupgrade : Bool := false

def Rehearsal.throwaway_db (request : Rehearsal) : DbName :=
  request.source_db ++ request.throwaway_suffix

/-- What the `try` block of a rehearsal has assigned so far. -/
structure Progress where
  status : Status := .failed
  message : Option String := none
  failed_modules : List String := []
  warnings : List String := []
  installed_modules : List String := []
  healthcheck_status : HealthcheckStatus := .skipped
  log_path : Option String := none
  tmp_dump : Option String := none

def build_next_actions (status : Status) (failed_modules warnings : List String)
    (target_version : String) : List String :=
  match status with
  | .success =>
    ["Review the full migration report for warnings before scheduling the production upgrade.",
      s!"Schedule a maintenance window for the production upgrade to {target_version}.",
      "Take a fresh production backup immediately before the production upgrade."]
  | .failed =>
    (if failed_modules = [] then []
      else
        let shown := String.intercalate ", " (failed_modules.take 5)
        let failed_str := if failed_modules.length > 5 then
          s!"{shown} (and {failed_modules.length - 5} more)" else shown
        [s!"Investigate failed modules: {failed_str}.",
          "Check OpenUpgrade migration scripts for each failed module."]) ++
      (if warnings = [] then []
        else ["Address scan warnings and re-run: odooctl migrate rehearse."]) ++
      ["Fix the issues above, then re-run: odooctl migrate rehearse."]

variable (adapter : DbAdapter) (request : Rehearsal)

def clone_source (tmp_dump : String) : RehearsalM Unit := do
  dump request.source_db tmp_dump
  restore adapter request.throwaway_db tmp_dump

/-- The healthcheck of an upgraded copy. -/
def check_health (progress : Progress) : RehearsalM Progress := do
  let checked ← (ask (.healthcheck_fn request.throwaway_db)).attempt
  match checked with
  | .error e => .pure { progress with message := some e }
  | .ok true => .pure { progress with healthcheck_status := .passed, status := .success }
  | .ok false =>
    .pure { progress with
      healthcheck_status := .failed, message := some "Healthcheck failed after upgrade." }

def try_upgrade (progress : Progress) : RehearsalM Progress := do
  let upgraded ← (ask (.upgrade_fn request.throwaway_db request.target_version)).attempt
  match upgraded with
  | .error e => .pure { progress with message := some e }
  | .ok (result : UpgradeResult) =>
    let progress := { progress with
      log_path := result.log_ref
      failed_modules := result.failed_modules
      warnings := result.warnings
      installed_modules := result.installed_after }
    if result.ok then check_health request progress
    else
      .pure { progress with message := some "Upgrade command failed; see log_path for details." }

/-- The `try` block with its handler. -/
def try_rehearsal : RehearsalM Progress := do
  let created ← (ask .mktemp).attempt
  match created with
  | .error e => .pure { message := some e }
  | .ok path => do
    let cloned ← (clone_source adapter request path).attempt
    match cloned with
    | .error e => .pure { tmp_dump := some path, message := some e }
    | .ok _ => try_upgrade request { tmp_dump := some path }

def unlink_dump : Option String → RehearsalM Unit
  | none => .pure ()
  | some path => ask (.unlink path)

def drop_throwaway : RehearsalM CleanupStatus :=
  if request.keep then .pure .kept
  else do
    let dropped ← (drop request.throwaway_db).attempt
    match dropped with
    | .error _ => .pure .cleanup_failed
    | .ok _ => .pure .cleaned

/-- `_save_report_to_dir`; the file is the log of a report without one. -/
def save_report_to_dir (report : RehearsalReport) : RehearsalM RehearsalReport :=
  match request.report_dir with
  | none => .pure report
  | some dir => do
    let report_file ← ask (.save_report dir report)
    .pure { report with log_path := report.log_path.orElse fun _ => some report_file }

def report_of (progress : Progress) (cleanup_status : CleanupStatus) : RehearsalReport where
  status := progress.status
  source_env := request.source_env
  source_version := request.source_version
  target_version := request.target_version
  installed_modules := progress.installed_modules
  failed_modules := progress.failed_modules
  warnings := progress.warnings
  healthcheck_status := progress.healthcheck_status
  log_path := progress.log_path
  cleanup_status := cleanup_status
  next_actions := build_next_actions progress.status progress.failed_modules progress.warnings
    request.target_version
  message := progress.message

/-- The report of a path that needs OpenUpgrade where it was not asked for. -/
def openupgrade_report : RehearsalReport where
  status := .failed
  source_env := request.source_env
  source_version := request.source_version
  target_version := request.target_version
  installed_modules := []
  failed_modules := []
  warnings := []
  healthcheck_status := .skipped
  log_path := none
  cleanup_status := .cleaned
  next_actions :=
    [s!"Re-run: odooctl migrate rehearse --env {request.source_env} --to {request.target_version} --openupgrade",
      "Ensure the OpenUpgrade container is set up per docs/migration.md."]
  message := some s!"Upgrade path {request.source_version} → {request.target_version} requires OpenUpgrade. Re-run with --openupgrade (and ensure the OpenUpgrade container is set up)."

/-- The `try` statement with its `finally`, and the report. -/
def rehearse_on_copy : RehearsalM RehearsalReport := do
  let progress ← try_rehearsal adapter request
  unlink_dump progress.tmp_dump
  let cleanup_status ← drop_throwaway request
  save_report_to_dir request (report_of request progress cleanup_status)

def rehearse_upgrade : RehearsalM RehearsalReport :=
  if request.throwaway_db = request.source_db then
    .raise s!"Throwaway DB name {quoted request.throwaway_db} must differ from source DB {quoted request.source_db}; use a non-empty throwaway_suffix."
  else if request.requires_openupgrade ∧ ¬ request.use_openupgrade then
    save_report_to_dir request (openupgrade_report request)
  else rehearse_on_copy adapter request

/-! ## The server -/

/-- A database: what a dump of it shows, the source and the suffix of the rehearsal that
created it, and whether it is a template. -/
structure Database where
  content : String
  rehearsal_of : Option (DbName × String) := none
  is_template : Bool := false
  deriving DecidableEq, Repr

abbrev Server := DbName → Option Database

def Droppable (s : Server) (n : DbName) : Prop :=
  ∀ db, s n = some db → db.is_template = false

/-- What a call does when it takes effect. `conninfo` is the database that a client program
connects to for a `-d` argument: one with `=` is a connection string. -/
def Effect (conninfo : String → Option DbName) : RehearsalCall → Server → Server → Prop
  | .pg_dump n _, s, t => t = s ∧ ∃ m, conninfo n = some m ∧ s m ≠ none
  | .dropdb n, s, t => Droppable s (serverName n) ∧ t = Function.update s (serverName n) none
  | .drop_statement n, s, t =>
      Droppable s (serverName n) ∧ t = Function.update s (serverName n) none
  | .createdb n, s, t => s (serverName n) = none ∧ ∃ content, t = Function.update s (serverName n)
      (some ⟨content, some (request.source_db, request.throwaway_suffix), false⟩)
  | .pg_restore n _, s, t => ∃ m db content, conninfo n = some m ∧ s m = some db ∧
      t = Function.update s m (some { db with content := content })
  | .upgrade_fn n _, s, t => ∀ m, m ≠ serverName n → t m = s m
  | _, s, t => t = s

/-- Every call may fail, after its effect or without one. -/
def serverWorld (conninfo : String → Option DbName) : World RehearsalCalls Server :=
  fun o s r t => Effect request conninfo o s t ∨ (∃ e, r = .error e) ∧ t = s

end UpgradeRehearsal
