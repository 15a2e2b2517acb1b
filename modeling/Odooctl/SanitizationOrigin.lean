import Odooctl.BackupSelection
import Odooctl.CloneProtection

/-!
# What decides on sanitization

`restore_to_env` neutralizes where the environment that its caller names is protected. The
data come from the backup that was selected, which may be another environment's.
-/
namespace SanitizationOrigin

open EffectPrograms PostgresCatalog DatabaseCutover SwapTempDatabase DatabaseNames
open ProjectConfiguration FilestoreAdapters EnvironmentServices BackupSelection PythonJson
open FilestoreIsolation

/-- The backup that is restored, and whether the temporary database was neutralized. -/
structure Restoring where
  backup_dir : Option (List String) := none
  neutralized : Bool := false
  deriving DecidableEq, Repr

variable (host : Host) (cfg : OdooCtlConfig) (b : BackupsRoot) (source target backup : String)

/-- Backups are found in `b`; everything else may reply anything. -/
def overWorld (temp_db : DbName) : World Services Restoring
  | .inr (.inr (.resolve_backup_dir environment backup)), s, (r : Except String String), t =>
    r = (resolve_backup_dir b environment backup).map pathText ∧
      t = { s with backup_dir := (resolve_backup_dir b environment backup).toOption }
  | .inr (.inr (.validate_backup_dir _ environment)), s, (r : Except String Unit), t =>
    (∀ dir, s.backup_dir = some dir →
      r = validate_backup_dir b dir cfg.project_name environment) ∧ t = s
  | .inr (.inr (.neutralize_database x _)), s, (r : Except String Unit), t =>
    t = { s with neutralized := s.neutralized || (r.isOk && x = temp_db) }
  | _, s, _, t => t = s

/-- The temporary database takes the target's name. -/
def Promotes (temp_db target_db : DbName) : Services.Op → Prop
  | .inl (.psql _ (.renameDatabase old new)) => old = temp_db ∧ new = target_db
  | _ => False

def manifest_environment (d : BackupDir) : Option String :=
  match d.manifest with
  | .ok (.dict items) => (get items "environment").bind Json.asStr
  | _ => none

/-- According to its manifest the backup is one of a protected environment. -/
def TakenFromProtected (dir : List String) : Prop :=
  ∃ d name, b.dirs dir = some d ∧ manifest_environment d = some name ∧
    is_protected cfg.toConfigFields name = .ok true

/-- Data of a protected environment were neutralized. -/
def Covered (s : Restoring) : Prop :=
  ∀ dir, s.backup_dir = some dir → TakenFromProtected cfg b dir → s.neutralized = true

/-- Whatever is replied, no data of a protected environment take the target's name before they
were neutralized. -/
def SanitizationFollows : Prop :=
  ∀ e, env cfg.toConfigFields target = .ok e → ∀ s o k,
    Steps (overWorld cfg b (temp_name cfg.toConfigFields e)) {}
      (restore_to_env host cfg.toConfigFields source target backup) s (.call o k) →
      Promotes (temp_name cfg.toConfigFields e) e.db_name o → Covered cfg b s

/-- The caller names an unprotected source, and the backup selected by it is one of a protected
environment. -/
structure Mislabelled (e : EnvironmentConfig) (dir : List String) : Prop where
  target_known : env cfg.toConfigFields target = .ok e
  target_open : is_protected cfg.toConfigFields target = .ok false
  source_open : is_protected cfg.toConfigFields source = .ok false
  selected : resolve_backup_dir b source backup = .ok dir
  valid : validate_backup_dir b dir cfg.project_name none = .ok ()
  taken : TakenFromProtected cfg b dir
  filestore : ∃ home, filestore_home host cfg (target, e) = .ok home

variable {host cfg b source target backup} {temp_db target_db : DbName} {s : Restoring}
  {e : EnvironmentConfig} {dir : List String} {α : Type} {I : Services.Op → Restoring → Prop}

theorem wp_step {c : ServiceStep} {Q : Except ServiceError c.Answer → Restoring → Prop} :
    wp (overWorld cfg b temp_db) I (step c) Q s ↔ I (.inr (.inr c)) s ∧
      ∀ (r : Except String c.Answer) t, overWorld cfg b temp_db (.inr (.inr c)) s r t →
        Q (r.mapError .raised) t := by
  refine and_congr_right' ?_
  constructor
  · intro h r t ht
    cases r with
    | ok a => exact h _ t ht
    | error m => exact h _ t ht
  · intro h r t ht
    have hr := h r t ht
    cases r with
    | ok a => exact hr
    | error m => exact hr

theorem after_pure {f : Unit → ServiceM α} {Q : Except ServiceError α → Restoring → Prop}
    (h : wp (overWorld cfg b temp_db) I (f ()) Q s) :
    wp (overWorld cfg b temp_db) I (Prog.pure () >>= f) Q s := h

/-! ## What leaves the decision alone -/

/-- A call on the server or a filestore that does not give the temporary database the name. -/
def Aside (temp_db target_db : DbName) : Services.Op → Prop
  | .inl (.psql _ (.renameDatabase old new)) => ¬ (old = temp_db ∧ new = target_db)
  | .inl _ => True
  | .inr (.inl _) => True
  | .inr (.inr _) => False

/-- What the property asks of a call. -/
def Guard (cfg : OdooCtlConfig) (b : BackupsRoot) (temp_db target_db : DbName) (o : Services.Op)
    (s : Restoring) : Prop := Promotes temp_db target_db o → Covered cfg b s

theorem Aside.not_promotes {o : Services.Op} (h : Aside temp_db target_db o) :
    ¬ Promotes temp_db target_db o := by
  rcases o with a | o
  · cases a with
    | psql m sql =>
      cases sql with
      | renameDatabase old new => exact h
      | _ => exact id
    | _ => exact id
  · exact id

theorem over_server {a : AdapterCall} {r : Services.Reply (.inl a)} {t : Restoring} :
    overWorld cfg b temp_db (.inl a) s r t ↔ t = s := Iff.rfl

theorem over_files {c : FileCall} {r : Services.Reply (.inr (.inl c))} {t : Restoring} :
    overWorld cfg b temp_db (.inr (.inl c)) s r t ↔ t = s := Iff.rfl

theorem Aside.still {o : Services.Op} (h : Aside temp_db target_db o) {r : Services.Reply o}
    {t : Restoring} : overWorld cfg b temp_db o s r t ↔ t = s := by
  rcases o with a | c | c
  · exact over_server
  · exact over_files
  · exact h.elim

theorem wp_aside {p : ServiceM α} (h : p.Calls (Aside temp_db target_db)) :
    wp (overWorld cfg b temp_db) (Guard cfg b temp_db target_db) p (fun _ t => t = s) s := by
  refine wp_keeps (P := fun t => t = s) h rfl ?_ ?_
  · intro o u ho _ hpromotes
    exact absurd hpromotes ho.not_promotes
  · intro o u r t ho hu ht
    exact (ho.still.mp ht).trans hu

theorem calls_restore_aside {mode : ExecutionMode} :
    (onDatabase (restore mode temp_db)).Calls (Aside temp_db target_db) := by
  have hpsql : ∀ sql, (∀ old new, sql ≠ .renameDatabase old new) →
      (psql "postgres" sql).Calls fun o => Aside temp_db target_db (.inl o) := by
    intro sql hsql
    apply calls_perform.mpr
    cases sql with
    | renameDatabase old new => exact absurd rfl (hsql old new)
    | _ => trivial
  have hcreate : (create temp_db).Calls fun o => Aside temp_db target_db (.inl o) :=
    calls_perform.mpr trivial
  have hdrop := calls_bind (hpsql (.dropDatabase temp_db) (by simp)) fun _ => hcreate
  apply calls_left (calls_mapError (calls_bind _ fun _ => calls_perform.mpr trivial))
  cases mode with
  | docker => exact calls_bind (hpsql (.terminateConnections temp_db) (by simp)) fun _ => hdrop
  | host => exact hdrop

theorem calls_filestore_aside {archive : String} :
    (restore_filestore host cfg.toConfigFields target e archive).Calls
      (Aside temp_db target_db) := by
  have hfiles : ∀ m : FileM Unit, (onFiles m).Calls (Aside temp_db target_db) := fun m =>
    calls_right (calls_left (calls_all (fun _ => trivial) _))
  unfold restore_filestore
  split
  · exact calls_orRaise_bind fun fs _ => hfiles _
  · exact hfiles _

/-! ## Up to the swap -/

/-- Where the restore is prepared, the data may take the name. -/
def Prepared (cfg : OdooCtlConfig) (b : BackupsRoot) (r : Except ServiceError Unit)
    (s : Restoring) : Prop := r = .ok () → Covered cfg b s

theorem Prepared.error {m : ServiceError} : Prepared cfg b (.error m) s := fun h => nomatch h

/-- A step that neither selects a backup nor neutralizes. -/
def Plain : ServiceStep → Prop
  | .resolve_backup_dir _ _ => False
  | .validate_backup_dir _ _ => False
  | .neutralize_database _ _ => False
  | _ => True

theorem wp_plain {c : ServiceStep} (hc : Plain c) {f : c.Answer → ServiceM Unit}
    (h : ∀ a, wp (overWorld cfg b temp_db) (Guard cfg b temp_db target_db) (f a) (Prepared cfg b) s) :
    wp (overWorld cfg b temp_db) (Guard cfg b temp_db target_db) (step c >>= f) (Prepared cfg b) s := by
  rw [wp_bind', wp_step]
  refine ⟨fun hpromotes => hpromotes.elim, ?_⟩
  intro r t ht
  have hstill : t = s := by
    cases c with
    | resolve_backup_dir | validate_backup_dir | neutralize_database => exact hc.elim
    | _ => exact ht
  obtain rfl := hstill
  cases r with
  | ok a => exact h a
  | error m => exact Prepared.error

/-- With sanitization the data are neutralized where the preparation returns. -/
theorem wp_neutralized {archive : String} {mode : ExecutionMode} :
    wp (overWorld cfg b temp_db) (Guard cfg b temp_db target_db) (do
      onDatabase (restore mode temp_db)
      neutralize_if true temp_db target
      restore_filestore host cfg.toConfigFields target e archive) (Prepared cfg b) s := by
  refine wp_bind'.mpr (wp_post (wp_aside calls_restore_aside) ?_)
  rintro (m | u) s rfl
  · exact Prepared.error
  refine wp_bind'.mpr (wp_step.mpr ⟨fun hpromotes => hpromotes.elim, ?_⟩)
  intro r t ht
  cases r with
  | error m => exact Prepared.error
  | ok u =>
  have hneutralized : t.neutralized = true := by
    obtain rfl := ht
    simp [Except.isOk, Except.toBool]
  refine wp_post (wp_aside calls_filestore_aside) ?_
  rintro r t' rfl _ dir _ _
  exact hneutralized

/-- Without it, nothing keeps the data of a protected environment but an error. -/
theorem wp_as_is {archive : String} {mode : ExecutionMode}
    (h : Covered cfg b s ∨ ∀ home, filestore_home host cfg (target, e) ≠ .ok home) :
    wp (overWorld cfg b temp_db) (Guard cfg b temp_db target_db) (do
      onDatabase (restore mode temp_db)
      neutralize_if false temp_db target
      restore_filestore host cfg.toConfigFields target e archive) (Prepared cfg b) s := by
  refine wp_bind'.mpr (wp_post (wp_aside calls_restore_aside) ?_)
  rintro (m | u) s rfl
  · exact Prepared.error
  rcases h with h | hhome
  · refine wp_post (wp_aside calls_filestore_aside) ?_
    rintro r t rfl _
    exact h
  · unfold filestore_home at hhome
    change wp _ _ (restore_filestore host cfg.toConfigFields target e archive) _ _
    unfold restore_filestore
    cases hv : e.filestore_volume with
    | none =>
      simp only [hv] at hhome
      exact absurd rfl (hhome _)
    | some v =>
      simp only [hv] at hhome
      cases hfs : runtime_volume cfg.toConfigFields target with
      | error m => exact Prepared.error
      | ok fs =>
        rw [hfs] at hhome
        exact absurd rfl (hhome _)

theorem wp_prepare {source_is_protected : Bool}
    (h : source_is_protected = true ∨ ∀ dir, resolve_backup_dir b source backup = .ok dir →
      validate_backup_dir b dir cfg.project_name none = .ok () → TakenFromProtected cfg b dir →
      ∀ home, filestore_home host cfg (target, e) ≠ .ok home) :
    wp (overWorld cfg b (temp_name cfg.toConfigFields e))
      (Guard cfg b (temp_name cfg.toConfigFields e) target_db)
      (prepare_restore_to_env host cfg.toConfigFields source target e source_is_protected backup)
      (Prepared cfg b) {} := by
  unfold prepare_restore_to_env
  rw [wp_bind', wp_step]
  refine ⟨fun hpromotes => hpromotes.elim, ?_⟩
  rintro r s ⟨rfl, rfl⟩
  cases hselected : resolve_backup_dir b source backup with
  | error m => exact Prepared.error
  | ok dir =>
  refine wp_bind'.mpr (wp_step.mpr ⟨fun hpromotes => hpromotes.elim, ?_⟩)
  rintro r s ⟨hr, rfl⟩
  obtain rfl := hr dir rfl
  cases hvalid : validate_backup_dir b dir cfg.project_name none with
  | error m => exact Prepared.error
  | ok u =>
  cases source_is_protected with
  | true =>
    apply wp_plain (c := .check_sanitization_sql_files) trivial
    intro _
    split
    · exact Prepared.error
    cases hplace : make_runtime_adapter cfg.toConfigFields target with
    | error m => exact Prepared.error
    | ok place =>
    apply wp_plain (c := .probe_native_neutralization target) trivial
    intro _
    exact wp_neutralized
  | false =>
    simp only [Bool.false_eq_true, if_false]
    apply after_pure
    split
    · exact Prepared.error
    apply after_pure
    apply wp_as_is
    by_cases htaken : TakenFromProtected cfg b dir
    · exact .inr (h.resolve_left Bool.false_ne_true dir hselected hvalid htaken)
    · refine .inl fun dir' hdir' htaken' => ?_
      obtain rfl := Option.some.inj hdir'
      exact absurd htaken' htaken

/-! ## Where sanitization follows the data -/

/-- The swap and what comes after it, from a state in which the data may take the name. -/
theorem wp_finish {temp : DbName} {source_is_protected : Bool} (h : Covered cfg b s) :
    wp (overWorld cfg b temp_db) (Guard cfg b temp_db target_db) (do
      onDatabase (swap_temp_database postgresHooks temp target_db target)
      if source_is_protected then step (.save_sanitization source target) else .pure ()
      step (.check_url target)) (fun _ _ => True) s := by
  let Server : Services.Op → Prop := fun o => ∃ a, o = .inl a
  let Service : Services.Op → Prop := fun o => ∃ c, o = .inr (.inr c)
  have hswap : (onDatabase (swap_temp_database postgresHooks temp target_db target)).Calls Server :=
    calls_left (calls_all (fun a => ⟨a, rfl⟩) _)
  have hstep : ∀ c, (step c).Calls Service := fun c =>
    calls_right (calls_right (calls_perform.mpr ⟨c, rfl⟩))
  have hrest : ∀ t, wp (overWorld cfg b temp_db) (Guard cfg b temp_db target_db) (do
      if source_is_protected then step (.save_sanitization source target) else .pure ()
      step (.check_url target)) (fun _ _ => True) t := by
    intro t
    refine wp_of_calls (D := Service) ?_ ?_ t
    · cases source_is_protected with
      | true => exact calls_bind (hstep _) fun _ => hstep _
      | false => exact calls_bind (calls_pure _) fun _ => hstep _
    · rintro o u ⟨c, rfl⟩ hpromotes
      exact hpromotes.elim
  refine wp_bind'.mpr (wp_post (wp_keeps (P := fun t => t = s) hswap rfl ?_ ?_) ?_)
  · rintro o u - rfl _
    exact h
  · rintro o u r t ⟨a, rfl⟩ rfl ht
    exact over_server.mp ht
  · rintro (m | u) t rfl
    · trivial
    · exact hrest _

theorem sanitization_follows (he : env cfg.toConfigFields target = .ok e)
    (h : ∀ dir, ¬ Mislabelled host cfg b source target backup e dir) :
    wp (overWorld cfg b (temp_name cfg.toConfigFields e))
      (Guard cfg b (temp_name cfg.toConfigFields e) e.db_name)
      (restore_to_env host cfg.toConfigFields source target backup) (fun _ _ => True) {} := by
  unfold restore_to_env
  cases hopen : is_protected cfg.toConfigFields target with
  | error m => trivial
  | ok refused =>
  cases refused with
  | true => trivial
  | false =>
  rw [he]
  cases hsource : is_protected cfg.toConfigFields source with
  | error m => trivial
  | ok source_is_protected =>
  change wp _ _ (ite _ _ _) _ _
  split
  · trivial
  refine wp_bind'.mpr (wp_post (wp_prepare ?_) ?_)
  · cases source_is_protected with
    | true => exact .inl rfl
    | false =>
      refine .inr fun dir hselected hvalid htaken home hhome => ?_
      exact h dir ⟨he, hopen, hsource, hselected, hvalid, htaken, home, hhome⟩
  · rintro (m | ⟨⟩) t ht
    · trivial
    · exact wp_finish (ht rfl)

/-! ## Where it does not -/

theorem mayReturn_exists {x : DbName} (found : Bool) : (database_exists x).MayReturn found :=
  mayReturn_perform (r := .ok found) rfl

/-- A swap renames the temporary database, unless a name cannot be quoted. -/
theorem swap_renames {D : AdapterCall → Prop} {name : String} (hne : temp_db ≠ target_db)
    (htemp : (quote_identifier temp_db).MayReturn ())
    (htarget : (quote_identifier target_db).MayReturn ())
    (h : (swap_temp_database postgresHooks temp_db target_db name).Calls D) :
    D (.psql "postgres" (.renameDatabase temp_db target_db)) := by
  have h₁ := h.rest (a := false) rfl
  rw [if_neg Bool.false_ne_true, if_neg hne, if_neg (by simp [postgresHooks])] at h₁
  have h₂ := h₁.rest (mayReturn_bind (mayReturn_exists false) rfl)
  have h₃ := h₂.rest (mayReturn_exists false)
  have h₄ := (h₃.rest (a := ()) rfl).first
  have h₅ := (h₄.first.of_attempt).rest mayReturn_psql
  exact calls_perform.mp ((h₅.rest htemp).rest htarget)

section Mislabelled

variable {Q : Except ServiceError Unit → Restoring → Prop}

/-- The replies with which an unsanitized restore is prepared. -/
theorem prepare_returns
    (h : Mislabelled host cfg b source target backup e dir)
    (hwp : wp (overWorld cfg b temp_db) I
      (prepare_restore_to_env host cfg.toConfigFields source target e false backup) Q {}) :
    Q (.ok ()) { backup_dir := some dir } := by
  unfold prepare_restore_to_env at hwp
  have hresolve : overWorld cfg b temp_db (.inr (.inr (.resolve_backup_dir source backup))) {}
      (.ok (pathText dir)) { backup_dir := some dir } := by
    simp only [overWorld, h.selected]
    exact ⟨rfl, rfl⟩
  have hvalidate : overWorld cfg b temp_db (.inr (.inr (.validate_backup_dir (pathText dir) none)))
      { backup_dir := some dir } (.ok ()) { backup_dir := some dir } := by
    refine ⟨fun dir' hdir' => ?_, rfl⟩
    obtain rfl := Option.some.inj hdir'
    exact h.valid.symm
  have h₁ := (wp_step.mp (wp_bind'.mp hwp)).2 _ _ hresolve
  have h₂ := (wp_step.mp (wp_bind'.mp h₁)).2 _ _ hvalidate
  have h₃ := wp_bind'.mp h₂
  simp only [Bool.false_eq_true, if_false, wp_pure] at h₃
  rw [if_neg (temp_name_ne_live e)] at h₃
  obtain ⟨home, hhome⟩ := h.filestore
  have hserver : (onDatabase (restore cfg.runtime.execution_mode
      (temp_name cfg.toConfigFields e))).Calls
        fun o => ∀ r, overWorld cfg b temp_db o { backup_dir := some dir } r { backup_dir := some dir } :=
    calls_left (calls_all (fun _ _ => rfl) _)
  have h₄ := wp_bind'.mp h₃
  have h₅ := wp_mayReturn (wp_bind'.mp h₄) hserver (mayReturn_onDatabase mayReturn_restore)
  have h₆ := wp_bind'.mp h₅
  have haside : (restore_filestore host cfg.toConfigFields target e
      (pathText dir ++ "/filestore.tar")).Calls (Aside temp_db e.db_name) := calls_filestore_aside
  refine wp_mayReturn h₆ (calls_mono haside ?_) (mayReturn_restore_filestore hhome)
  intro o ho r
  exact ho.still.mpr rfl

theorem mislabelled_goes_live (h : Mislabelled host cfg b source target backup e dir) :
    ¬ SanitizationFollows host cfg b source target backup := by
  intro hfollows
  let W := overWorld cfg b (temp_name cfg.toConfigFields e)
  have hwp : wp W (Guard cfg b (temp_name cfg.toConfigFields e) e.db_name)
      (restore_to_env host cfg.toConfigFields source target backup) (fun _ _ => True) {} :=
    wp_of_steps (hfollows e h.target_known) fun _ _ _ => trivial
  unfold restore_to_env at hwp
  rw [h.target_open, h.target_known, h.source_open] at hwp
  have hprepare := prepare_returns h (wp_bind'.mp hwp)
  have hcalls := calls_of_wp_still (wp_bind'.mp hprepare)
    (calls_left (calls_all (fun _ _ => rfl) _))
  have hne : temp_name cfg.toConfigFields e ≠ e.db_name := temp_name_ne_live e
  have htarget := mayReturn_quote (quote_of_identifier (db_name_chars e))
  have htemp : (quote_identifier (temp_name cfg.toConfigFields e)).MayReturn () :=
    mayReturn_quote (quote_ending suffix_mem_endings)
  have hrename := swap_renames hne htemp htarget hcalls.of_left.of_mapError
  exact Bool.false_ne_true (hrename ⟨rfl, rfl⟩ dir rfl h.taken)

end Mislabelled

/-- Sanitization follows the data exactly where no backup of a protected environment is
selected under the name of an unprotected one. -/
theorem sanitization_follows_iff (host : Host) (cfg : OdooCtlConfig) (b : BackupsRoot)
    (source target backup : String) :
    SanitizationFollows host cfg b source target backup ↔
      ∀ e dir, ¬ Mislabelled host cfg b source target backup e dir := by
  constructor
  · intro h e dir hmislabelled
    exact mislabelled_goes_live hmislabelled h
  · intro h e he s o k hsteps
    exact wp_issued (sanitization_follows he (h e)) hsteps

/-! ## A backup under another name -/

def mirrorBackup : BackupDir where
  files := ["db.dump", "filestore.tar", "manifest.json"]
  manifest := .ok (.dict [("project", .str "my-odoo-project"), ("environment", .str "mirror"),
    ("backup_id", .str "mirror_1"), ("status", .str "complete"),
    ("checksums", .dict [("db_dump", .str "d0"), ("filestore", .str "f0")])])
  sha256_file name := .ok (if name = "db.dump" then "d0" else "f0")

def exampleBackups : BackupsRoot where
  root := ["srv", "acme", "backups"]
  entries := ["mirror_1"]
  resolve name := .ok ["srv", "acme", "backups", name]
  dirs path := if path = ["srv", "acme", "backups", "mirror_1"] then some mirrorBackup else none

/-- Nothing fails but what `exampleBackups` does not hold; the other steps are noted. -/
def serveSteps (o : Services.Op) (s : Catalog × List ServiceStep) :
    Services.Reply o × Catalog × List ServiceStep :=
  match o with
  | .inl a => ((DatabaseIsolation.serveAll (.inl a) s.1).1,
      (DatabaseIsolation.serveAll (.inl a) s.1).2, s.2)
  | .inr (.inl c) => (.ok (DatabaseIsolation.exampleReply c), s)
  | .inr (.inr (.resolve_backup_dir environment backup)) =>
    ((resolve_backup_dir exampleBackups environment backup).map pathText, s)
  | .inr (.inr (.validate_backup_dir _ environment)) =>
    (validate_backup_dir exampleBackups ["srv", "acme", "backups", "mirror_1"]
      "my-odoo-project" environment, s)
  | .inr (.inr c) => (.ok (DatabaseIsolation.exampleStep c), s.1, s.2 ++ [c])

def unsanitizedRestore : Except ServiceError Unit × Catalog × List ServiceStep :=
  (restore_to_env DatabaseIsolation.exampleHost CloneProtection.mirrorConfig.toConfigFields
    "staging" "staging" "mirror_1").run serveSteps (DatabaseIsolation.bothLive, [])

/-- Data of the protected `mirror` go live as `staging`, and nothing was neutralized. -/
theorem foreign_backup_unsanitized :
    unsanitizedRestore.2.1 "odoo" = some DatabaseCutoverSafety.restoredOid ∧
    (∀ c ∈ unsanitizedRestore.2.2, c ≠ .neutralize_database "odoo_incoming" "staging") ∧
    ¬ SanitizationFollows DatabaseIsolation.exampleHost CloneProtection.mirrorConfig
      exampleBackups "staging" "staging" "mirror_1" := by
  refine ⟨by decide +kernel, by decide +kernel, ?_⟩
  have htaken : TakenFromProtected CloneProtection.mirrorConfig exampleBackups
      ["srv", "acme", "backups", "mirror_1"] := ⟨mirrorBackup, "mirror", rfl, rfl, rfl⟩
  exact mislabelled_goes_live ⟨rfl, rfl, rfl, by decide +kernel, by decide +kernel, htaken, _, rfl⟩

end SanitizationOrigin
