import Odooctl.DatabaseIsolation

/-!
# The filestores of different environments

Which directories an operation on one environment writes, removes or replaces. It leaves
the filestore of another environment alone exactly where the two resolved directories, and
the directories that the operation stages in, do not overlap.
-/
namespace FilestoreIsolation

open EffectPrograms PostgresCatalog DatabaseCutover SwapTempDatabase DatabaseNames
open ProjectConfiguration FilestoreAdapters EnvironmentServices

/-! ## The adapters -/

/-- The operation leaves `home` alone. -/
def Avoids (home : Location) (c : FileCall) : Prop := ¬ c.Touches home

/-- A directory and what is staged beside it do not overlap `home`. -/
structure Clear (target : HostPath) (stem : String) (home : Location) : Prop where
  here : ¬ target.here.Overlaps home
  parent : ¬ target.parent.Within home
  staged : ∀ s : TempSuffix, ¬ home.Within (target.parent.child (s.name stem))

variable {home l : Location} {target source : HostPath} {stem archive name : String} {α : Type}

theorem calls_send {c : FileCall} : (send c).Calls (Avoids home) ↔ Avoids home c := calls_perform

theorem mayReturn_send {c : FileCall} (a : c.Answer) : (send c).MayReturn a :=
  mayReturn_perform (r := .ok a) rfl

theorem Clear.staging (h : Clear target stem home) (s : TempSuffix) :
    ¬ (target.parent.child (s.name stem)).Overlaps home := by
  rintro (hw | hw)
  · rcases Location.child_within.mp hw with hw | rfl
    · exact h.parent hw
    · exact h.staged s (Location.within_refl _)
  · exact h.staged s hw

theorem Clear.calls_withTempDir {body : Location → FileM Unit} (h : Clear target stem home)
    (hbody : ∀ tmpdir, ¬ tmpdir.Overlaps home → (body tmpdir).Calls (Avoids home)) :
    (FilestoreAdapter.withTempDir target.parent stem body).Calls (Avoids home) := by
  refine calls_bind (calls_send.mpr ?_) fun drawn => ?_
  · rintro ⟨s, hs⟩
    exact h.staging s (.inl hs)
  · have hstaging := h.staging drawn
    exact calls_ensuring (hbody _ hstaging) (calls_send.mpr hstaging)

theorem Clear.calls_replace_by (h : Clear target stem home) (hl : ¬ l.Overlaps home) :
    (FilestoreAdapter.replace_by l target.here).Calls (Avoids home) := by
  have hmove : (send (.move l target.here)).Calls (Avoids home) :=
    calls_send.mpr fun ht => ht.elim hl h.here
  refine calls_bind (calls_send.mpr id) fun b => ?_
  split
  · exact calls_bind (calls_send.mpr h.here) fun _ => hmove
  · exact hmove

theorem calls_bind_extracted {f : Location → FileM Unit} (hl : ¬ l.Overlaps home)
    (hf : ∀ x, ¬ x.Overlaps home → (f x).Calls (Avoids home)) :
    (FilestoreAdapter.extracted_dir l name >>= f).Calls (Avoids home) := by
  have hchild : ∀ c, (f (l.child c)).Calls (Avoids home) := fun c =>
    hf _ fun hx => hl (Location.Overlaps.of_child hx)
  unfold FilestoreAdapter.extracted_dir
  refine ⟨id, fun r => ?_⟩
  cases r with
  | error e => trivial
  | ok b =>
    cases b with
    | true => exact hchild _
    | false =>
      refine ⟨id, fun r => ?_⟩
      cases r with
      | error e => trivial
      | ok cs =>
        cases cs with
        | nil => trivial
        | cons c cs =>
          cases cs with
          | nil => exact hchild _
          | cons d ds => trivial

theorem calls_restore_archive (h : Clear target s!".{target.name}.restore-" home) :
    (FilestoreAdapter.restore_archive archive target).Calls (Avoids home) := by
  refine calls_bind (calls_send.mpr id) fun b => ?_
  split
  swap
  · exact calls_raise _
  refine calls_bind (calls_send.mpr id) fun _ => ?_
  refine calls_bind (calls_send.mpr h.parent) fun _ => ?_
  refine h.calls_withTempDir fun tmpdir htmp => ?_
  refine calls_bind (calls_send.mpr htmp) fun _ => ?_
  exact calls_bind_extracted htmp fun x hx => h.calls_replace_by hx

theorem calls_copy (h : Clear target s!".{target.name}.copy-" home) :
    (FilestoreAdapter.copy source target).Calls (Avoids home) := by
  refine calls_bind (calls_send.mpr id) fun b => ?_
  split
  swap
  · exact calls_raise _
  refine calls_bind (calls_send.mpr h.parent) fun _ => ?_
  refine h.calls_withTempDir fun tmpdir htmp => ?_
  have hstaged : ¬ (tmpdir.child target.name).Overlaps home := fun hx =>
    htmp (Location.Overlaps.of_child hx)
  exact calls_bind (calls_send.mpr hstaged) fun _ => h.calls_replace_by hstaged

/-- What calls nothing that touches `home` stages and works clear of it. -/
theorem clear_of_withTempDir {body : Location → FileM Unit}
    (hparent : ¬ target.parent.Within home)
    (h : (FilestoreAdapter.withTempDir target.parent stem body).Calls (Avoids home))
    (hbody : ∀ tmpdir, (body tmpdir).MayReturn () ∧
      ((body tmpdir).Calls (Avoids home) → ¬ target.here.Overlaps home)) :
    Clear target stem home := by
  have hrun : ∀ s : TempSuffix,
      (Prog.ensuring (body (target.parent.child (s.name stem)))
        (send (.remove_tree (target.parent.child (s.name stem))))).Calls (Avoids home) := fun s =>
    h.rest (mayReturn_send (c := .make_temp_dir target.parent stem) s)
  let s₀ : TempSuffix := ⟨"abcdefgh".toList, rfl, rfl⟩
  constructor
  · exact (hbody _).2 (hrun s₀).of_ensuring
  · exact hparent
  · intro s hw
    have hclean := Prog.Calls.rest (hrun s) (mayReturn_attempt (hbody _).1)
    exact calls_send.mp hclean.first (.inr hw)

theorem here_of_replace_by (h : (FilestoreAdapter.replace_by l target.here).Calls (Avoids home)) :
    ¬ target.here.Overlaps home :=
  calls_send.mp (h.rest (mayReturn_send (c := .exists_ target.here) true)).first

theorem mayReturn_replace_by {x : Location} :
    (FilestoreAdapter.replace_by l x).MayReturn () :=
  mayReturn_bind (mayReturn_send (c := .exists_ x) false) (mayReturn_send (c := .move l x) ())

theorem mayReturn_extracted_dir :
    (FilestoreAdapter.extracted_dir l name).MayReturn (l.child name) :=
  mayReturn_bind (mayReturn_send (c := .exists_ (l.child name)) true) rfl

theorem restore_archive_iff :
    (FilestoreAdapter.restore_archive archive target).Calls (Avoids home) ↔
      Clear target s!".{target.name}.restore-" home := by
  constructor
  · intro h
    have h₁ := h.rest (mayReturn_send (c := .archive_exists _) true)
    have h₂ := h₁.rest (mayReturn_send (c := .validate_tar_members _) ())
    have h₃ := h₂.rest (mayReturn_send (c := .ensure_dir _) ())
    refine clear_of_withTempDir (calls_send.mp h₂.first) h₃ fun tmpdir => ⟨?_, fun hbody => ?_⟩
    · exact mayReturn_bind (mayReturn_send (c := .extract _ _) ())
        (mayReturn_bind mayReturn_extracted_dir mayReturn_replace_by)
    · have h₄ := hbody.rest (mayReturn_send (c := .extract _ _) ())
      exact here_of_replace_by (h₄.rest mayReturn_extracted_dir)
  · exact calls_restore_archive

theorem copy_iff :
    (FilestoreAdapter.copy source target).Calls (Avoids home) ↔
      Clear target s!".{target.name}.copy-" home := by
  constructor
  · intro h
    have h₁ := h.rest (mayReturn_send (c := .exists_ _) true)
    have h₂ := h₁.rest (mayReturn_send (c := .ensure_dir _) ())
    refine clear_of_withTempDir (calls_send.mp h₁.first) h₂ fun tmpdir => ⟨?_, fun hbody => ?_⟩
    · exact mayReturn_bind (mayReturn_send (c := .copy_tree _ _) ()) mayReturn_replace_by
    · exact here_of_replace_by (hbody.rest (mayReturn_send (c := .copy_tree _ _) ()))
  · exact calls_copy

theorem delete_iff : (FilestoreAdapter.delete target).Calls (Avoids home) ↔
    ¬ target.here.Overlaps home := by
  constructor
  · intro h
    exact calls_send.mp (h.rest (mayReturn_send (c := .exists_ _) true))
  · intro h
    refine calls_bind (calls_send.mpr id) fun b => ?_
    split
    · exact calls_send.mpr h
    · exact calls_pure _

/-! ### In a volume -/

variable {fs : RuntimeVolumeFilestore} {n : String}

/-- Three directories that every program on a volume works in. -/
structure VolumeClear (fs : RuntimeVolumeFilestore) (name : String) (home : Location) : Prop where
  parent : ¬ fs.parent.Within home
  here : ¬ (fs.container_filestore_dir name).Overlaps home
  stage : ¬ (fs.stage name).Overlaps home

theorem calls_volume_restore (h : VolumeClear fs name home) :
    (fs.restore_archive archive name).Calls (Avoids home) := by
  refine calls_bind (calls_send.mpr id) fun b => ?_
  split
  swap
  · exact calls_raise _
  refine calls_bind (calls_send.mpr id) fun _ => calls_bind (calls_send.mpr id) fun root => ?_
  refine calls_bind (calls_send.mpr h.parent) fun _ => ?_
  refine calls_bind (calls_send.mpr h.stage) fun _ => ?_
  refine calls_bind (calls_send.mpr fun hw => h.stage (.inl hw)) fun _ => ?_
  refine calls_ensuring ?_ (calls_send.mpr h.stage)
  refine calls_bind (calls_send.mpr h.stage) fun _ => ?_
  refine calls_bind (calls_send.mpr h.here) fun _ => calls_send.mpr ?_
  rintro (hw | hw)
  · exact h.stage (Location.Overlaps.of_child hw)
  · exact h.here hw

theorem volume_restore_iff (hparent : ¬ fs.parent.Within home) :
    (fs.restore_archive archive name).Calls (Avoids home) ↔ VolumeClear fs name home := by
  constructor
  · intro h
    have h₁ := h.rest (mayReturn_send (c := .archive_exists _) true)
    have h₂ := h₁.rest (mayReturn_send (c := .validate_tar_members _) ())
    have h₃ := h₂.rest (mayReturn_send (c := .archive_root_name _) "odoo")
    have h₄ := h₃.rest (mayReturn_send (c := .ensure_dir _) ())
    have h₅ := h₄.rest (mayReturn_send (c := .remove_tree _) ())
    have h₆ := (h₅.rest (mayReturn_send (c := .ensure_dir _) ())).of_ensuring
    have h₇ := h₆.rest (mayReturn_send (c := .extract _ _) ())
    exact ⟨hparent, calls_send.mp h₇.first, calls_send.mp h₄.first⟩
  · exact calls_volume_restore

theorem volume_copy_iff {source : String} (hparent : ¬ fs.parent.Within home) :
    (fs.copy source name).Calls (Avoids home) ↔
      ¬ (fs.container_filestore_dir name).Overlaps home := by
  constructor
  · intro h
    exact calls_send.mp (h.rest (mayReturn_send (c := .ensure_dir _) ())).first
  · intro h
    exact calls_bind (calls_send.mpr hparent) fun _ => calls_bind (calls_send.mpr h) fun _ =>
      calls_send.mpr h

/-- Beside a filestore of its own volume, a name is clear of it where neither it nor its
stage is that filestore. -/
theorem volumeClear_sibling :
    VolumeClear fs name (fs.container_filestore_dir n) ↔
      name ≠ n ∧ ".odooctl-restore-" ++ name ≠ n := by
  constructor
  · intro h
    exact ⟨fun he => h.here (Location.child_overlaps_child.mpr he),
      fun he => h.stage (Location.child_overlaps_child.mpr he)⟩
  · rintro ⟨hname, hstage⟩
    exact ⟨Location.not_within_child _ _, fun h => hname (Location.child_overlaps_child.mp h),
      fun h => hstage (Location.child_overlaps_child.mp h)⟩

theorem not_overlaps_of_place (h : l.place ≠ home.place) : ¬ l.Overlaps home := by
  rintro (hw | hw)
  · exact h hw.1
  · exact h hw.1.symm

theorem volumeClear_of_place (h : fs.place ≠ home.place) : VolumeClear fs name home :=
  ⟨fun hw => h hw.1, not_overlaps_of_place h, not_overlaps_of_place h⟩

theorem clear_of_place (h : target.here.place ≠ home.place)
    (hparent : target.parent.place ≠ home.place) : Clear target stem home :=
  ⟨not_overlaps_of_place h, fun hw => hparent hw.1, fun _ hw => hparent hw.1.symm⟩

/-! ## The operations on an environment -/

/-- Only calls on filestores touch a filestore. -/
def AvoidsIn (home : Location) : Services.Op → Prop
  | .inr (.inl c) => Avoids home c
  | _ => True

variable (host : Host) (cfg : OdooCtlConfig)

/-- The directory that an environment's filestore is. -/
def filestore_home (p : String × EnvironmentConfig) : Except String Location :=
  match p.2.filestore_volume with
  | some _ => (runtime_volume cfg.toConfigFields p.1).map fun fs =>
      fs.container_filestore_dir (PosixPath.parse p.2.filestore_path).name
  | none => .ok (host.resolve_path p.2.filestore_path).here

/-- Whatever is replied, no operation on the environment removes, replaces or writes anything
in the directory. -/
structure LeavesAlone (p : String × EnvironmentConfig) (home : Location) : Prop where
  restore : ∀ backup,
    (run_restore host cfg.toConfigFields p.1 backup).Calls (AvoidsIn home)
  restore_to_env : ∀ source backup,
    (restore_to_env host cfg.toConfigFields source p.1 backup).Calls (AvoidsIn home)
  clone : ∀ source sanitize preview,
    (run_clone host cfg.toConfigFields source p.1 sanitize preview).Calls (AvoidsIn home)
  destroy : ∀ purge yes, (destroy_env host cfg.toConfigFields p.1 purge yes).Calls (AvoidsIn home)

/-- The filestore of every environment is out of reach of the operations on the others. -/
def Isolated : Prop :=
  ∀ p ∈ cfg.environments, ∀ q ∈ cfg.environments, p ≠ q →
    ∀ home, filestore_home host cfg q = .ok home → LeavesAlone host cfg p home

/-- Something may be cloned into the environment, and its runtime adapter can be built. -/
def Clonable (cfg : ConfigFields) (p : String × EnvironmentConfig) : Prop :=
  p.2.clone_from.getD "" ≠ "" ∧ ∃ place, make_runtime_adapter cfg p.1 = .ok place

/-- The directory on the host, with what the operations on it stage, is apart from `home`. -/
structure PathsApart (p : String × EnvironmentConfig) (home : Location) : Prop where
  restored : Clear (host.resolve_path p.2.filestore_path)
    s!".{(host.resolve_path p.2.filestore_path).name}.restore-" home
  cloned : Clonable cfg.toConfigFields p → Clear (host.resolve_path p.2.filestore_path)
    s!".{(host.resolve_path p.2.filestore_path).name}.copy-" home
  purged : is_protected cfg.toConfigFields p.1 = .ok false →
    ¬ (host.as_given p.2.filestore_path).here.Overlaps home

/-- Two names in one volume. -/
structure NamesApart (p q : String × EnvironmentConfig) : Prop where
  named : (PosixPath.parse p.2.filestore_path).name ≠ (PosixPath.parse q.2.filestore_path).name
  staged : ".odooctl-restore-" ++ (PosixPath.parse p.2.filestore_path).name ≠
    (PosixPath.parse q.2.filestore_path).name

/-- Where both filestores are on the host, the resolved directories are apart; where both are
in the volume of one Odoo service, the last components are. -/
def Apart (p q : String × EnvironmentConfig) : Prop :=
  match p.2.filestore_volume, q.2.filestore_volume with
  | none, none => PathsApart host cfg p (host.resolve_path q.2.filestore_path).here
  | some _, some _ => ∀ place, make_runtime_adapter cfg.toConfigFields p.1 = .ok place →
      make_runtime_adapter cfg.toConfigFields q.1 = .ok place → NamesApart p q
  | _, _ => True

/-! ## From the adapters to the services -/

variable {host cfg} {p q : String × EnvironmentConfig}

theorem calls_onFiles {m : FileM α} : (onFiles m).Calls (AvoidsIn home) ↔ m.Calls (Avoids home) :=
  ⟨fun h => h.of_right.of_left.of_mapError,
    fun h => calls_right (calls_left (calls_mapError h))⟩

theorem calls_onDatabase (m : SwapM α) : (onDatabase m).Calls (AvoidsIn home) :=
  calls_left (calls_all (fun _ => trivial) _)

theorem avoids_step (c : ServiceStep) : AvoidsIn home (.inr (.inr c)) := trivial

theorem mayReturn_orRaise {r : Except String α} {a : α} (h : r = .ok a) :
    (orRaise r).MayReturn a := by
  subst h
  rfl

theorem mayReturn_step {c : ServiceStep} (a : c.Answer) : (step c).MayReturn a :=
  mayReturn_right (mayReturn_right (mayReturn_perform (r := .ok a) rfl))

theorem mayReturn_onDatabase {m : SwapM α} {a : α} (h : m.MayReturn a) :
    (onDatabase m).MayReturn a := mayReturn_left (mayReturn_mapError h)

theorem mayReturn_psql {m : DbName} {sql : Statement} : (psql m sql).MayReturn () :=
  mayReturn_perform (r := .ok ()) rfl

theorem mayReturn_drop_create {mode : ExecutionMode} {x : DbName} :
    (drop_create mode x).MayReturn () := by
  have hcreate : (create x).MayReturn () := mayReturn_perform (r := .ok ()) rfl
  cases mode with
  | docker => exact mayReturn_bind mayReturn_psql (mayReturn_bind mayReturn_psql hcreate)
  | host => exact mayReturn_bind mayReturn_psql hcreate

theorem mayReturn_restore {mode : ExecutionMode} {x : DbName} : (restore mode x).MayReturn () :=
  mayReturn_bind mayReturn_drop_create (mayReturn_perform (r := .ok ()) rfl)

theorem mayReturn_quote {name : DbName} (h : quote_identifier name = .pure ()) :
    (quote_identifier name).MayReturn () := by
  rw [h]
  rfl

/-- What the filestore adapters do for an environment. -/
structure FilesAvoid (host : Host) (cfg : ConfigFields) (p : String × EnvironmentConfig)
    (home : Location) : Prop where
  restore : ∀ archive, (restore_filestore host cfg p.1 p.2 archive).Calls (AvoidsIn home)
  copy : Clonable cfg p → ∀ src, (copy_filestore host cfg p.1 src p.2).Calls (AvoidsIn home)
  delete : is_protected cfg p.1 = .ok false →
    (delete_filestore host cfg p.1 p.2).Calls (AvoidsIn home)

theorem FilesAvoid.leavesAlone (hp : p ∈ cfg.environments)
    (h : FilesAvoid host cfg.toConfigFields p home) : LeavesAlone host cfg p home := by
  have hfind := cfg.find_of_mem hp
  have hstaging : Staging host cfg.toConfigFields p.1 p.2 (AvoidsIn home) :=
    ⟨fun _ => calls_onDatabase _, fun _ => calls_onDatabase _, h.restore⟩
  constructor
  · exact fun backup => calls_run_restore avoids_step hfind hstaging fun _ => calls_onDatabase _
  · exact fun source backup =>
      calls_restore_to_env avoids_step hfind hstaging fun _ => calls_onDatabase _
  · exact fun source sanitize preview =>
      calls_run_clone avoids_step hfind hstaging
        (fun hfrom place hplace => h.copy ⟨hfrom, place, hplace⟩) fun _ => calls_onDatabase _
  · exact fun purge yes =>
      calls_destroy_env avoids_step hfind (calls_onDatabase _) h.delete

/-- The temporary name is never the live name, for the suffix is not empty. -/
theorem temp_name_ne_live (e : EnvironmentConfig) :
    temp_name cfg.toConfigFields e ≠ e.db_name := by
  intro h
  have hlen := congrArg (fun s => s.toList.length) h
  simp only [temp_name, String.toList_append, List.length_append] at hlen
  have := List.length_pos_of_ne_nil (suffix_ok cfg.suffix_safe).2
  omega

theorem env_of_mem (hp : p ∈ cfg.environments) : env cfg.toConfigFields p.1 = .ok p.2 := by
  rw [env, cfg.find_of_mem hp]

theorem is_protected_of_env {name : String} {e : EnvironmentConfig}
    (h : env cfg.toConfigFields name = .ok e) :
    ∃ b, is_protected cfg.toConfigFields name = .ok b := by
  rw [is_protected, h]
  cases hprotected : e.protected_ with
  | none => exact ⟨_, by simp only [bind, Except.bind, hprotected]; rfl⟩
  | some b => exact ⟨b, by simp only [bind, Except.bind, hprotected]; rfl⟩

theorem is_protected_ok (hp : p ∈ cfg.environments) :
    ∃ b, is_protected cfg.toConfigFields p.1 = .ok b := is_protected_of_env (env_of_mem hp)

/-- A restore reaches the filestore with every backup. -/
theorem restore_calls_files {backup : String} (hp : p ∈ cfg.environments)
    (h : (run_restore host cfg.toConfigFields p.1 backup).Calls (AvoidsIn home))
    (backup_dir : String) :
    (restore_filestore host cfg.toConfigFields p.1 p.2 (backup_dir ++ "/filestore.tar")).Calls
      (AvoidsIn home) := by
  have h₁ := (h.rest (mayReturn_orRaise (env_of_mem hp))).first
  have h₂ := h₁.rest (mayReturn_step (c := .resolve_backup_dir _ _) backup_dir)
  have h₃ := h₂.rest (mayReturn_step (c := .validate_backup_dir _ _) ())
  rw [if_neg (temp_name_ne_live p.2)] at h₃
  exact h₃.rest (mayReturn_onDatabase mayReturn_restore)

theorem LeavesAlone.delete_files (hp : p ∈ cfg.environments) (h : LeavesAlone host cfg p home)
    (hprotected : is_protected cfg.toConfigFields p.1 = .ok false) :
    (delete_filestore host cfg.toConfigFields p.1 p.2).Calls (AvoidsIn home) := by
  have h₁ := h.destroy true true
  have hknown : cfg.knows p.1 := List.mem_map.mpr ⟨p, hp, rfl⟩
  unfold destroy_env at h₁
  rw [if_neg (not_not.mpr hknown)] at h₁
  have h₂ := h₁.rest (mayReturn_orRaise hprotected)
  have h₃ := h₂.rest (mayReturn_orRaise (env_of_mem hp))
  have h₄ := h₃.rest (mayReturn_step (c := .start_operation _) ())
  have h₅ := h₄.rest (mayReturn_step (c := .emit _) ())
  have hquote := mayReturn_quote (quote_of_identifier (db_name_chars p.2))
  have hdrop : (drop p.2.db_name).MayReturn () :=
    mayReturn_bind mayReturn_psql (mayReturn_bind hquote mayReturn_psql)
  exact (h₅.rest (mayReturn_onDatabase hdrop)).first

theorem mayReturn_copy_database {source x : DbName} :
    (copy_database cfg.toConfigFields source x).MayReturn () := by
  unfold copy_database
  split
  · exact mayReturn_bind (mayReturn_onDatabase mayReturn_drop_create)
      (mayReturn_step (c := .pipe_dump _ _) ())
  · exact mayReturn_ensuring (mayReturn_bind (mayReturn_step (c := .dump _) ())
      (mayReturn_onDatabase mayReturn_restore)) (mayReturn_step (c := .unlink_dump) ())

/-- A clone into the environment copies a filestore where it can be built. -/
theorem clone_copy_files (hp : p ∈ cfg.environments)
    (h : ∀ source sanitize preview,
      (run_clone host cfg.toConfigFields source p.1 sanitize preview).Calls (AvoidsIn home))
    (hclone : Clonable cfg.toConfigFields p) :
    ∃ src, (copy_filestore host cfg.toConfigFields p.1 src p.2).Calls (AvoidsIn home) := by
  obtain ⟨hclone, place, hplace⟩ := hclone
  cases hfrom : p.2.clone_from with
  | none =>
    rw [hfrom] at hclone
    exact absurd rfl hclone
  | some source =>
  rw [hfrom] at hclone
  obtain ⟨src, hsrc, -⟩ := cfg.exists_of_knows (cfg.clone_source_known hp hfrom hclone)
  have hne : source ≠ "" := hclone
  obtain ⟨b, hb⟩ := is_protected_ok hsrc
  have h₁ := (h source (some true) false).rest (mayReturn_orRaise (env_of_mem hsrc))
  have h₂ := h₁.rest (mayReturn_orRaise (env_of_mem hp))
  have h₃ : (do
      let protected_source ← orRaise (is_protected cfg.toConfigFields source)
      if protected_source = true ∧ true = false then
        fails "Refusing to clone protected environment data without sanitization enabled"
      else
      step .validate_runtime_definition
      prepare_clone host cfg.toConfigFields p.1 src p.2 true
      onDatabase (swap_temp_database postgresHooks (temp_name cfg.toConfigFields p.2) p.2.db_name
        p.1 (some fun name => (is_protected cfg.toConfigFields name).mapError .runtimeError))
      finish_clone cfg.toConfigFields source p.1 true : ServiceM Unit).Calls (AvoidsIn home) := by
    simpa [hfrom, hne] using h₂
  have h₄ := h₃.rest (mayReturn_orRaise hb)
  rw [if_neg (by simp)] at h₄
  have h₅ := (h₄.rest (mayReturn_step (c := .validate_runtime_definition) ())).first
  have h₆ := h₅.rest (mayReturn_step (c := .missing_env_vars) [])
  have h₇ := h₆.rest (mayReturn_step (c := .check_sanitization_sql_files) ())
  have h₈ := h₇.rest (mayReturn_orRaise hplace)
  have h₉ := h₈.rest (mayReturn_step (c := .probe_native_neutralization _) ())
  rw [if_neg (temp_name_ne_live p.2)] at h₉
  have h₁₀ := h₉.rest mayReturn_copy_database
  exact ⟨src, h₁₀.rest (mayReturn_step (c := .neutralize_database _ _) ())⟩

/-! ## Where filestores are isolated -/

theorem restore_filestore_volume {v : String} (hv : p.2.filestore_volume = some v) :
    (restore_filestore host cfg.toConfigFields p.1 p.2 archive).Calls (AvoidsIn home) ↔
      ∀ fs, runtime_volume cfg.toConfigFields p.1 = .ok fs →
        (fs.restore_archive archive (PosixPath.parse p.2.filestore_path).name).Calls
          (Avoids home) := by
  unfold restore_filestore
  rw [hv]
  constructor
  · intro h fs hfs
    exact calls_onFiles.mp (h.rest (mayReturn_orRaise hfs))
  · intro h
    exact calls_orRaise_bind fun fs hfs => calls_onFiles.mpr (h fs hfs)

theorem VolumeClear.filesAvoid {v : String} (hv : p.2.filestore_volume = some v)
    (h : ∀ fs, runtime_volume cfg.toConfigFields p.1 = .ok fs →
      VolumeClear fs (PosixPath.parse p.2.filestore_path).name home) :
    FilesAvoid host cfg.toConfigFields p home := by
  constructor
  · intro archive
    exact (restore_filestore_volume hv).mpr fun fs hfs => calls_volume_restore (h fs hfs)
  · intro _ src
    unfold copy_filestore
    rw [hv]
    refine calls_orRaise_bind fun fs hfs => calls_onFiles.mpr ?_
    exact (volume_copy_iff (h fs hfs).parent).mpr (h fs hfs).here
  · intro _
    unfold delete_filestore
    rw [hv]
    exact calls_orRaise_bind fun fs hfs => calls_onFiles.mpr (calls_send.mpr (h fs hfs).here)

theorem runtime_volume_ok {fs : RuntimeVolumeFilestore} {environment : String}
    (h : runtime_volume cfg.toConfigFields environment = .ok fs) :
    make_runtime_adapter cfg.toConfigFields environment = .ok fs.place ∧
      fs.root = (PosixPath.parse cfg.filestore_container_path).parts := by
  obtain ⟨place, hplace, hfs⟩ := CheckedLists.bind_eq_ok.mp h
  cases hfs
  exact ⟨hplace, rfl⟩

theorem place_ne_host {place : Place} {environment : String}
    (h : make_runtime_adapter cfg.toConfigFields environment = .ok place) : place ≠ .host := by
  unfold make_runtime_adapter at h
  split at h
  · cases h
    simp
  · obtain ⟨namespace_, _, h⟩ := CheckedLists.bind_eq_ok.mp h
    obtain ⟨workload, _, h⟩ := CheckedLists.bind_eq_ok.mp h
    cases h
    simp

theorem runtime_volume_eq {fs fs' : RuntimeVolumeFilestore}
    (hp : runtime_volume cfg.toConfigFields p.1 = .ok fs)
    (hq : runtime_volume cfg.toConfigFields q.1 = .ok fs') (h : fs.place = fs'.place) :
    fs = fs' := by
  cases fs
  cases fs'
  have hroot := (runtime_volume_ok hp).2.trans (runtime_volume_ok hq).2.symm
  simp_all

theorem home_of_adapter {place : Place}
    (h : make_runtime_adapter cfg.toConfigFields p.1 = .ok place) :
    ∃ home, filestore_home host cfg p = .ok home := by
  unfold filestore_home
  cases p.2.filestore_volume with
  | none => exact ⟨_, rfl⟩
  | some v =>
    have hfs : runtime_volume cfg.toConfigFields p.1 = .ok ⟨place, _⟩ :=
      CheckedLists.bind_eq_ok.mpr ⟨place, h, rfl⟩
    exact ⟨_, by simp only [hfs]; rfl⟩

theorem mayReturn_restore_archive : (FilestoreAdapter.restore_archive archive target).MayReturn () := by
  have hbody : ∀ tmpdir, (do
      send (.extract archive tmpdir)
      let extracted ← FilestoreAdapter.extracted_dir tmpdir target.name
      FilestoreAdapter.replace_by extracted target.here : FileM Unit).MayReturn () := fun tmpdir =>
    mayReturn_bind (mayReturn_send (c := .extract _ _) ())
      (mayReturn_bind mayReturn_extracted_dir mayReturn_replace_by)
  let s₀ : TempSuffix := ⟨"abcdefgh".toList, rfl, rfl⟩
  refine mayReturn_bind (mayReturn_send (c := .archive_exists _) true) ?_
  refine mayReturn_bind (mayReturn_send (c := .validate_tar_members _) ()) ?_
  refine mayReturn_bind (mayReturn_send (c := .ensure_dir _) ()) ?_
  refine mayReturn_bind (mayReturn_send (c := .make_temp_dir _ _) s₀) ?_
  exact mayReturn_ensuring (hbody _) (mayReturn_send (c := .remove_tree _) ())

theorem mayReturn_volume_restore : (fs.restore_archive archive name).MayReturn () := by
  refine mayReturn_bind (mayReturn_send (c := .archive_exists _) true) ?_
  refine mayReturn_bind (mayReturn_send (c := .validate_tar_members _) ()) ?_
  refine mayReturn_bind (mayReturn_send (c := .archive_root_name _) "odoo") ?_
  refine mayReturn_bind (mayReturn_send (c := .ensure_dir _) ()) ?_
  refine mayReturn_bind (mayReturn_send (c := .remove_tree _) ()) ?_
  refine mayReturn_bind (mayReturn_send (c := .ensure_dir _) ()) ?_
  refine mayReturn_ensuring ?_ (mayReturn_send (c := .remove_tree _) ())
  refine mayReturn_bind (mayReturn_send (c := .extract _ _) ()) ?_
  exact mayReturn_bind (mayReturn_send (c := .remove_tree _) ())
    (mayReturn_send (c := .move _ _) ())

theorem mayReturn_onFiles {m : FileM α} {a : α} (h : m.MayReturn a) : (onFiles m).MayReturn a :=
  mayReturn_right (mayReturn_left (mayReturn_mapError h))

/-- Where the filestore can be named, it can be restored. -/
theorem mayReturn_restore_filestore (hhome : filestore_home host cfg p = .ok home) :
    (restore_filestore host cfg.toConfigFields p.1 p.2 archive).MayReturn () := by
  unfold restore_filestore
  unfold filestore_home at hhome
  cases hv : p.2.filestore_volume with
  | none => exact mayReturn_onFiles mayReturn_restore_archive
  | some v =>
    rw [hv] at hhome
    cases hfs : runtime_volume cfg.toConfigFields p.1 with
    | error e =>
      rw [hfs] at hhome
      cases hhome
    | ok fs => exact mayReturn_bind (mayReturn_orRaise rfl) (mayReturn_onFiles mayReturn_volume_restore)

/-- Both filestores are in volumes. -/
theorem volumes_iff {v w : String} (hp : p ∈ cfg.environments)
    (hv : p.2.filestore_volume = some v) (hw : q.2.filestore_volume = some w)
    (hhome : filestore_home host cfg q = .ok home) :
    LeavesAlone host cfg p home ↔ Apart host cfg p q := by
  simp only [filestore_home, hw] at hhome
  simp only [Apart, hv, hw]
  cases hfq : runtime_volume cfg.toConfigFields q.1 with
  | error e =>
    rw [hfq] at hhome
    cases hhome
  | ok fq =>
  rw [hfq] at hhome
  cases hhome
  obtain ⟨hplace, -⟩ := runtime_volume_ok hfq
  constructor
  · intro h place hpp hpq
    have hfp : runtime_volume cfg.toConfigFields p.1 = .ok ⟨place, _⟩ :=
      CheckedLists.bind_eq_ok.mpr ⟨place, hpp, rfl⟩
    have heq := runtime_volume_eq hfp hfq (Except.ok.inj (hpq.symm.trans hplace))
    have hrestore := (restore_filestore_volume hv).mp (restore_calls_files hp (h.restore "latest") "") _ hfp
    rw [heq] at hrestore
    obtain ⟨hnamed, hstaged⟩ := volumeClear_sibling.mp
      ((volume_restore_iff (Location.not_within_child _ _)).mp hrestore)
    exact ⟨hnamed, hstaged⟩
  · intro h
    refine (VolumeClear.filesAvoid hv fun fs hfs => ?_).leavesAlone hp
    obtain ⟨hpp, -⟩ := runtime_volume_ok hfs
    by_cases hsame : fs.place = fq.place
    · obtain rfl := runtime_volume_eq hfs hfq hsame
      obtain ⟨hnamed, hstaged⟩ := h _ hpp hplace
      exact volumeClear_sibling.mpr ⟨hnamed, hstaged⟩
    · exact volumeClear_of_place hsame

theorem PathsApart.filesAvoid (hv : p.2.filestore_volume = none) (h : PathsApart host cfg p home) :
    FilesAvoid host cfg.toConfigFields p home := by
  constructor
  · intro archive
    unfold restore_filestore
    rw [hv]
    exact calls_onFiles.mpr (calls_restore_archive h.restored)
  · intro hclone src
    unfold copy_filestore
    rw [hv]
    exact calls_onFiles.mpr (calls_copy (h.cloned hclone))
  · intro hprotected
    unfold delete_filestore
    rw [hv]
    exact calls_onFiles.mpr (delete_iff.mpr (h.purged hprotected))

/-- The filestore is on the host. -/
theorem paths_iff (hp : p ∈ cfg.environments) (hv : p.2.filestore_volume = none) :
    LeavesAlone host cfg p home ↔ PathsApart host cfg p home := by
  constructor
  · intro h
    constructor
    · have hrestore := restore_calls_files hp (h.restore "latest") ""
      simp only [restore_filestore, hv] at hrestore
      exact restore_archive_iff.mp (calls_onFiles.mp hrestore)
    · intro hclone
      obtain ⟨src, hcopy⟩ := clone_copy_files hp h.clone hclone
      simp only [copy_filestore, hv] at hcopy
      exact copy_iff.mp (calls_onFiles.mp hcopy)
    · intro hprotected
      have hdelete := h.delete_files hp hprotected
      simp only [delete_filestore, hv] at hdelete
      exact delete_iff.mp (calls_onFiles.mp hdelete)
  · intro h
    exact (h.filesAvoid hv).leavesAlone hp

/-- A directory on the host is apart from whatever is in a volume. -/
theorem pathsApart_of_place (h : home.place ≠ .host) : PathsApart host cfg p home := by
  have hresolved : ∀ value, (host.resolve_path value).here.place = .host ∧
      (host.resolve_path value).parent.place = .host := by
    intro value
    unfold Host.resolve_path
    dsimp only
    split
    · exact ⟨rfl, rfl⟩
    · exact ⟨rfl, rfl⟩
  obtain ⟨hhere, hparent⟩ := hresolved p.2.filestore_path
  have hclear : ∀ stem, Clear (host.resolve_path p.2.filestore_path) stem home := fun stem =>
    clear_of_place (hhere ▸ h.symm) (hparent ▸ h.symm)
  exact ⟨hclear _, fun _ => hclear _, fun _ => not_overlaps_of_place h.symm⟩

theorem leavesAlone_iff (hp : p ∈ cfg.environments) (hhome : filestore_home host cfg q = .ok home) :
    LeavesAlone host cfg p home ↔ Apart host cfg p q := by
  cases hv : p.2.filestore_volume with
  | none =>
    cases hw : q.2.filestore_volume with
    | none =>
      simp only [filestore_home, hw] at hhome
      cases hhome
      simp only [Apart, hv, hw]
      exact paths_iff hp hv
    | some w =>
      simp only [filestore_home, hw] at hhome
      cases hfq : runtime_volume cfg.toConfigFields q.1 with
      | error e =>
        rw [hfq] at hhome
        cases hhome
      | ok fq =>
        rw [hfq] at hhome
        cases hhome
        have hplace := place_ne_host (runtime_volume_ok hfq).1
        simp only [Apart, hv, hw, iff_true]
        exact (paths_iff hp hv).mpr (pathsApart_of_place hplace)
  | some v =>
    cases hw : q.2.filestore_volume with
    | none =>
      have hplace : home.place = .host := by
        simp only [filestore_home, hw] at hhome
        cases hhome
        unfold Host.resolve_path
        dsimp only
        split
        · rfl
        · rfl
      simp only [Apart, hv, hw, iff_true]
      refine (VolumeClear.filesAvoid hv fun fs hfs => volumeClear_of_place ?_).leavesAlone hp
      rw [hplace]
      exact place_ne_host (runtime_volume_ok hfs).1
    | some w => exact volumes_iff hp hv hw hhome

/-- An environment whose filestore cannot be named is one whose runtime adapter cannot be
built. -/
theorem apart_of_homeless (h : ∀ home, filestore_home host cfg q ≠ .ok home) :
    Apart host cfg p q := by
  cases hw : q.2.filestore_volume with
  | none =>
    simp only [filestore_home, hw] at h
    exact absurd rfl (h _)
  | some w =>
    cases hv : p.2.filestore_volume with
    | none => simp only [Apart, hv, hw]
    | some v =>
      simp only [Apart, hv, hw]
      intro place _ hplace
      have hfs : runtime_volume cfg.toConfigFields q.1 = .ok ⟨place, _⟩ :=
        CheckedLists.bind_eq_ok.mpr ⟨place, hplace, rfl⟩
      simp only [filestore_home, hw, hfs] at h
      exact absurd rfl (h _)

def trailingSlash : EnvironmentConfig where
  branch := "main"
  domain := "example.com"
  db_name := "odoo_production"
  filestore_path := "filestore/odoo/"
  db_name_safe := odoo_production_safe
  filestore_volume_safe := no_volume_safe
  filestore_path_safe := by decide +kernel

/-- The filestore of `staging` is written without the slash. -/
def sharingConfig : OdooCtlConfig where
  environments := [("production", trailingSlash), ("staging", DatabaseIsolation.staging)]
  names_distinct := by decide
  names_safe := by decide +kernel
  suffix_safe := default_suffix_safe
  graph_valid := by decide +kernel

end FilestoreIsolation
