import Odooctl.RestoreOutcomes

/-!
# Undoing a recovery

Where a call that fails has had no effect and the calls that clean up do not fail, a restore that
raises leaves the databases as they were, every plan as it was or failed, and no new record that
says verified.
-/
namespace RestoreRollback

open EffectPrograms ProgramRules CheckedLists PostgresCatalog PitrRestoreRecord WalSegments
  PitrArchive PitrRetention RecoveryPlanning RestoreExecution RestoreOutcomes

variable {s t u : Restoring} {α β : Type} {ε : Type} {redact : String → String}
  {ctx : PitrContext} {checked : CheckedPlan} {new : DbName}
  {restore_id dump_path database plan_id : String} {now : Timestamp}

/-! ## A tidy world -/

/-- The calls that the handler undoes things with. -/
def Cleans : (Pitr.sum Exec).Op → Prop
  | .inl (.save_pitr_recovery_plan plan) => plan.status = .failed
  | .inr (.save_pitr_restore m) => m.status = .failed
  | .inr (.drop _) | .inr (.remove_staging _) => True
  | _ => False

def effect (s : Restoring) : (Pitr.sum Exec).Op → Restoring
  | .inl o => { s with archive := PitrCall.effect s.archive o }
  | .inr o => ExecCall.effect s o

/-- A call takes effect exactly if it succeeds, and one that cleans up does. -/
def tidy : World (Pitr.sum Exec) Restoring
  | .inl o, s, r, t =>
    restoring (.inl o) s r t ∧ ∀ e, r = Except.error e → t = s ∧ ¬ Cleans (.inl o)
  | .inr o, s, r, t =>
    restoring (.inr o) s r t ∧ ∀ e, r = Except.error e → t = s ∧ ¬ Cleans (.inr o)

theorem wp_ask_tidy {o : ExecCall} {Q : Result o.Value → Restoring → Prop}
    (hok : ∀ v, ExecCall.Possible s o → Q (.ok v) (ExecCall.effect s o))
    (herr : ¬ Cleans (.inr o) → ∀ e, Q (.error e) s) :
    wp tidy (fun _ _ => True) (ask o) Q s := by
  apply wp_onRight.mpr
  apply wp_perform.mpr
  refine ⟨trivial, ?_⟩
  rintro (e | v) t ⟨hstep, hfailed⟩
  · obtain ⟨rfl, hcleans⟩ := hfailed e rfl
    exact herr hcleans _
  · obtain ⟨-, hpossible, rfl⟩ := hstep
    exact hok v hpossible

theorem wp_request_tidy {o : PitrCall} {Q : Result o.Value → Restoring → Prop}
    (hok : ∀ v, Q (.ok v) (effect s (.inl o))) (herr : ¬ Cleans (.inl o) → ∀ e, Q (.error e) s) :
    wp tidy (fun _ _ => True) (onArchive (request o)) Q s := by
  refine ⟨trivial, ?_⟩
  rintro (e | v) t ⟨hstep, hfailed⟩
  · obtain ⟨rfl, hcleans⟩ := hfailed e rfl
    exact herr hcleans _
  · obtain ⟨archive, ⟨-, rfl⟩, rfl⟩ := hstep
    exact hok v

theorem tidy_cases {o : (Pitr.sum Exec).Op} {r : (Pitr.sum Exec).Reply o} (h : tidy o s r t) :
    t = s ∨ t = effect s o := by
  cases o with
  | inl o =>
    cases r with
    | ok v =>
      obtain ⟨⟨archive, ⟨-, rfl⟩, rfl⟩, -⟩ := h
      exact .inr rfl
    | error e => exact .inl (h.2 e rfl).1
  | inr o =>
    cases r with
    | ok v =>
      obtain ⟨⟨-, -, rfl⟩, -⟩ := h
      exact .inr rfl
    | error e => exact .inl (h.2 e rfl).1

/-! ## Records and databases -/

/-- What a restore has to leave in order. -/
structure Ledger where
  plans : Map PitrRecoveryPlan
  restores : Map PitrRestoreMetadata
  databases : Map Contents

def ledger (s : Restoring) : Ledger := ⟨s.archive.plans, s.archive.restores, s.databases⟩

def Spares (K : Ledger → Prop) (o : (Pitr.sum Exec).Op) : Prop :=
  ∀ u, K (ledger u) → K (ledger (effect u o))

/-- The calls on the archive that write no plan. -/
def Quiet : PitrCall → Prop
  | .save_pitr_recovery_plan _ => False
  | _ => True

variable {K : Ledger → Prop}

theorem wp_spares {p : Prog (Pitr.sum Exec) ε α} (h : p.Calls (Spares K)) (hs : K (ledger s)) :
    wp tidy (fun _ _ => True) p (fun _ t => K (ledger t)) s := by
  apply wp_keeps (P := fun t => K (ledger t)) h hs (fun _ _ _ _ => trivial)
  intro o u r t ho hu hstep
  rcases tidy_cases hstep with rfl | rfl
  · exact hu
  · exact ho u hu

theorem ledger_quiet {o : PitrCall} (h : Quiet o) : ledger (effect s (.inl o)) = ledger s := by
  cases o with
  | save_pitr_recovery_plan plan => exact h.elim
  | _ => rfl

theorem spares_quiet {p : PitrM α} (h : p.Calls Quiet) : (onArchive p).Calls (Spares K) := by
  apply calls_left
  apply calls_mono h
  intro o ho u hu
  rw [ledger_quiet ho]
  exact hu

theorem spares_ask {o : ExecCall} (h : Spares K (.inr o)) : (ask o).Calls (Spares K) :=
  calls_right (calls_perform.mpr h)

/-- A call that leaves records and databases alone. -/
theorem spares_idle {o : ExecCall} (h : ∀ u, ledger (ExecCall.effect u o) = ledger u) :
    (ask o).Calls (Spares K) := by
  apply spares_ask
  intro u hu
  change K (ledger (ExecCall.effect u o))
  rw [h u]
  exact hu

/-! ## Calls on the archive -/

theorem quiet_request {o : PitrCall} (h : Quiet o) : (request o).Calls Quiet :=
  calls_perform.mpr h

theorem quiet_coordinated {purpose owner : String} {body : PitrM α} (h : body.Calls Quiet) :
    (coordinated purpose owner body).Calls Quiet := by
  apply calls_bind (quiet_request (by trivial))
  intro _
  apply calls_bind (calls_attempt h)
  intro outcome
  cases outcome with
  | ok a => exact calls_bind (quiet_request (by trivial)) fun _ => calls_pure _
  | error e => exact calls_bind (calls_attempt (quiet_request (by trivial))) fun _ => calls_raise _

theorem quiet_get_wal_receipts (filenames : List String) :
    (get_wal_receipts filenames).Calls Quiet := by
  induction filenames with
  | nil => exact calls_pure _
  | cons filename filenames ih =>
    apply calls_bind (quiet_request (by trivial))
    intro receipt
    exact calls_bind ih fun _ => calls_pure _

theorem quiet_stage_wal (wal : List (String × WalReceipt)) : (stage_wal wal).Calls Quiet := by
  induction wal with
  | nil => exact calls_pure _
  | cons x rest ih =>
    apply calls_bind (quiet_request (by trivial))
    intro info
    apply calls_ite (calls_raise _)
    exact calls_bind ih fun _ => calls_pure _

theorem quiet_check_plan : (check_plan ctx database plan_id).Calls Quiet := by
  apply calls_bind (quiet_request (by trivial))
  intro plan
  apply calls_bind (calls_ofExcept _)
  intro _
  apply calls_ite (calls_raise _)
  apply calls_bind (quiet_request (by trivial))
  intro base
  apply calls_ite (calls_raise _)
  apply calls_bind (quiet_request (by trivial))
  intro _
  apply calls_bind (calls_ofExcept _)
  intro wal_names
  apply calls_ite (calls_raise _)
  apply calls_bind (quiet_get_wal_receipts wal_names)
  intro wal_receipts
  apply calls_ite (calls_raise _)
  apply calls_bind
  · apply quiet_coordinated
    exact calls_bind (quiet_request (by trivial)) fun _ => calls_ofExcept _
  · exact fun _ => calls_pure _

theorem quiet_create_pitr_pin {kind : PinKind} {pin_id environment base_backup_id : String}
    {segments : List PitrPinnedWal} :
    (create_pitr_pin kind pin_id environment base_backup_id segments).Calls Quiet := by
  unfold create_pitr_pin
  split
  · exact calls_raise _
  · exact quiet_request (by trivial)

/-! ## The steps of a restore -/

/-- The records of the restore and of its plan apart, and for databases of which `D` holds. -/
structure Kept (s : Ledger) (plan_id restore_id : String) (D : Map Contents → Prop) (l : Ledger) :
    Prop where
  databases : D l.databases
  plans : ∀ id ≠ plan_id, l.plans[id]? = s.plans[id]?
  restores : ∀ id ≠ restore_id, l.restores[id]? = s.restores[id]?

variable {s₀ l : Ledger} {D E : Map Contents → Prop} {m : PitrRestoreMetadata}

theorem Kept.databases_mono (h : Kept s₀ plan_id restore_id D l) {databases : Map Contents}
    (hE : E databases) : Kept s₀ plan_id restore_id E { l with databases } :=
  ⟨hE, h.plans, h.restores⟩

theorem Kept.save_restore (h : Kept s₀ plan_id restore_id D l) (hm : m.restore_id = restore_id) :
    Kept s₀ plan_id restore_id D { l with restores := l.restores.insert m.restore_id m } := by
  refine ⟨h.databases, h.plans, ?_⟩
  intro id hid
  have hne : m.restore_id ≠ id := by
    rw [hm]
    exact hid.symm
  change (l.restores.insert m.restore_id m)[id]? = _
  rw [Std.ExtTreeMap.getElem?_insert, if_neg (by simpa using hne)]
  exact h.restores id hid

theorem Kept.save_plan (h : Kept s₀ plan_id restore_id D l) {plan : PitrRecoveryPlan}
    (hplan : plan.plan_id = plan_id) :
    Kept s₀ plan_id restore_id D { l with plans := l.plans.insert plan.plan_id plan } := by
  refine ⟨h.databases, ?_, h.restores⟩
  intro id hid
  have hne : plan.plan_id ≠ id := by
    rw [hplan]
    exact hid.symm
  change (l.plans.insert plan.plan_id plan)[id]? = _
  rw [Std.ExtTreeMap.getElem?_insert, if_neg (by simpa using hne)]
  exact h.plans id hid

theorem spares_save_restore (hm : m.restore_id = restore_id) :
    (ask (.save_pitr_restore m)).Calls (Spares (Kept s₀ plan_id restore_id D)) :=
  spares_ask fun _ hu => hu.save_restore hm

theorem spares_save_plan {plan : PitrRecoveryPlan} (hplan : plan.plan_id = plan_id) :
    (onArchive (request (.save_pitr_recovery_plan plan))).Calls
      (Spares (Kept s₀ plan_id restore_id D)) := by
  apply calls_left
  apply calls_perform.mpr
  exact fun _ hu => hu.save_plan hplan

theorem spares_stage : (stage checked).Calls (Spares K) := by
  apply calls_bind (spares_idle fun _ => rfl)
  intro _
  apply calls_bind (spares_idle fun _ => rfl)
  intro _
  apply calls_bind (spares_quiet (quiet_stage_wal _))
  intro staged
  apply calls_ite (spares_quiet (calls_raise _))
  apply calls_bind (spares_idle fun _ => rfl)
  exact fun same => calls_ite (calls_pure _) (spares_quiet (calls_raise _))

theorem spares_recover (staged : List (String × WalObject)) :
    (recover checked dump_path staged).Calls (Spares K) := by
  apply calls_bind (spares_idle fun _ => rfl)
  exact fun recovery => calls_ite (calls_pure _) (spares_quiet (calls_raise _))

theorem spares_publish (hm : m.restore_id = restore_id) {plan : PitrRecoveryPlan}
    (hplan : plan.plan_id = plan_id) :
    (publish redact ctx checked restore_id m plan).Calls
      (Spares (Kept s₀ plan_id restore_id D)) := by
  apply calls_bind (spares_quiet (quiet_request (by trivial)))
  intro plan_pin
  apply calls_bind (calls_ofExcept _)
  intro _
  apply calls_bind (spares_quiet quiet_create_pitr_pin)
  intro restore_pin
  apply calls_bind (calls_ofExcept _)
  intro _
  apply calls_bind (spares_save_restore hm)
  intro _
  apply calls_bind (spares_save_plan hplan)
  intro _
  apply calls_bind
  · apply calls_attempt
    exact calls_bind (spares_quiet (quiet_request (by trivial))) fun _ => spares_idle fun _ => rfl
  · intro released
    cases released with
    | ok => exact calls_pure _
    | error e => exact calls_pure _

theorem spares_hand_off (hm : m.restore_id = restore_id) {plan : PitrRecoveryPlan}
    (hplan : plan.plan_id = plan_id) :
    (hand_off redact ctx checked restore_id m plan).Calls
      (Spares (Kept s₀ plan_id restore_id D)) := by
  apply calls_bind (spares_quiet (quiet_request (by trivial)))
  intro _
  apply calls_bind (calls_attempt (spares_publish hm hplan))
  intro published
  apply calls_bind (calls_attempt (spares_quiet (quiet_request (by trivial))))
  intro released
  cases published with
  | ok warning => cases released <;> exact calls_pure _
  | error e => cases released <;> exact calls_raise _

theorem spares_note_warning (hm : m.restore_id = restore_id) (warning : Option String) :
    (note_warning m warning).Calls (Spares (Kept s₀ plan_id restore_id D)) := by
  cases warning with
  | none => exact calls_pure _
  | some warning =>
    apply calls_ofExcept_bind
    intro warned hwarned
    have hfields := updated_ok hwarned
    have hwarned : warned.restore_id = restore_id := by
      rw [hfields]
      exact hm
    apply calls_bind (calls_attempt (spares_save_restore hwarned))
    exact fun _ => calls_pure _

/-! ## What the handler finds -/

/-- The databases once the new one is created, and before. -/
def Created (s : Ledger) (new : DbName) : Bool → Map Contents → Prop
  | true, databases => new ∉ s.databases ∧ ∃ contents, databases = s.databases.insert new contents
  | false, databases => databases = s.databases

/-- No record but the pending one of the restore has been written. -/
structure Unsaved (s l : Ledger) : Prop where
  databases : l.databases = s.databases
  plans : l.plans = s.plans
  restores : ∀ (id : String) m, l.restores[id]? = some m → m.status = .verified →
    s.restores[id]? = some m

/-- What is known of the record at hand. -/
structure Open (restore_id : String) (m : PitrRestoreFields) : Prop where
  restore_id : m.restore_id = restore_id
  cutover : m.cutover = false

def Recoverable (s : Ledger) (checked : CheckedPlan) (restore_id : String) (progress : Progress)
    (l : Ledger) : Prop :=
  match progress.durable_state_started with
  | true => Open restore_id progress.metadata.toPitrRestoreFields ∧
      Kept s checked.plan.plan_id restore_id
        (Created s checked.plan.new_database progress.created_database) l
  | false => progress.created_database = false ∧ Unsaved s l

def Blocked (s : Ledger) (checked : CheckedPlan) (restore_id : String) :
    Except (PitrFailure × Progress) PitrRestoreMetadata → Restoring → Prop
  | .error failure, t => Recoverable s checked restore_id failure.2 (ledger t)
  | .ok _, _ => True

theorem wp_during_seq {p : ExecM β} {f : β → BlockM PitrRestoreMetadata} {progress : Progress}
    {P : Result β → Restoring → Prop} (hp : wp tidy (fun _ _ => True) p P u)
    (herr : ∀ e t, P (.error e) t → Recoverable s₀ checked restore_id progress (ledger t))
    (hok : ∀ b t, P (.ok b) t →
      wp tidy (fun _ _ => True) (f b) (Blocked s₀ checked restore_id) t) :
    wp tidy (fun _ _ => True) (during progress p >>= f) (Blocked s₀ checked restore_id) u := by
  apply wp_bind'.mpr
  apply wp_mapError.mpr
  apply wp_post hp
  intro r t hr
  cases r with
  | error e => exact herr e t hr
  | ok b => exact hok b t hr

/-- A step that keeps what holds. -/
theorem wp_during_spares {p : ExecM β} {f : β → BlockM PitrRestoreMetadata} {progress : Progress}
    (hp : p.Calls (Spares K)) (hu : K (ledger u))
    (hK : ∀ l, K l → Recoverable s₀ checked restore_id progress l)
    (hok : ∀ b t, K (ledger t) →
      wp tidy (fun _ _ => True) (f b) (Blocked s₀ checked restore_id) t) :
    wp tidy (fun _ _ => True) (during progress p >>= f) (Blocked s₀ checked restore_id) u :=
  wp_during_seq (wp_spares hp hu) (fun _ _ ht => hK _ ht) hok

theorem wp_during_ofExcept {r : Result β} {f : β → BlockM PitrRestoreMetadata}
    {progress : Progress} (hu : Recoverable s₀ checked restore_id progress (ledger u))
    (hok : ∀ b, r = .ok b →
      wp tidy (fun _ _ => True) (f b) (Blocked s₀ checked restore_id) u) :
    wp tidy (fun _ _ => True) (during progress (.ofExcept r) >>= f)
      (Blocked s₀ checked restore_id) u := by
  cases r with
  | error e => exact hu
  | ok b => exact hok b rfl

theorem Unsaved.save_restore (h : Unsaved s₀ l) (hm : m.status ≠ .verified) :
    Unsaved s₀ { l with restores := l.restores.insert m.restore_id m } := by
  refine ⟨h.databases, h.plans, ?_⟩
  intro id m' hstored hverified
  change (l.restores.insert m.restore_id m)[id]? = _ at hstored
  rw [Std.ExtTreeMap.getElem?_insert] at hstored
  split at hstored
  · obtain rfl := Option.some.inj hstored
    exact absurd hverified hm
  · exact h.restores id m' hstored hverified

theorem wp_create_tidy (hu : Kept s₀ plan_id restore_id (Created s₀ new false) (ledger u)) :
    wp tidy (fun _ _ => True) (create_new new) (fun x t =>
      Kept s₀ plan_id restore_id (Created s₀ new (x matches .ok _)) (ledger t)) u := by
  apply wp_seq (wp_spares (spares_idle fun _ => rfl) hu)
  · exact fun _ _ ht => ht
  intro found t ht
  split
  · exact ht
  apply wp_ask_tidy
  · intro _ hnew
    have hsame : t.databases = s₀.databases := ht.databases
    rw [ExecCall.Possible, hsame] at hnew
    refine ⟨⟨hnew, .empty, ?_⟩, ht.plans, ht.restores⟩
    change t.databases.insert new .empty = _
    rw [hsame]
  · exact fun _ _ => ht

theorem spares_fill {recovery : PitrRecoveryResult} :
    (fill new recovery).Calls
      (Spares (Kept s₀ plan_id restore_id (Created s₀ new true))) := by
  apply calls_bind
  · apply spares_ask
    intro u hu
    obtain ⟨hnew, contents, hcontents⟩ := hu.databases
    have hcontents : u.databases = s₀.databases.insert new contents := hcontents
    refine ⟨⟨hnew, u.dump.elim .partly .recovered, ?_⟩, hu.plans, hu.restores⟩
    change u.databases.insert new _ = _
    rw [hcontents]
    apply Std.ExtTreeMap.ext_getElem?
    intro name
    rw [Std.ExtTreeMap.getElem?_insert, Std.ExtTreeMap.getElem?_insert,
      Std.ExtTreeMap.getElem?_insert]
    split <;> rfl
  intro _
  apply calls_bind (spares_idle fun _ => rfl)
  exact fun _ => spares_idle fun _ => rfl

/-! ## The block -/

theorem updated_open {m m' : PitrRestoreMetadata} {f : PitrRestoreFields → PitrRestoreFields}
    (h : updated m f = .ok m') (hm : Open restore_id (f m.toPitrRestoreFields)) :
    Open restore_id m'.toPitrRestoreFields := by
  rw [updated_ok h]
  exact hm

theorem wp_block_tidy (hm : Open restore_id m.toPitrRestoreFields) (hpending : m.status ≠ .verified)
    (hs : ledger s = s₀) :
    wp tidy (fun _ _ => True) (block redact ctx checked restore_id dump_path m)
      (Blocked s₀ checked restore_id) s := by
  have hunsaved : Unsaved s₀ (ledger s) := by
    rw [hs]
    exact ⟨rfl, rfl, fun _ _ h _ => h⟩
  have hkept : Kept s₀ checked.plan.plan_id restore_id
      (Created s₀ checked.plan.new_database false) (ledger s) := by
    rw [hs]
    exact ⟨rfl, fun _ _ => rfl, fun _ _ => rfl⟩
  unfold block
  -- Until the plan is executing nothing is there to undo.
  apply wp_during_seq (P := fun _ t => Unsaved s₀ (ledger t) ∧
    Kept s₀ checked.plan.plan_id restore_id (Created s₀ checked.plan.new_database false) (ledger t))
  · apply wp_ask_tidy
    · exact fun _ _ => ⟨hunsaved.save_restore hpending, hkept.save_restore hm.restore_id⟩
    · exact fun _ _ => ⟨hunsaved, hkept⟩
  · exact fun _ _ ht => ⟨rfl, ht.1⟩
  rintro _ s ⟨hunsaved, hkept⟩
  apply wp_during_seq (P := fun x t => (x = .ok () ∨ Unsaved s₀ (ledger t)) ∧
    Kept s₀ checked.plan.plan_id restore_id (Created s₀ checked.plan.new_database false) (ledger t))
  · apply wp_request_tidy
    · exact fun _ => ⟨.inl rfl, hkept.save_plan rfl⟩
    · exact fun _ _ => ⟨.inr hunsaved, hkept⟩
  · rintro e t ⟨hfailed, -⟩
    exact ⟨rfl, hfailed.resolve_left fun h => by cases h⟩
  rintro _ s ⟨-, hkept⟩
  apply wp_during_spares spares_stage hkept fun _ hl => by exact ⟨hm, hl⟩
  intro staged s hkept
  apply wp_during_ofExcept (by exact ⟨hm, hkept⟩)
  intro recovering hrecovering
  have hopen := updated_open hrecovering ⟨hm.restore_id, hm.cutover⟩
  apply wp_during_spares (spares_save_restore hopen.restore_id) hkept
    fun _ hl => by exact ⟨hopen, hl⟩
  intro _ s hkept
  apply wp_during_spares (spares_recover staged) hkept fun _ hl => by exact ⟨hopen, hl⟩
  intro recovery s hkept
  apply wp_during_seq (wp_create_tidy hkept) fun _ _ ht => by exact ⟨hopen, ht⟩
  intro _ s hkept
  -- The new database is there to be dropped.
  apply wp_during_spares spares_fill hkept fun _ hl => by exact ⟨hopen, hl⟩
  intro _ s hkept
  apply wp_during_ofExcept (by exact ⟨hopen, hkept⟩)
  intro verified hverified
  have hverified := updated_ok hverified
  have hopen : Open restore_id verified.toPitrRestoreFields := by
    rw [hverified]
    exact ⟨hopen.restore_id, hopen.cutover⟩
  have hhand : (hand_off redact ctx checked restore_id verified
      (with_status checked.plan .verified)).Calls (Spares (Kept s₀ checked.plan.plan_id restore_id
        (Created s₀ checked.plan.new_database true))) := spares_hand_off hopen.restore_id rfl
  apply wp_during_spares hhand hkept fun _ hl => by exact ⟨hopen, hl⟩
  intro warning s hkept
  apply wp_mapError.mpr
  apply wp_post (wp_spares (spares_note_warning hopen.restore_id warning) hkept)
  intro x t ht
  cases x with
  | error e => exact ⟨hopen, ht⟩
  | ok m => trivial

/-! ## The handler -/

/-- What is left where a restore has raised. -/
structure Undone (s l : Ledger) : Prop where
  databases : l.databases = s.databases
  plans : ∀ id : String, l.plans[id]? = s.plans[id]? ∨
    ∃ plan, l.plans[id]? = some plan ∧ plan.status = .failed
  restores : ∀ (id : String) m, l.restores[id]? = some m → m.status = .verified →
    s.restores[id]? = some m

theorem Unsaved.undone (h : Unsaved s₀ l) : Undone s₀ l := by
  refine ⟨h.databases, ?_, h.restores⟩
  intro id
  rw [h.plans]
  exact .inl rfl

/-- The record at hand can be marked failed. -/
theorem updated_failed (hm : Open restore_id m.toPitrRestoreFields) (error : String) :
    ∃ failed, updated m (fun m =>
        { m with status := .failed, verified := false, last_error := some error }) = .ok failed ∧
      failed.restore_id = restore_id ∧ failed.status = .failed := by
  have hlife := m.lifecycle
  have hmarked : Lifecycle { m.toPitrRestoreFields with
      status := .failed, verified := false, last_error := some error } := {
    databases_differ := hlife.databases_differ
    incoming := hlife.incoming
    started := hlife.started
    verified := by rintro (h | h) <;> cases h
    status := by
      constructor
      · intro h
        rw [hm.cutover] at h
        cases h
      · rintro ⟨⟩
    planned := hlife.planned
    completed := hlife.completed
    finalized := hlife.finalized }
  obtain ⟨failed, hupdate, hfields⟩ : ∃ failed, validated_update m (fun m =>
        { m with status := .failed, verified := false, last_error := some error }) = .ok failed ∧
      failed.toPitrRestoreFields = { m.toPitrRestoreFields with
        status := .failed, verified := false, last_error := some error } :=
    validated_update_ok m.fields_sound hmarked
  refine ⟨failed, ?_, ?_, ?_⟩
  · rw [updated, hupdate]
    rfl
  · rw [hfields]
    exact hm.restore_id
  · rw [hfields]

theorem erase_insert {databases : Map Contents} {contents : Contents} (hnew : new ∉ databases) :
    (databases.insert new contents).erase new = databases := by
  apply Std.ExtTreeMap.ext_getElem?
  intro name
  rw [Std.ExtTreeMap.getElem?_erase, Std.ExtTreeMap.getElem?_insert]
  split
  · next heq =>
    obtain rfl := Std.LawfulEqOrd.eq_of_compare heq
    exact (Std.ExtTreeMap.getElem?_eq_none hnew).symm
  · rfl

theorem wp_drop_created {progress : Progress} {f : Unit → ExecM α} {Q : Result α → Restoring → Prop}
    (hu : Kept s₀ plan_id restore_id
      (Created s₀ checked.plan.new_database progress.created_database) (ledger u))
    (hnext : ∀ t, Kept s₀ plan_id restore_id (Created s₀ checked.plan.new_database false)
      (ledger t) → wp tidy (fun _ _ => True) (f ()) Q t) :
    wp tidy (fun _ _ => True) (drop_created checked progress >>= f) Q u := by
  apply wp_seq (P := fun x t => x = .ok () ∧
    Kept s₀ plan_id restore_id (Created s₀ checked.plan.new_database false) (ledger t))
  · unfold drop_created
    cases hcreated : progress.created_database with
    | false =>
      rw [hcreated] at hu
      exact ⟨rfl, hu⟩
    | true =>
      rw [hcreated] at hu
      obtain ⟨hnew, contents, hcontents⟩ := hu.databases
      have hcontents : u.databases = s₀.databases.insert checked.plan.new_database contents :=
        hcontents
      have hdropped : wp tidy (fun _ _ => True) (ask (.drop checked.plan.new_database))
          (fun _ t => Kept s₀ plan_id restore_id (Created s₀ checked.plan.new_database false)
            (ledger t)) u := by
        apply wp_ask_tidy
        · intro _ _
          refine hu.databases_mono ?_
          change u.databases.erase _ = _
          rw [hcontents, erase_insert hnew]
        · exact fun h => absurd trivial h
      exact wp_attempt_seq hdropped fun _ _ ht => ⟨rfl, ht⟩
  · rintro e t ⟨h, -⟩
    cases h
  · rintro ⟨⟩ t ⟨-, ht⟩
    exact hnext t ht

theorem wp_record_failure {progress : Progress} {e : PitrFailure}
    (hdurable : progress.durable_state_started = true)
    (hm : Open restore_id progress.metadata.toPitrRestoreFields)
    (hu : Kept s₀ checked.plan.plan_id restore_id (Created s₀ new false) (ledger u)) :
    wp tidy (fun _ _ => True) (record_failure redact checked progress e)
      (fun x t => x = .ok () ∧ Undone s₀ (ledger t)) u := by
  obtain ⟨failed, hupdate, hid, hfailed⟩ := updated_failed hm (redact e.str)
  unfold record_failure
  rw [if_pos hdurable, hupdate]
  change wp tidy _ (ask (.save_pitr_restore failed) >>= fun _ =>
    onArchive (request (.save_pitr_recovery_plan (with_status checked.plan .failed)))) _ u
  apply wp_seq (P := fun x t => (∃ v, x = .ok v) ∧
    Kept s₀ checked.plan.plan_id restore_id (Created s₀ new false) (ledger t) ∧
      (ledger t).restores[restore_id]? = some failed)
  · apply wp_ask_tidy
    · intro v _
      refine ⟨⟨v, rfl⟩, hu.save_restore hid, ?_⟩
      change (u.archive.restores.insert failed.restore_id failed)[restore_id]? = _
      rw [hid, Std.ExtTreeMap.getElem?_insert_self]
    · exact fun h => absurd hfailed h
  · rintro e t ⟨⟨v, hv⟩, -⟩
    cases hv
  rintro _ t ⟨-, ht, hrestore⟩
  apply wp_request_tidy
  · refine fun v => ⟨rfl, ht.databases, ?_, ?_⟩
    · intro id
      by_cases hplan : id = checked.plan.plan_id
      · subst hplan
        exact .inr ⟨_, Std.ExtTreeMap.getElem?_insert_self, rfl⟩
      · have hid : (with_status checked.plan .failed).plan_id = checked.plan.plan_id := rfl
        exact .inl ((ht.save_plan hid).plans id hplan)
    · intro id m hstored hverified
      have hstored : (ledger t).restores[id]? = some m := hstored
      by_cases hrestored : id = restore_id
      · subst hrestored
        rw [hrestore] at hstored
        obtain rfl := Option.some.inj hstored
        rw [hfailed] at hverified
        cases hverified
      · rw [ht.restores id hrestored] at hstored
        exact hstored
  · exact fun h => absurd rfl h

theorem wp_handled_tidy {failure : PitrFailure × Progress}
    (h : Recoverable s₀ checked restore_id failure.2 (ledger u)) :
    wp tidy (fun _ _ => True) (handled redact checked (.error failure))
      (fun x t => x = .error failure.1 ∧ Undone s₀ (ledger t)) u := by
  obtain ⟨e, progress⟩ := failure
  unfold Recoverable at h
  split at h
  · next hdurable =>
    apply wp_drop_created h.2
    intro t ht
    apply wp_seq (wp_record_failure hdurable h.1 ht)
    · rintro e' u ⟨hok, -⟩
      cases hok
    · rintro _ u ⟨-, hu⟩
      exact ⟨rfl, hu⟩
  · next hdurable =>
    obtain ⟨hcreated, hunsaved⟩ := h
    have hcreated : progress.created_database = false := hcreated
    have hdurable : progress.durable_state_started = false := hdurable
    unfold handled
    simp only [drop_created, record_failure, hcreated, hdurable]
    exact ⟨rfl, hunsaved.undone⟩

/-- The staging directory is removed in any case. -/
theorem wp_remove_staging {result : Result PitrRestoreMetadata} {Q : Result PitrRestoreMetadata →
    Restoring → Prop} (h : Q result u) :
    wp tidy (fun _ _ => True) (do
      ask (.remove_staging restore_id)
      .ofExcept result) Q u := by
  apply wp_seq (P := fun x t => (∃ v, x = .ok v) ∧ t = u)
  · apply wp_ask_tidy
    · exact fun v _ => ⟨⟨v, rfl⟩, rfl⟩
    · exact fun h => absurd trivial h
  · rintro e t ⟨⟨v, hv⟩, -⟩
    cases hv
  · rintro _ t ⟨-, rfl⟩
    exact wp_ofExcept.mpr h

/-- A restore that raises is undone, whichever of its calls fails. -/
theorem raised_undone :
    wp tidy (fun _ _ => True) (execute_restore redact ctx database plan_id now)
      (fun x t => ∀ e, x = .error e → Undone (ledger s) (ledger t)) s := by
  have hsame : ∀ l, l = ledger s → Undone (ledger s) l := by
    rintro l rfl
    exact ⟨rfl, fun _ => .inl rfl, fun _ _ h _ => h⟩
  have hstep : ∀ {β : Type} {p : ExecM β} {f : β → ExecM PitrRestoreMetadata} {t : Restoring},
      p.Calls (Spares (· = ledger s)) → ledger t = ledger s →
      (∀ b u, ledger u = ledger s → wp tidy (fun _ _ => True) (f b)
        (fun x t => ∀ e, x = .error e → Undone (ledger s) (ledger t)) u) →
      wp tidy (fun _ _ => True) (p >>= f)
        (fun x t => ∀ e, x = .error e → Undone (ledger s) (ledger t)) t := by
    intro β p f t hp ht hf
    exact wp_seq (wp_spares hp ht) (fun _ _ hu _ _ => hsame _ hu) hf
  unfold execute_restore
  apply hstep (spares_quiet quiet_check_plan) rfl
  intro checked t ht
  apply hstep (spares_quiet (quiet_request (by trivial))) ht
  intro token t ht
  apply wp_ofExcept_seq
  · exact fun _ _ _ _ => hsame _ ht
  intro metadata hmetadata
  have hm : Open (ctx.environment ++ "_pitr_restore_" ++ token) metadata.toPitrRestoreFields ∧
      metadata.status = .pending := by
    unfold pending_restore model_validate at hmetadata
    split at hmetadata
    · rw [← Except.ok.inj hmetadata]
      exact ⟨⟨rfl, rfl⟩, rfl⟩
    · cases hmetadata
  have hpending : metadata.status ≠ .verified := by
    rw [hm.2]
    decide
  apply hstep (spares_idle fun _ => rfl) ht
  intro _ t ht
  apply hstep (spares_idle fun _ => rfl) ht
  intro found t ht
  split
  · exact fun _ _ => hsame _ ht
  apply hstep (spares_idle fun _ => rfl) ht
  intro _ t ht
  apply hstep (spares_idle fun _ => rfl) ht
  intro _ t ht
  apply wp_attempt_seq (wp_block_tidy hm.1 hpending ht)
  intro outcome t houtcome
  cases outcome with
  | error failure =>
    apply wp_attempt_seq (wp_handled_tidy houtcome)
    rintro result t ⟨-, hundone⟩
    exact wp_remove_staging fun e _ => hundone
  | ok m =>
    have hreturned : wp tidy (fun _ _ => True) (handled redact checked (.ok m))
        (fun x _ => x = .ok m) t := rfl
    apply wp_attempt_seq hreturned
    rintro result t rfl
    exact wp_remove_staging fun e h => by cases h

end RestoreRollback
