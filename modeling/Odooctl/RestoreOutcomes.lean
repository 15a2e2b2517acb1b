import Odooctl.RecoveryAgreement
import Odooctl.RestoreExecution

/-!
# What an executed recovery leaves

Whatever fails and wherever the run stops, no database that existed is touched. A run that returns
has made the new database, the records and the pin.
-/
namespace RestoreOutcomes

open EffectPrograms ProgramRules CheckedLists PostgresCatalog PitrRestoreRecord WalSegments
  PitrArchive PitrRetention RecoveryPlanning RecoveryAgreement RestoreExecution

variable {s₀ s t : Restoring} {N : DbName → Prop} {new : DbName} {α β : Type} {ε : Type}
  {redact : String → String} {ctx : PitrContext} {checked : CheckedPlan}
  {restore_id dump_path database plan_id : String} {now : Timestamp}

/-! ## Calls -/

theorem wp_ask {o : ExecCall} {I : (Pitr.sum Exec).Op → Restoring → Prop}
    {Q : Result o.Value → Restoring → Prop} :
    wp restoring I (ask o) Q s ↔ I (.inr o) s ∧ ∀ r t, exec o s r t → Q (reply r) t := by
  unfold ask
  rw [wp_onRight, wp_perform]
  rfl

/-! ## Calls on databases -/

/-- Every database that existed is as it was. -/
def Untouched (s₀ t : Restoring) : Prop :=
  ∀ name ∈ s₀.databases, t.databases[name]? = s₀.databases[name]?

/-- Of the calls that overwrite or drop a database those on the given names. -/
def Touches (N : DbName → Prop) : (Pitr.sum Exec).Op → Prop
  | .inr (.restore_into name _) | .inr (.drop name) => N name
  | _ => True

theorem Untouched.refl (s : Restoring) : Untouched s s := fun _ _ => rfl

theorem Untouched.mem {name : DbName} (h : Untouched s₀ s) (hname : name ∈ s₀.databases) :
    name ∈ s.databases := by
  have heq := h name hname
  rw [Std.ExtTreeMap.mem_iff_isSome_getElem?] at hname ⊢
  rwa [heq]

theorem Untouched.insert {name : DbName} {contents : Contents} (h : Untouched s₀ s)
    (hname : name ∉ s₀.databases) :
    Untouched s₀ { s with databases := s.databases.insert name contents } := by
  intro other hother
  have hne : name ≠ other := by
    rintro rfl
    exact hname hother
  rw [Std.ExtTreeMap.getElem?_insert, if_neg (by simpa using hne)]
  exact h other hother

theorem Untouched.erase {name : DbName} (h : Untouched s₀ s) (hname : name ∉ s₀.databases) :
    Untouched s₀ { s with databases := s.databases.erase name } := by
  intro other hother
  have hne : name ≠ other := by
    rintro rfl
    exact hname hother
  rw [Std.ExtTreeMap.getElem?_erase, if_neg (by simpa using hne)]
  exact h other hother

theorem untouched_effect {o : ExecCall} (hN : ∀ name, N name → name ∉ s₀.databases)
    (ho : Touches N (.inr o)) (hs : Untouched s₀ s) (hpossible : ExecCall.Possible s o) :
    Untouched s₀ (ExecCall.effect s o) := by
  cases o with
  | create name => exact hs.insert fun hname => hpossible (hs.mem hname)
  | restore_into name dump => exact hs.insert (hN name ho)
  | drop name => exact hs.erase (hN name ho)
  | _ => exact hs

theorem untouched_step {o : (Pitr.sum Exec).Op} {r : (Pitr.sum Exec).Reply o}
    (hN : ∀ name, N name → name ∉ s₀.databases) (ho : Touches N o) (hs : Untouched s₀ s)
    (h : restoring o s r t) : Untouched s₀ t := by
  cases o with
  | inl o =>
    obtain ⟨archive, -, rfl⟩ := h
    exact hs
  | inr o =>
    cases r with
    | ok value =>
      obtain ⟨-, hpossible, rfl⟩ := h
      exact untouched_effect hN ho hs hpossible
    | error message =>
      rcases h with rfl | ⟨hpossible, hleaves⟩
      · exact hs
      cases o with
      | restore_into name dump =>
        obtain ⟨contents, rfl⟩ := hleaves
        exact hs.insert (hN name ho)
      | _ =>
        obtain rfl := hleaves
        exact untouched_effect hN ho hs hpossible

theorem wp_touches {p : Prog (Pitr.sum Exec) ε α} (hN : ∀ name, N name → name ∉ s₀.databases)
    (h : p.Calls (Touches N)) (hs : Untouched s₀ s) :
    wp restoring (fun _ t => Untouched s₀ t) p (fun _ t => Untouched s₀ t) s :=
  wp_keeps h hs (fun _ _ _ hu => hu) fun _ _ _ _ ho hu hstep => untouched_step hN ho hu hstep

theorem touches_onArchive (p : PitrM α) : (onArchive p).Calls (Touches N) :=
  calls_left (calls_all (fun _ => trivial) p)

theorem touches_ask {o : ExecCall} (h : Touches N (.inr o)) : (ask o).Calls (Touches N) :=
  calls_right (calls_perform.mpr h)

theorem touches_stage : (stage checked).Calls (Touches N) := by
  apply calls_bind (touches_ask (by trivial))
  intro _
  apply calls_bind (touches_ask (by trivial))
  intro _
  apply calls_bind (touches_onArchive _)
  intro staged
  apply calls_ite (touches_onArchive _)
  apply calls_bind (touches_ask (by trivial))
  exact fun same => calls_ite (calls_pure _) (touches_onArchive _)

theorem touches_recover (staged : List (String × WalObject)) :
    (recover checked dump_path staged).Calls (Touches N) := by
  apply calls_bind (touches_ask (by trivial))
  exact fun recovery => calls_ite (calls_pure _) (touches_onArchive _)

theorem touches_fill (recovery : PitrRecoveryResult) :
    (fill new recovery).Calls (Touches (· = new)) := by
  apply calls_bind (touches_ask (by exact rfl))
  intro _
  apply calls_bind (touches_ask (by trivial))
  exact fun _ => touches_ask (by trivial)

theorem touches_publish (metadata : PitrRestoreMetadata) (plan : PitrRecoveryPlan) :
    (publish redact ctx checked restore_id metadata plan).Calls (Touches N) := by
  apply calls_bind (touches_onArchive _)
  intro plan_pin
  apply calls_bind (calls_ofExcept _)
  intro _
  apply calls_bind (touches_onArchive _)
  intro restore_pin
  apply calls_bind (calls_ofExcept _)
  intro _
  apply calls_bind (touches_ask (by trivial))
  intro _
  apply calls_bind (touches_onArchive _)
  intro _
  apply calls_bind
  · exact calls_attempt (calls_bind (touches_onArchive _) fun _ => touches_ask (by trivial))
  · intro released
    cases released with
    | ok => exact calls_pure _
    | error e => exact calls_pure _

theorem touches_hand_off (metadata : PitrRestoreMetadata) (plan : PitrRecoveryPlan) :
    (hand_off redact ctx checked restore_id metadata plan).Calls (Touches N) := by
  apply calls_bind (touches_onArchive _)
  intro _
  apply calls_bind (calls_attempt (touches_publish metadata plan))
  intro published
  apply calls_bind (calls_attempt (touches_onArchive _))
  intro released
  cases published with
  | ok warning => cases released <;> exact calls_pure _
  | error e => cases released <;> exact calls_raise _

theorem touches_note_warning (metadata : PitrRestoreMetadata) (warning : Option String) :
    (note_warning metadata warning).Calls (Touches N) := by
  cases warning with
  | none => exact calls_pure _
  | some warning =>
    apply calls_bind (calls_ofExcept _)
    intro warned
    apply calls_bind (calls_attempt (touches_ask (by trivial)))
    exact fun _ => calls_pure _

/-! ## The databases that existed -/

/-- What the handler may rely on. -/
def Cautious (s₀ : Restoring) (new : DbName) (x : Except (PitrFailure × Progress) α) : Prop :=
  ∀ failure, x = .error failure → failure.2.created_database = true → new ∉ s₀.databases

theorem cautious_error {failure : PitrFailure × Progress}
    (h : Cautious s₀ new (.error failure : Except _ β)) :
    Cautious s₀ new (.error failure : Except _ α) := by
  rintro failure' heq
  exact h failure' (congrArg Except.error (Except.error.inj heq))

/-- Before the database is created a failure says so. -/
theorem cautious_before {progress : Progress} (h : progress.created_database = false)
    (x : Result β) : Cautious s₀ new (x.mapError fun e => (e, progress)) := by
  cases x with
  | ok b => exact fun _ heq => by cases heq
  | error e =>
    rintro failure heq htrue
    rw [← Except.error.inj heq, h] at htrue
    cases htrue

/-- The new database is created only where there was none of its name. -/
theorem wp_create_new (hs : Untouched s₀ s) :
    wp restoring (fun _ t => Untouched s₀ t) (create_new new)
      (fun x t => Untouched s₀ t ∧ (x = .ok () → new ∉ s₀.databases)) s := by
  have hN : ∀ name : DbName, (fun _ => False) name → name ∉ s₀.databases := fun _ h => h.elim
  apply wp_seq (wp_touches hN (touches_ask (by trivial)) hs)
  · exact fun e t ht => ⟨ht, fun h => by cases h⟩
  intro found t ht
  split
  · exact ⟨ht, fun h => by cases h⟩
  · apply wp_ask.mpr
    refine ⟨ht, ?_⟩
    intro r u hu
    refine ⟨untouched_step (o := .inr (.create new)) hN trivial ht hu, ?_⟩
    intro hok
    cases r with
    | ok value => exact fun hnew => hu.2.1 (ht.mem hnew)
    | error message => cases hok

theorem wp_block {metadata : PitrRestoreMetadata} (hs : Untouched s₀ s) :
    wp restoring (fun _ t => Untouched s₀ t)
      (block redact ctx checked restore_id dump_path metadata)
      (fun x t => Untouched s₀ t ∧ Cautious s₀ checked.plan.new_database x) s := by
  have hN : ∀ name : DbName, (fun _ => False) name → name ∉ s₀.databases := fun _ h => h.elim
  -- A step before the creation.
  have hstep : ∀ {β : Type} {p : ExecM β} {f : β → BlockM PitrRestoreMetadata} {q : Progress}
      {s : Restoring}, p.Calls (Touches fun _ => False) → q.created_database = false →
      Untouched s₀ s → (∀ b t, Untouched s₀ t → wp restoring (fun _ t => Untouched s₀ t) (f b)
        (fun x t => Untouched s₀ t ∧ Cautious s₀ checked.plan.new_database x) t) →
      wp restoring (fun _ t => Untouched s₀ t) (during q p >>= f)
        (fun x t => Untouched s₀ t ∧ Cautious s₀ checked.plan.new_database x) s := by
    intro β p f q s hp hq hs hf
    apply wp_seq (P := fun x t => Untouched s₀ t ∧ Cautious s₀ checked.plan.new_database x)
    · apply wp_mapError.mpr
      exact wp_post (wp_touches hN hp hs) fun x t ht => ⟨ht, cautious_before hq x⟩
    · exact fun failure t ht => ⟨ht.1, cautious_error ht.2⟩
    · exact fun b t ht => hf b t ht.1
  unfold block
  apply hstep (touches_ask (by trivial)) rfl hs
  intro _ s hs
  apply hstep (touches_onArchive _) rfl hs
  intro _ s hs
  apply hstep touches_stage rfl hs
  intro staged s hs
  apply hstep (calls_ofExcept _) rfl hs
  intro recovering s hs
  apply hstep (touches_ask (by trivial)) rfl hs
  intro _ s hs
  apply hstep (touches_recover staged) rfl hs
  intro recovery s hs
  apply wp_seq (P := fun x t => Untouched s₀ t ∧ Cautious s₀ checked.plan.new_database x ∧
    (x = .ok () → checked.plan.new_database ∉ s₀.databases))
  · apply wp_mapError.mpr
    apply wp_post (wp_create_new hs)
    rintro x t ⟨ht, hnew⟩
    refine ⟨ht, cautious_before rfl x, ?_⟩
    cases x with
    | ok => exact fun _ => hnew rfl
    | error e => exact fun h => by cases h
  · exact fun failure t ht => ⟨ht.1, cautious_error ht.2.1⟩
  rintro ⟨⟩ s ⟨hs, -, hnew⟩
  have hnew := hnew rfl
  have hN : ∀ name : DbName, name = checked.plan.new_database → name ∉ s₀.databases := by
    rintro name rfl
    exact hnew
  -- From here on only the new database is touched.
  apply wp_post (wp_touches hN ?_ hs)
  · exact fun x t ht => ⟨ht, fun _ _ _ => hnew⟩
  · apply calls_bind (calls_mapError (touches_fill recovery))
    intro _
    apply calls_bind (calls_mapError (calls_ofExcept _))
    intro verified
    apply calls_bind (calls_mapError (touches_hand_off _ _))
    exact fun warning => calls_mapError (touches_note_warning _ _)

theorem touches_record_failure (progress : Progress) (e : PitrFailure) :
    (record_failure redact checked progress e).Calls (Touches N) := by
  unfold record_failure
  split
  · apply calls_bind (calls_ofExcept _)
    intro failed
    apply calls_bind (touches_ask (by trivial))
    exact fun _ => touches_onArchive _
  · exact calls_pure _

theorem touches_drop_created {progress : Progress}
    (h : progress.created_database = true → N checked.plan.new_database) :
    (drop_created checked progress).Calls (Touches N) := by
  unfold drop_created
  split
  · next hcreated =>
    apply calls_bind (calls_attempt (touches_ask (by exact h hcreated)))
    exact fun _ => calls_pure _
  · exact calls_pure _

theorem wp_handled {outcome : Except (PitrFailure × Progress) PitrRestoreMetadata}
    (hcautious : Cautious s₀ checked.plan.new_database outcome) (hs : Untouched s₀ s) :
    wp restoring (fun _ t => Untouched s₀ t) (handled redact checked outcome)
      (fun _ t => Untouched s₀ t) s := by
  cases outcome with
  | ok metadata => exact hs
  | error failure =>
    obtain ⟨e, progress⟩ := failure
    have hN : ∀ name : DbName, (progress.created_database = true ∧
        name = checked.plan.new_database) → name ∉ s₀.databases := by
      rintro name ⟨hcreated, rfl⟩
      exact hcautious (e, progress) rfl hcreated
    apply wp_touches hN _ hs
    apply calls_bind (touches_drop_created fun hcreated => ⟨hcreated, rfl⟩)
    intro _
    apply calls_bind (touches_record_failure progress e)
    exact fun _ => calls_raise _

/-- No database that existed is touched: not while it runs, not when it returns, fails or is
stopped. -/
theorem databases_untouched :
    wp restoring (fun _ t => Untouched s t) (execute_restore redact ctx database plan_id now)
      (fun _ t => Untouched s t) s := by
  have hN : ∀ name : DbName, (fun _ => False) name → name ∉ s.databases := fun _ h => h.elim
  have hstep : ∀ {β : Type} {p : ExecM β} {f : β → ExecM PitrRestoreMetadata} {t : Restoring},
      p.Calls (Touches fun _ => False) → Untouched s t →
      (∀ b u, Untouched s u → wp restoring (fun _ t => Untouched s t) (f b)
        (fun _ t => Untouched s t) u) →
      wp restoring (fun _ t => Untouched s t) (p >>= f) (fun _ t => Untouched s t) t := by
    intro β p f t hp ht hf
    exact wp_seq (wp_touches hN hp ht) (fun _ _ hu => hu) hf
  unfold execute_restore
  apply hstep (touches_onArchive _) (.refl s)
  intro checked t ht
  apply hstep (touches_onArchive _) ht
  intro token t ht
  apply hstep (calls_ofExcept _) ht
  intro metadata t ht
  apply hstep (touches_ask (by trivial)) ht
  intro _ t ht
  apply hstep (touches_ask (by trivial)) ht
  intro found t ht
  split
  · exact wp_touches hN (touches_onArchive _) ht
  apply hstep (touches_ask (by trivial)) ht
  intro _ t ht
  apply hstep (touches_ask (by trivial)) ht
  intro _ t ht
  apply wp_attempt_seq (wp_block ht)
  rintro outcome t ⟨ht, hcautious⟩
  apply wp_attempt_seq (wp_handled hcautious ht)
  intro result t ht
  apply hstep (touches_ask (by trivial)) ht
  exact fun _ t ht => wp_ofExcept.mpr ht

/-! ## A restore that returns -/

/-- A recovery of the checked plan: its base, exactly its segments, and its target. -/
structure RecoveryOf (checked : CheckedPlan) (spec : PitrRecoverySpec) : Prop where
  base : spec.base_backup = checked.base
  wal : stagedSegments spec.wal_archive = pin_segments (receipts checked)
  image : spec.postgres_image = checked.plan.recovery_image
  time : spec.target_time = checked.plan.target_time
  timeline : spec.target_timeline = checked.plan.target_timeline
  database : spec.database = checked.plan.database

/-- The pin and the records of a restore. -/
structure Durable (checked : CheckedPlan) (restore_id : String) (a : Archive) : Prop where
  pin : ∃ pin, a.pins[pin_key .restore restore_id]? = some pin ∧
    pin.base_backup_id = checked.base.base_backup_id ∧
    pin.wal_segments = pin_segments (receipts checked)
  restore : ∃ m, a.restores[restore_id]? = some m ∧ m.status = .verified ∧
    m.new_database = checked.plan.new_database
  plan : a.plans[checked.plan.plan_id]? = some (with_status checked.plan .verified)

structure Committed (s : Restoring) (checked : CheckedPlan) (restore_id : String)
    (t : Restoring) : Prop where
  was_new : checked.plan.new_database ∉ s.databases
  database : ∃ spec, t.databases[checked.plan.new_database]? = some (.recovered spec) ∧
    RecoveryOf checked spec
  durable : Durable checked restore_id t.archive

theorem wp_onArchive {p : PitrM α} {I : (Pitr.sum Exec).Op → Restoring → Prop}
    {Q : Result α → Restoring → Prop}
    (h : wp pitr (fun o a => I (.inl o) { s with archive := a }) p
      (fun r a => Q r { s with archive := a }) s.archive) : wp restoring I (onArchive p) Q s := by
  induction p generalizing s with
  | pure a => exact h
  | raise e => exact h
  | call o k ih =>
    refine ⟨h.1, ?_⟩
    rintro r t ⟨archive, hw, rfl⟩
    exact ih r (h.2 r archive hw)

/-- A program on the archive keeps what is known of the server. -/
theorem returns_onArchive {p : PitrM α} {P : Archive → Prop} {Q : α → Archive → Prop}
    {D : Restoring → Prop} (hD : ∀ t archive, D t → D { t with archive })
    (h : Returns pitr P p Q) :
    Returns restoring (fun t => P t.archive ∧ D t) (onArchive p) fun a t => Q a t.archive ∧ D t := by
  rintro t ⟨ht, hdone⟩
  apply wp_onArchive
  apply wp_post (h t.archive ht)
  intro r archive hr a ha
  exact ⟨hr a ha, hD t archive hdone⟩

theorem returns_ask {o : ExecCall} {P : Restoring → Prop} :
    Returns restoring P (ask o) fun v t =>
      ∃ u, P u ∧ ExecCall.Reads u o v ∧ ExecCall.Possible u o ∧ t = ExecCall.effect u o := by
  intro u hu
  apply wp_ask.mpr
  refine ⟨trivial, ?_⟩
  rintro (message | v) t ht
  · exact fun _ h => by cases h
  · rintro v' hv
    obtain rfl := Except.ok.inj hv
    exact ⟨u, hu, ht⟩

/-- A call that leaves alone what `P` speaks of. -/
theorem returns_ask_still {o : ExecCall} {P : Restoring → Prop}
    (h : ∀ t, P t → P (ExecCall.effect t o)) : Returns restoring P (ask o) fun _ t => P t := by
  apply returns_mono returns_ask (fun _ ht => ht)
  rintro v t ⟨u, hu, -, -, rfl⟩
  exact h u hu

theorem returns_stage {receipts : List WalReceipt} (hwal : checked.wal = named receipts) :
    Returns restoring (fun t => t.databases = s.databases) (stage checked) fun staged t =>
      stagedSegments staged = pin_segments receipts ∧ t.databases = s.databases := by
  apply returns_bind (returns_ask_still fun _ h => h)
  intro _
  apply returns_bind (returns_ask_still fun _ h => h)
  intro _
  have hstaged : Returns restoring (fun t => t.databases = s.databases)
      (onArchive (stage_wal checked.wal)) fun staged t =>
      stagedSegments staged = pin_segments receipts ∧ t.databases = s.databases := by
    intro t ht
    rw [hwal]
    have hread : Returns pitr (· = t.archive) (stage_wal (named receipts)) fun staged a =>
        (stagedSegments staged = pin_segments receipts ∧
          ∀ y ∈ staged, t.archive.wal[y.1]? = some y.2) ∧ a = t.archive := returns_stage_wal
    have hlift := returns_onArchive (D := fun t => t.databases = s.databases)
      (fun _ _ h => h) hread
    apply wp_post (hlift t ⟨rfl, ht⟩)
    intro r u hr staged hok
    obtain ⟨⟨⟨hsegments, -⟩, -⟩, hu⟩ := hr staged hok
    exact ⟨hsegments, hu⟩
  apply returns_seq hstaged
  intro staged hsegments
  split
  · exact returns_raise
  apply returns_bind (returns_ask_still fun _ h => h)
  intro same
  split
  · exact returns_pure fun t ht => ⟨hsegments, ht⟩
  · exact returns_raise

theorem returns_recover {staged : List (String × WalObject)}
    (hstaged : stagedSegments staged = pin_segments (receipts checked)) :
    Returns restoring (fun t => t.databases = s.databases) (recover checked dump_path staged)
      fun _ t => ∃ spec, RecoveryOf checked spec ∧ t.dump = some spec ∧
        t.databases = s.databases := by
  apply returns_bind returns_ask
  intro recovery
  split
  · apply returns_pure
    rintro t ⟨u, hu, -, -, rfl⟩
    exact ⟨_, ⟨rfl, hstaged, rfl, rfl, rfl, rfl⟩, rfl, hu⟩
  · exact returns_raise

theorem returns_create_new {spec : PitrRecoverySpec} :
    Returns restoring (fun t => t.dump = some spec ∧ t.databases = s.databases) (create_new new)
      fun _ t => new ∉ s.databases ∧ new ∈ t.databases ∧ t.dump = some spec := by
  apply returns_bind (returns_ask_still fun _ h => h)
  intro found
  split
  · exact returns_raise
  · apply returns_mono returns_ask (fun _ h => h)
    rintro _ t ⟨u, ⟨hdump, hsame⟩, -, hpossible, rfl⟩
    rw [ExecCall.Possible, hsame] at hpossible
    refine ⟨hpossible, ?_, hdump⟩
    exact Std.ExtTreeMap.mem_insert_self

theorem returns_fill {spec : PitrRecoverySpec} {recovery : PitrRecoveryResult} :
    Returns restoring (fun t => t.dump = some spec) (fill new recovery)
      fun _ t => t.databases[new]? = some (.recovered spec) := by
  have hrestored : Returns restoring (fun t => t.dump = some spec)
      (ask (.restore_into new recovery.dump_path))
      fun _ t => t.databases[new]? = some (.recovered spec) := by
    apply returns_mono returns_ask (fun _ h => h)
    rintro _ t ⟨u, hdump, -, -, rfl⟩
    change (u.databases.insert new _)[new]? = _
    rw [Std.ExtTreeMap.getElem?_insert_self, hdump]
    rfl
  apply returns_bind hrestored
  intro _
  apply returns_bind (returns_ask_still fun _ h => h)
  exact fun _ => returns_ask_still fun _ h => h

theorem returns_pin {kind : PinKind} {pin_id environment base_backup_id : String}
    {segments : List PitrPinnedWal} :
    Returns pitr (fun _ => True) (create_pitr_pin kind pin_id environment base_backup_id segments)
      fun pin a => a.pins[pin_key kind pin_id]? = some pin := by
  unfold create_pitr_pin
  split
  · exact returns_raise
  · intro a _
    refine wp_perform.mpr ⟨trivial, ?_⟩
    rintro (e | pin) b hw
    · exact fun _ h => by cases h
    · obtain ⟨⟨rfl, hstored⟩, rfl⟩ := hw
      rintro pin ⟨⟩
      change (a.pins.insertIfNew (pin_key kind pin_id) _)[pin_key kind pin_id]? = _
      rw [Std.ExtTreeMap.getElem?_insertIfNew]
      split
      · rfl
      · next hold =>
        have hmem : pin_key kind pin_id ∈ a.pins := by
          by_contra hnew
          exact hold ⟨Std.ReflCmp.compare_self, hnew⟩
        rw [Std.ExtTreeMap.mem_iff_isSome_getElem?] at hmem
        obtain ⟨stored, hsome⟩ := Option.isSome_iff_exists.mp hmem
        rw [hsome, hstored stored hsome]

theorem pin_key_ne {plan_id : String} : pin_key .plan plan_id ≠ pin_key .restore restore_id := by
  intro h
  have hhead := congrArg (fun s : String => s.toList.head?) h
  simp [pin_key, PinKind.text] at hhead

/-- Whatever it replies, the call keeps `K`. -/
def Keeps (K : Restoring → Prop) (o : (Pitr.sum Exec).Op) : Prop :=
  ∀ u r t, K u → restoring o u r t → K t

theorem wp_keeping {K : Restoring → Prop} {p : ExecM α} (h : p.Calls (Keeps K)) (hs : K s) :
    wp restoring (fun _ _ => True) p (fun _ t => K t) s :=
  wp_keeps h hs (fun _ _ _ _ => trivial) fun _ _ _ _ ho hu hstep => ho _ _ _ hu hstep

theorem keeps_lease {K : Restoring → Prop} {o : PitrCall} (hstill : ∀ a, o.effect a = a) :
    (onArchive (request o)).Calls (Keeps K) := by
  apply calls_left
  apply calls_perform.mpr
  rintro u r t hu ⟨archive, hw, rfl⟩
  have hsame : archive = u.archive := by
    cases r with
    | ok v => exact hw.2.trans (hstill _)
    | error e =>
      rcases hw with hw | hw
      · exact hw
      · exact hw.trans (hstill _)
  rw [hsame]
  exact hu

section Publishing

variable {spec : PitrRecoverySpec} {m : PitrRestoreMetadata} {warning : Option String}

def Filled (checked : CheckedPlan) (spec : PitrRecoverySpec) (t : Restoring) : Prop :=
  t.databases[checked.plan.new_database]? = some (.recovered spec)

def Handed (checked : CheckedPlan) (restore_id : String) (spec : PitrRecoverySpec)
    (t : Restoring) : Prop := Durable checked restore_id t.archive ∧ Filled checked spec t

theorem returns_any {p : PitrM α} {P : Archive → Prop} : Returns pitr P p fun _ _ => True :=
  fun a _ => wp_post (wp_true p a) fun _ _ _ _ _ => trivial

theorem filled_onArchive (p : PitrM α) :
    Returns restoring (Filled checked spec) (onArchive p) fun _ t => Filled checked spec t := by
  have hlift := returns_onArchive (D := Filled checked spec) (fun _ _ h => h)
    (returns_any (p := p) (P := fun _ => True))
  exact returns_mono hlift (fun t ht => ⟨trivial, ht⟩) fun _ _ ht => ht.2

theorem durable_release {a : Archive} {plan_id : String} (h : Durable checked restore_id a) :
    Durable checked restore_id { a with pins := a.pins.erase (pin_key .plan plan_id) } := by
  refine ⟨?_, h.restore, h.plan⟩
  obtain ⟨pin, hpin, hfacts⟩ := h.pin
  refine ⟨pin, ?_, hfacts⟩
  rw [Std.ExtTreeMap.getElem?_erase, if_neg (by simpa using pin_key_ne)]
  exact hpin

theorem keeps_release {plan_id : String} :
    (ask (.release_pitr_pin .plan plan_id)).Calls (Keeps (Handed checked restore_id spec)) := by
  apply calls_right
  apply calls_perform.mpr
  rintro u r t hu hw
  have hreleased : Durable checked restore_id
      (ExecCall.effect u (.release_pitr_pin .plan plan_id)).archive := durable_release hu.1
  cases r with
  | ok v =>
    obtain ⟨-, -, rfl⟩ := hw
    exact ⟨hreleased, hu.2⟩
  | error e =>
    rcases hw with rfl | ⟨-, rfl⟩
    · exact hu
    · exact ⟨hreleased, hu.2⟩

/-- What is published: the pin, then the record of the restore, then that of the plan. -/
theorem returns_publish (hm : m.status = .verified ∧ m.restore_id = restore_id ∧
      m.new_database = checked.plan.new_database) :
    Returns restoring (Filled checked spec)
      (publish redact ctx checked restore_id m (with_status checked.plan .verified))
      fun _ t => Handed checked restore_id spec t := by
  apply returns_bind (filled_onArchive _)
  intro plan_pin
  apply returns_ofExcept_seq
  intro _ _
  have hcreate : Returns pitr (fun _ => True) (create_pitr_pin .restore restore_id ctx.environment
      checked.base.base_backup_id (pin_segments (receipts checked)))
      fun pin a => a.pins[pin_key .restore restore_id]? = some pin := returns_pin
  have hpin := returns_onArchive (D := Filled checked spec) (fun _ _ h => h) hcreate
  apply returns_bind (returns_mono hpin (fun t ht => ⟨trivial, ht⟩) fun _ _ ht => ht)
  intro pin
  apply returns_ofExcept_seq
  intro _ hassert
  obtain ⟨-, -, -, hbase, hsegments⟩ := assert_remote_pin_eq_ok.mp hassert
  have hrestore : Returns restoring
      (fun t => t.archive.pins[pin_key .restore restore_id]? = some pin ∧ Filled checked spec t)
      (ask (.save_pitr_restore m)) fun _ t =>
        (t.archive.pins[pin_key .restore restore_id]? = some pin ∧
          t.archive.restores[restore_id]? = some m) ∧ Filled checked spec t := by
    apply returns_mono returns_ask (fun _ h => h)
    rintro _ t ⟨u, ⟨hpin, hfilled⟩, -, -, rfl⟩
    refine ⟨⟨hpin, ?_⟩, hfilled⟩
    change (u.archive.restores.insert m.restore_id m)[restore_id]? = some m
    rw [hm.2.1, Std.ExtTreeMap.getElem?_insert_self]
  apply returns_bind hrestore
  intro _
  have hplan : Returns pitr
      (fun a => a.pins[pin_key .restore restore_id]? = some pin ∧ a.restores[restore_id]? = some m)
      (request (.save_pitr_recovery_plan (with_status checked.plan .verified)))
      fun _ a => Durable checked restore_id a := by
    apply returns_effect
    rintro a ⟨hpin, hrestore⟩
    refine ⟨⟨pin, hpin, hbase, hsegments⟩, ⟨m, hrestore, hm.1, hm.2.2⟩, ?_⟩
    exact Std.ExtTreeMap.getElem?_insert_self
  apply returns_bind (returns_onArchive (D := Filled checked spec) (fun _ _ h => h) hplan)
  intro _ t ht
  have hkeeps : (do
      onArchive renew
      ask (.release_pitr_pin .plan checked.plan.plan_id) : ExecM Unit).Calls
        (Keeps (Handed checked restore_id spec)) :=
    calls_bind (keeps_lease fun _ => rfl) fun _ => keeps_release
  apply wp_attempt_seq (wp_keeping hkeeps ht)
  intro released u hu
  cases released with
  | ok => exact fun _ _ => hu
  | error e => exact fun _ _ => hu

theorem returns_hand_off (hm : m.status = .verified ∧ m.restore_id = restore_id ∧
      m.new_database = checked.plan.new_database) :
    Returns restoring (Filled checked spec)
      (hand_off redact ctx checked restore_id m (with_status checked.plan .verified))
      fun _ t => Handed checked restore_id spec t := by
  apply returns_bind (filled_onArchive _)
  have hpublish : Returns restoring (Filled checked spec)
      (publish redact ctx checked restore_id m (with_status checked.plan .verified))
      fun _ t => Handed checked restore_id spec t := returns_publish hm
  intro _ t ht
  apply wp_attempt_seq (hpublish t ht)
  intro published t hpublished
  cases published with
  | error e =>
    apply wp_attempt_seq (wp_true _ t)
    intro released u _
    cases released with
    | ok => exact fun _ h => by cases h
    | error e => exact fun _ h => by cases h
  | ok warning =>
    apply wp_attempt_seq (wp_keeping (keeps_lease fun _ => rfl) (hpublished warning rfl))
    intro released u hu
    cases released with
    | ok => exact fun _ _ => hu
    | error e => exact fun _ _ => hu

theorem updated_ok {m' : PitrRestoreMetadata} {f : PitrRestoreFields → PitrRestoreFields}
    (h : updated m f = .ok m') : m'.toPitrRestoreFields = f m.toPitrRestoreFields := by
  unfold updated validated_update model_validate at h
  split at h
  · exact congrArg PitrRestoreMetadata.toPitrRestoreFields (Except.ok.inj h).symm
  · cases h

/-- A record of the same restore that is saved in place of the other changes nothing. -/
theorem keeps_save (hm : m.status = .verified ∧ m.restore_id = restore_id ∧
      m.new_database = checked.plan.new_database) :
    (ask (.save_pitr_restore m)).Calls (Keeps (Handed checked restore_id spec)) := by
  apply calls_right
  apply calls_perform.mpr
  rintro u r t hu hw
  have hsaved : Handed checked restore_id spec (ExecCall.effect u (.save_pitr_restore m)) := by
    refine ⟨⟨hu.1.pin, ⟨m, ?_, hm.1, hm.2.2⟩, hu.1.plan⟩, hu.2⟩
    change (u.archive.restores.insert m.restore_id m)[restore_id]? = some m
    rw [hm.2.1, Std.ExtTreeMap.getElem?_insert_self]
  cases r with
  | ok v =>
    obtain ⟨-, -, rfl⟩ := hw
    exact hsaved
  | error e =>
    rcases hw with rfl | ⟨-, rfl⟩
    · exact hu
    · exact hsaved

theorem returns_note_warning (hm : m.status = .verified ∧ m.restore_id = restore_id ∧
      m.new_database = checked.plan.new_database) :
    Returns restoring (Handed checked restore_id spec) (note_warning m warning)
      fun _ t => Handed checked restore_id spec t := by
  cases warning with
  | none => exact returns_pure fun _ h => h
  | some warning =>
    apply returns_ofExcept_seq
    intro warned hwarned t ht
    have hfields := updated_ok hwarned
    have hfacts : warned.status = .verified ∧ warned.restore_id = restore_id ∧
        warned.new_database = checked.plan.new_database := by
      rw [hfields]
      exact hm
    apply wp_attempt_seq (wp_keeping (keeps_save hfacts) ht)
    exact fun _ _ hu _ _ => hu

/-- The fields that no step changes. -/
structure Identified (checked : CheckedPlan) (restore_id : String) (m : PitrRestoreMetadata) :
    Prop where
  restore_id : m.restore_id = restore_id
  new_database : m.new_database = checked.plan.new_database

theorem returns_during_ofExcept {P : Restoring → Prop} {post : β → Restoring → Prop}
    {r : Result α} {q : Progress} {f : α → BlockM β}
    (h : ∀ a, r = .ok a → Returns restoring P (f a) post) :
    Returns restoring P (during q (.ofExcept r) >>= f) post := by
  cases r with
  | error e => exact returns_raise
  | ok a => exact h a rfl

theorem returns_block (hwal : checked.wal = named (receipts checked))
    (hm : Identified checked restore_id m) :
    Returns restoring (fun t => t.databases = s.databases)
      (block redact ctx checked restore_id dump_path m)
      fun _ t => Committed s checked restore_id t := by
  unfold block
  apply returns_bind (returns_mapError (returns_ask_still fun _ h => h))
  intro _
  have hexecuting := returns_onArchive (D := fun t => t.databases = s.databases)
    (fun _ _ h => h) (returns_any (P := fun _ => True)
      (p := request (.save_pitr_recovery_plan (with_status checked.plan .executing))))
  apply returns_bind (returns_mapError (returns_mono hexecuting (fun _ ht => ⟨trivial, ht⟩)
    fun _ _ ht => ht.2))
  intro _
  apply returns_seq (returns_mapError (returns_stage hwal))
  intro staged hstaged
  apply returns_during_ofExcept
  intro recovering hrecovering
  have hrecovering := updated_ok hrecovering
  apply returns_bind (returns_mapError (returns_ask_still fun _ h => h))
  intro _
  apply returns_bind (returns_mapError (returns_recover hstaged))
  rintro recovery t ⟨spec, hspec, hdump, hsame⟩
  suffices hrest : Returns restoring (fun t => t.dump = some spec ∧ t.databases = s.databases) _ _ from
    hrest t ⟨hdump, hsame⟩
  apply returns_seq (returns_mapError returns_create_new)
  intro _ hnew
  have hfill : Returns restoring (fun t => t.dump = some spec)
      (fill checked.plan.new_database recovery) fun _ t => Filled checked spec t := returns_fill
  apply returns_bind (returns_mapError (returns_mono hfill (fun _ ht => ht.2) fun _ _ ht => ht))
  intro _
  apply returns_during_ofExcept
  intro verified hverified
  have hverified := updated_ok hverified
  have hfacts : verified.status = .verified ∧ verified.restore_id = restore_id ∧
      verified.new_database = checked.plan.new_database := by
    rw [hverified, hrecovering]
    exact ⟨rfl, hm.restore_id, hm.new_database⟩
  apply returns_bind (returns_mapError (returns_hand_off hfacts))
  intro warning
  apply returns_mono (returns_mapError (returns_note_warning hfacts)) (fun _ ht => ht)
  exact fun _ t ht => ⟨hnew, ⟨spec, ht.2, hspec⟩, ht.1⟩

theorem handled_raises {failure : PitrFailure × Progress} :
    wp restoring (fun _ _ => True) (handled redact checked (.error failure))
      (fun x _ => ∀ m, x ≠ .ok m) s := by
  apply wp_seq (wp_true _ s)
  · rintro e t - m ⟨⟩
  intro _ t _
  apply wp_seq (wp_true _ t)
  · rintro e t - m ⟨⟩
  · rintro _ t - m ⟨⟩

theorem returns_run_restore (hwal : checked.wal = named (receipts checked))
    (hm : Identified checked restore_id m) :
    Returns restoring (fun t => t.databases = s.databases)
      (run_restore redact ctx checked restore_id dump_path m)
      fun _ t => Committed s checked restore_id t := by
  intro t ht
  apply wp_attempt_seq (returns_block hwal hm t ht)
  intro outcome t hblock
  cases outcome with
  | error failure =>
    apply wp_attempt_seq handled_raises
    intro result t hraised
    apply wp_seq (wp_true _ t)
    · rintro e t - m ⟨⟩
    intro _ t _
    apply wp_ofExcept.mpr
    exact fun m h => absurd h (hraised m)
  | ok m' =>
    have hhandled : wp restoring (fun _ _ => True) (handled redact checked (.ok m'))
        (fun _ u => Committed s checked restore_id u) t := hblock m' rfl
    have hremoved : Returns restoring (Committed s checked restore_id)
        (ask (.remove_staging restore_id)) fun _ t => Committed s checked restore_id t :=
      returns_ask_still fun _ h => h
    apply wp_attempt_seq hhandled
    intro result t hcommitted
    apply wp_seq (hremoved t hcommitted)
    · rintro e t - m ⟨⟩
    intro _ t ht
    apply wp_ofExcept.mpr
    exact fun _ _ => ht () rfl

theorem returns_execute_restore :
    Returns restoring (· = s) (execute_restore redact ctx database plan_id now) fun _ t =>
      ∃ checked restore_id, (∃ receipts, Checked s.archive plan_id checked receipts) ∧
        Committed s checked restore_id t := by
  have hread : Returns pitr (· = s.archive) (check_plan ctx database plan_id) fun checked a =>
      (∃ receipts, Checked s.archive plan_id checked receipts) ∧ a = s.archive :=
    returns_check_plan
  have hcheck := returns_onArchive (D := fun t => t.databases = s.databases) (fun _ _ h => h) hread
  have hcheck : Returns restoring (· = s) (onArchive (check_plan ctx database plan_id))
      fun checked t => (∃ receipts, Checked s.archive plan_id checked receipts) ∧
        t.databases = s.databases := by
    apply returns_mono hcheck
    · rintro t rfl
      exact ⟨rfl, rfl⟩
    · exact fun checked t ht => ⟨ht.1.1, ht.2⟩
  apply returns_seq hcheck
  rintro checked ⟨found, hchecked⟩
  have hwal : checked.wal = named (receipts checked) := by
    rw [receipts, hchecked.wal]
    simp [named, Function.comp_def]
  have htoken := returns_onArchive (D := fun t => t.databases = s.databases)
    (fun _ _ h => h) (returns_any (P := fun _ => True) (p := request (.token_hex 12)))
  apply returns_bind (returns_mono htoken (fun _ ht => ⟨trivial, ht⟩) fun _ _ ht => ht.2)
  intro token
  apply returns_ofExcept_seq
  intro metadata hmetadata
  have hm : Identified checked (ctx.environment ++ "_pitr_restore_" ++ token) metadata := by
    unfold pending_restore model_validate at hmetadata
    split at hmetadata
    · rw [← Except.ok.inj hmetadata]
      exact ⟨rfl, rfl⟩
    · cases hmetadata
  apply returns_bind (returns_ask_still fun _ h => h)
  intro _
  apply returns_bind (returns_ask_still fun _ h => h)
  intro found
  split
  · exact returns_raise
  apply returns_bind (returns_ask_still fun _ h => h)
  intro _
  apply returns_bind (returns_ask_still fun _ h => h)
  intro _
  apply returns_mono (returns_run_restore hwal hm) (fun _ ht => ht)
  exact fun _ t ht => ⟨checked, _, ⟨_, hchecked⟩, ht⟩

end Publishing

/-! ## A restore that succeeds -/

open PitrRetentionSafety (exampleContext)

/-- The runtime has paused at the target. -/
def paused (spec : PitrRecoverySpec) (output : String) : PitrRecoveryResult where
  dump_path := output
  database := spec.database
  target_time := spec.target_time
  target_timeline := toString spec.target_timeline
  status := ⟨true, true, spec.target_timeline, some ⟨0, 0⟩, some spec.target_time⟩
  postgres_image := spec.postgres_image

def answer (s : Restoring) : (o : ExecCall) → o.Value
  | .staging_exists _ => false
  | .has_identity _ => true
  | .database_exists name => decide (name ∈ s.databases)
  | .recover_and_dump spec output => paused spec output
  | .make_staging_root | .make_staging _ | .make_db_adapter | .save_pitr_restore _ => ()
  | .download_base_backup _ | .make_wal_root | .create _ | .restore_into _ _ | .ping _ => ()
  | .psql _ | .drop _ | .release_pitr_pin _ _ | .remove_staging _ => ()

def refused (s : Restoring) : ExecCall → Bool
  | .create name => name ∈ s.databases
  | .restore_into name _ => name ∉ s.databases
  | _ => false

def serve : (o : (Pitr.sum Exec).Op) → Restoring → (Pitr.sum Exec).Reply o × Restoring
  | .inl o, s =>
    ((PitrArchive.serve o s.archive).1, { s with archive := (PitrArchive.serve o s.archive).2 })
  | .inr o, s =>
    if refused s o then (.error "refused", s) else (.ok (answer s o), ExecCall.effect s o)

theorem restoring_serve (o : (Pitr.sum Exec).Op) (s : Restoring) :
    restoring o s (serve o s).1 (serve o s).2 := by
  cases o with
  | inl o => exact ⟨_, pitr_serve o s.archive, rfl⟩
  | inr o =>
    by_cases hrefused : refused s o = true
    · have hserve : serve (.inr o) s = (.error "refused", s) := if_pos hrefused
      rw [hserve]
      exact .inl rfl
    · have hserve : serve (.inr o) s = (.ok (answer s o), ExecCall.effect s o) := if_neg hrefused
      rw [hserve]
      refine ⟨?_, ?_, rfl⟩
      · cases o <;> first | trivial | exact decide_eq_true_iff
      · cases o <;> first | trivial | simpa [refused, ExecCall.Possible] using hrefused

def plannedServer : Restoring := ⟨planningRun.2, ∅, none⟩

def restoreRun : Except PitrFailure PitrRestoreMetadata × Restoring :=
  (execute_restore id (exampleContext 1) "acme" "production_pitr_plan_5ca1ab1e5ca1ab1e" 2000).run
    serve plannedServer

theorem restore_verified : restoreRun.1.toOption.map (·.status) = some .verified := by
  decide +kernel

end RestoreOutcomes
