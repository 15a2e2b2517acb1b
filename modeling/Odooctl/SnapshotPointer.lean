import Mathlib.Data.List.Find
import Odooctl.SnapshotIndex

/-!
# The pointer to the latest snapshot

Every save of a manifest also writes it as the latest of its environment, and a reconciliation
saves whichever manifest it was given.
-/
namespace SnapshotPointer

open EffectPrograms ProgramRules SnapshotService SnapshotIndex

/-- The snapshot is saved in full and of the environment. -/
def recorded (s : Index) (environment id : String) : Bool :=
  id ∈ s.saved && (s.files id).any fun m => m.environment = environment

def newest (s : Index) (environment : String) : Option String :=
  s.created.find? (recorded s environment)

def PointsToNewest (s : Index) : Prop :=
  ∀ environment, (s.files (latest_stem environment)).map (·.snapshot_id) = newest s environment

/-- No snapshot of the environment that was created after this one has been saved. -/
def IsNewest (s : Index) (id environment : String) : Prop :=
  ∀ other ∈ s.created.takeWhile (· ≠ id), recorded s environment other = false

inductive Call (F : Interface) where
  | create (ctx : ServiceContext) (environment trigger : String)
      (portable_backup_id : Option String) (provider : Option (SnapshotProvider F))
  | reconcile (ctx : ServiceContext) (snapshot_id : String) (expected_environment : Option String)
      (provider : Option (SnapshotProvider F))

variable {F : Interface} {τ : Type}
  (make_snapshot_provider : ServiceContext → Except String (SnapshotProvider F))

def Call.body : Call F → ServiceM F SnapshotManifest
  | .create ctx environment trigger portable_backup_id provider =>
    run_snapshot_create make_snapshot_provider ctx environment trigger portable_backup_id provider
  | .reconcile ctx snapshot_id expected_environment provider =>
    run_snapshot_reconcile make_snapshot_provider ctx snapshot_id expected_environment provider

/-- A reconciliation that gets past its checks is of the newest snapshot. -/
def InOrder : Call F → Index × τ → Prop
  | .create .., _ => True
  | .reconcile ctx snapshot_id expected_environment provider, t =>
    ∀ m provider', t.1.files snapshot_id = some m → m.snapshot_id = snapshot_id →
      m.project = ctx.config.project_name →
      check_reconcile make_snapshot_provider ctx snapshot_id expected_environment provider m =
        .ok provider' →
      IsNewest t.1 snapshot_id m.environment

section Writes

variable {s : Index} {m : SnapshotManifest} {id environment other : String}

theorem recorded_file (hs : Sound s) (ho : Owns s m.snapshot_id m.environment) :
    recorded (s.written m.snapshot_id m) environment other = recorded s environment other := by
  have hsaved : (s.written m.snapshot_id m).saved = s.saved :=
    saved_other (hs.plain _ ho.created _)
  by_cases hsame : other = m.snapshot_id
  · subst hsame
    by_cases hmem : m.snapshot_id ∈ s.saved
    · obtain ⟨-, n, hn⟩ := hs.on_disk _ hmem
      simp [recorded, hsaved, files_self, hn, ho.environment n hn]
    · simp [recorded, hsaved, hmem]
  · simp [recorded, hsaved, files_other hsame]

theorem recorded_latest (hs : Sound s) (hdisk : s.files m.snapshot_id = some m)
    (hother : other ∈ s.created) :
    recorded (s.written (latest_stem m.environment) m) environment other =
      (recorded s environment other || (other = m.snapshot_id ∧ m.environment = environment)) := by
  rw [recorded, recorded, saved_latest, files_other (hs.plain other hother _)]
  by_cases hsame : other = m.snapshot_id
  · simp [hsame, hdisk]
  · simp [hsame]

theorem ne_of_newer {l : List String} (h : other ∈ l.takeWhile (· ≠ id)) : other ≠ id := by
  have hall := List.all_eq_true.mp (List.all_takeWhile (p := fun x : String => x ≠ id) (l := l))
  simpa using hall other h

theorem find_of_takeWhile {l : List String} {p : String → Bool} (hid : id ∈ l)
    (hp : p id = true) (h : ∀ other ∈ l.takeWhile (· ≠ id), p other = false) :
    l.find? p = some id := by
  induction l with
  | nil => cases hid
  | cons x l ih =>
    by_cases hx : x = id
    · rw [hx, List.find?_cons_of_pos hp]
    · have hsplit : (x :: l).takeWhile (· ≠ id) = x :: l.takeWhile (· ≠ id) := by simp [hx]
      rw [hsplit] at h
      have hpx : ¬ p x = true := by simp [h x List.mem_cons_self]
      rw [List.find?_cons_of_neg hpx]
      exact ih ((List.mem_cons.mp hid).resolve_left (Ne.symm hx)) fun other hother =>
        h other (List.mem_cons_of_mem _ hother)

theorem points_file (hs : Sound s) (ho : Owns s m.snapshot_id m.environment)
    (h : PointsToNewest s) : PointsToNewest (s.written m.snapshot_id m) := by
  intro environment
  have hfile : (s.written m.snapshot_id m).files (latest_stem environment) =
      s.files (latest_stem environment) :=
    files_other (hs.plain _ ho.created environment).symm
  rw [hfile, h environment]
  exact List.find?_congr fun other _ => (recorded_file hs ho).symm

theorem points_latest (hs : Sound s) (hid : m.snapshot_id ∈ s.created)
    (hdisk : s.files m.snapshot_id = some m) (hnew : IsNewest s m.snapshot_id m.environment)
    (h : PointsToNewest s) : PointsToNewest (s.written (latest_stem m.environment) m) := by
  intro environment
  by_cases henv : m.environment = environment
  · subst henv
    rw [files_self]
    refine (find_of_takeWhile hid ?_ ?_).symm
    · rw [recorded_latest hs hdisk hid]
      simp
    · intro other hother
      rw [recorded_latest hs hdisk (List.takeWhile_subset _ hother), hnew other hother]
      simp [ne_of_newer hother]
  · have hfile : (s.written (latest_stem m.environment) m).files (latest_stem environment) =
        s.files (latest_stem environment) :=
      files_other fun heq => henv (latest_stem_inj heq).symm
    rw [hfile, h environment]
    refine List.find?_congr fun other hother => ?_
    rw [recorded_latest hs hdisk hother]
    simp [henv]

end Writes

/-- A run that holds a manifest holds the newest of its environment. -/
theorem asserts_newest : Asserts
    (fun m s => PointsToNewest s ∧ IsNewest s m.snapshot_id m.environment) PointsToNewest where
  file := by
    rintro m s hs ho ⟨hp, hn⟩
    refine ⟨points_file hs ho hp, fun other hother => ?_⟩
    rw [recorded_file hs ho]
    exact hn other hother
  latest := by
    rintro m s hs ho hdisk ⟨hp, hn⟩
    refine ⟨points_latest hs ho.created hdisk hn hp, fun other hother => ?_⟩
    rw [recorded_latest hs hdisk (List.takeWhile_subset _ hother), hn other hother]
    simp [ne_of_newer hother]
  last_error := fun _ _ _ h => h
  always := fun _ _ h => h.1

variable {make_snapshot_provider} {V : World F τ} {t : Index × τ}

theorem points_chosen {s : Index} {id : String} (hfile : s.files id = none)
    (h : PointsToNewest s) : PointsToNewest (s.choose id) := by
  intro environment
  have hnot : recorded s environment id = false := by simp [recorded, hfile]
  refine (h environment).trans ?_
  change _ = (id :: s.created).find? (recorded s environment)
  rw [List.find?_cons_of_neg (by simp [hnot])]
  rfl

/-- Whatever a provider reports leaves the manifest its id and its environment. -/
theorem wp_reports {q : Prog (F.sum Progress) CreateFailure ProviderSnapshot}
    {v : τ × SnapshotManifest} :
    wp (V.sum progressWorld)
      (Advances fun m s => PointsToNewest s ∧ IsNewest s m.snapshot_id m.environment) q
      (Concludes fun m s => PointsToNewest s ∧ IsNewest s m.snapshot_id m.environment) v := by
  refine wp_mono (wp_true q v) ?_ ?_
  · rintro (o | p) u -
    · trivial
    · exact fun _ _ _ h => h
  · rintro (exc | created) u -
    · exact fun _ _ _ _ _ h => h
    · exact fun _ _ _ h => h

theorem safe_body (c : Call F) (hs : Sound t.1) (hp : PointsToNewest t.1)
    (hc : InOrder make_snapshot_provider c t) :
    Safe PointsToNewest V (c.body make_snapshot_provider) t := by
  cases c with
  | create ctx environment trigger portable_backup_id provider =>
    refine safe_create asserts_newest ⟨hs, hp⟩ ?_ ?_
    · exact fun stamp hfresh => points_chosen (hs.fresh hfresh) hp
    · intro stamp hfresh m hid _ _ _
      refine ⟨⟨points_chosen (hid ▸ hs.fresh hfresh) hp, ?_⟩, fun _ _ _ _ => wp_reports⟩
      intro other hother
      rw [Index.choose, List.takeWhile_cons_of_neg (by simp)] at hother
      cases hother
  | reconcile ctx snapshot_id expected_environment provider =>
    refine safe_reconcile asserts_newest ⟨hs, hp⟩ fun m provider' hm hid hproject hcheck => ?_
    have hnewest := hc m provider' hm hid hproject hcheck
    subst hid
    refine ⟨⟨hs, ⟨hs.named _ m hm, fun n hn => ?_⟩, hp, hnewest⟩, ?_⟩
    · rw [Option.some.inj (hn.symm.trans hm)]
    · exact wp_mono (wp_true _ _) (fun _ _ _ => trivial) fun r u _ _ _ _ _ _ h => h

/-- In every session of creations and reconciliations, stopped anywhere, the pointer of an
environment names the newest snapshot that has been saved, as long as no reconciliation is of
an older one. -/
theorem pointer_names_newest {v : τ} (h : Session (indexWorld.sum V) (fun s t => t.1 = s.1)
    (InOrder make_snapshot_provider) (Call.body make_snapshot_provider) (Index.empty, v) t) :
    PointsToNewest t.1 ∧
      ((∀ id ∈ t.1.created, ∀ m, t.1.files id = some m → id ∈ t.1.saved) → ∀ environment,
        (t.1.files (latest_stem environment)).map (·.snapshot_id) =
          t.1.created.find? fun id => (t.1.files id).any fun m => m.environment = environment) := by
  have hinv : Sound t.1 ∧ PointsToNewest t.1 := by
    refine h.invariant ⟨sound_empty, fun _ => rfl⟩ ?_ fun c u hu hc => safe_body c hu.1 hu.2 hc
    rintro u w hu hw
    rw [hw]
    exact hu
  refine ⟨hinv.2, fun hfull environment => (hinv.2 environment).trans ?_⟩
  refine List.find?_congr fun id hid => ?_
  cases hfile : t.1.files id with
  | none => simp [recorded, hfile]
  | some m => simp [recorded, hfile, hfull id hid m hfile]

/-! ## Reconciling an older snapshot -/

/-- A provider that asks nobody. -/
abbrev Idle : Interface := ⟨Empty, Empty.elim⟩

def volumeSnapshot : ProviderSnapshot where
  source_resource_id := "i-0a1b2c3d4e5f60718"
  resources := [{ snapshot_resource_id := some "snap-1", source_resource_id := "vol-1",
                  kind := "ebs_volume" }]
  scope := ["ec2_instance_all_attached_ebs_volumes"]
  consistency := .crash_consistent
  recovery_notes := []

def volumeProvider : SnapshotProvider Idle where
  create _ := .pure volumeSnapshot
  reconcile _ := .pure volumeSnapshot

def serve : (o : (Files.sum Idle).Op) → Index × Unit → (Files.sum Idle).Reply o × (Index × Unit)
  | .inl o, t => ((serveFiles o t.1).1, ((serveFiles o t.1).2, t.2))
  | .inr o, _ => o.elim

abbrev idleWorld : World Idle Unit := fun o => o.elim

theorem serve_world (o : (Files.sum Idle).Op) (t : Index × Unit) :
    (indexWorld.sum idleWorld) o t (serve o t).1 (serve o t).2 := by
  obtain o | o := o
  · exact ⟨serveFiles_world o t.1, rfl⟩
  · cases o

def noProvider (_ : ServiceContext) : Except String (SnapshotProvider Idle) := .error "none"

def creation : Call Idle := .create shopContext "production" "explicit" none (some volumeProvider)

def reconciliation (snapshot_id : String) : Call Idle :=
  .reconcile shopContext snapshot_id (some "production") (some volumeProvider)

def after (t : Index × Unit) (c : Call Idle) : Index × Unit :=
  ((c.body noProvider).run serve t).2

theorem steps_after (t : Index × Unit) (c : Call Idle) :
    ∃ q, Steps (indexWorld.sum idleWorld) t (c.body noProvider) (after t c) q :=
  ⟨_, ends_run serve_world (c.body noProvider) t⟩

/-- The index after two creations. -/
def twoSnapshots : Index × Unit := after (after (Index.empty, ()) creation) creation

def firstId : String := "production-20260101T000000Z-00000000"

def secondId : String := "production-20260102T000000Z-00000000"

/-- Two creations one after the other, and then the second snapshot reconciled. -/
theorem pointer_names_newest_reconciled :
    PointsToNewest (after twoSnapshots (reconciliation secondId)).1 := by
  obtain ⟨q₁, h₁⟩ := steps_after (Index.empty, ()) creation
  obtain ⟨q₂, h₂⟩ := steps_after (after (Index.empty, ()) creation) creation
  obtain ⟨q₃, h₃⟩ := steps_after twoSnapshots (reconciliation secondId)
  have hcreate : ∀ t : Index × Unit, InOrder noProvider creation t := fun _ => trivial
  have horder : InOrder noProvider (reconciliation secondId) twoSnapshots := by
    intro m provider' hm _ _ _ other hother
    have hnone : twoSnapshots.1.created.takeWhile (· ≠ secondId) = [] := by decide +kernel
    rw [hnone] at hother
    cases hother
  exact (pointer_names_newest
    (.call (.call (.call (.refl _) (hcreate _) h₁) (hcreate _) h₂) horder h₃)).1

/-- The first of two snapshots is reconciled, and is the latest from then on. -/
theorem older_snapshot_becomes_latest :
    ∃ t, Session (indexWorld.sum idleWorld) (fun s t => t.1 = s.1) (fun _ _ => True)
        (Call.body noProvider) (Index.empty, ()) t ∧
      (t.1.files "production-latest").map (·.snapshot_id) = some firstId ∧
      newest t.1 "production" = some secondId ∧ ¬ PointsToNewest t.1 := by
  obtain ⟨q₁, h₁⟩ := steps_after (Index.empty, ()) creation
  obtain ⟨q₂, h₂⟩ := steps_after (after (Index.empty, ()) creation) creation
  obtain ⟨q₃, h₃⟩ := steps_after twoSnapshots (reconciliation firstId)
  refine ⟨_, .call (.call (.call (.refl _) trivial h₁) trivial h₂) trivial h₃, ?_, ?_, ?_⟩
  · decide +kernel
  · decide +kernel
  · intro h
    exact absurd (h "production") (by decide +kernel)

end SnapshotPointer
