import Odooctl.EnvironmentLocks

/-!
# Mutual exclusion of the lock

Each file has one creator, so a live holder whose file is still there is the only one. A file
read as stale stays the file of dead threads for as long as it is there.
-/
namespace LockExclusion

open EffectPrograms InterleavedPrograms EnvironmentLocks

variable {ι : Type}

/-! ## What holds of the lock file -/

/-- While `i` lives, its file `n` is the lock file. -/
def Mine (i : ι) (n : ℕ) (s : Disk ι) : Prop :=
  s.alive i = true → ∃ f, s.file = some f ∧ f.serial = n ∧ f.creator = some i

structure Sound (pid : ι → ℕ) (s : Disk ι) : Prop where
  held : ∀ i n, s.holds i = some n → Mine i n s
  named : ∀ f i p, s.file = some f → f.creator = some i → f.payload = some p → p.pid = pid i
  fresh : ∀ f, s.file = some f → f.serial < s.created

/-- File `n` exists already and its creator, if it is still there, satisfies `P`. -/
def CreatedBy (P : ι → Prop) (n : ℕ) (s : Disk ι) : Prop :=
  n < s.created ∧ ∀ f i, s.file = some f → f.serial = n → f.creator = some i → P i

def Doomed (n : ℕ) (s : Disk ι) : Prop := CreatedBy (fun i => s.alive i = false) n s

/-- What the other threads and deaths leave to thread `i`. -/
structure Around (i : ι) (s t : Disk ι) : Prop where
  read : t.read i = s.read i
  holds : t.holds i = s.holds i
  mine : ∀ n, Mine i n s → Mine i n t
  created : s.created ≤ t.created
  older : ∀ f, t.file = some f → f.serial < s.created →
    ∃ g, s.file = some g ∧ g.serial = f.serial ∧ g.creator = f.creator
  dead : ∀ j, s.alive j = false → t.alive j = false

def threadGuard (pid : ι → ℕ) (i : ι) (o : LockCall) (s : Disk ι) : Prop :=
  match o with
  | .write_and_close fd payload => payload.pid = pid i ∧ Mine i fd s
  | .unlink => s.holds i = none → ∃ n, s.read i = some n ∧ Doomed n s
  | _ => True

variable {pid : ι → ℕ} {i j : ι} {n : ℕ} {s t u : Disk ι}

theorem Around.refl (i : ι) (s : Disk ι) : Around i s s :=
  ⟨rfl, rfl, fun _ h => h, Nat.le_refl _, fun f hf _ => ⟨f, hf, rfl, rfl⟩, fun _ h => h⟩

theorem Around.trans (h : Around i s t) (k : Around i t u) : Around i s u where
  read := k.read.trans h.read
  holds := k.holds.trans h.holds
  mine n hn := k.mine n (h.mine n hn)
  created := Nat.le_trans h.created k.created
  older f hf hlt := by
    obtain ⟨g, hg, hserial, hcreator⟩ := k.older f hf (Nat.lt_of_lt_of_le hlt h.created)
    obtain ⟨e, he, hserial', hcreator'⟩ := h.older g hg (by omega)
    exact ⟨e, he, hserial'.trans hserial, hcreator'.trans hcreator⟩
  dead j hj := k.dead j (h.dead j hj)

theorem CreatedBy.around {P : ι → Prop} (h : CreatedBy P n s) (hr : Around i s t) :
    CreatedBy P n t := by
  obtain ⟨hlt, hcreator⟩ := h
  refine ⟨Nat.lt_of_lt_of_le hlt hr.created, ?_⟩
  intro f j hf hn hj
  obtain ⟨g, hg, hserial, hsame⟩ := hr.older f hf (by omega)
  exact hcreator g j hg (hserial.trans hn) (hsame.trans hj)

theorem Doomed.around (h : Doomed n s) (hr : Around i s t) : Doomed n t := by
  obtain ⟨hlt, hcreator⟩ := CreatedBy.around h hr
  exact ⟨hlt, fun f j hf hn hj => hr.dead j (hcreator f j hf hn hj)⟩

theorem sound_start (hs : Start s) : Sound pid s := by
  refine ⟨?_, ?_, fun f hf => (hs.left_over f hf).2⟩
  · intro i n h
    rw [hs.free i] at h
    cases h
  · intro f i p hf hi _
    rw [(hs.left_over f hf).1] at hi
    cases hi

/-- Two live threads do not both have the lock file. -/
theorem Mine.unique {m : ℕ} (hi : Mine i m s) (hj : Mine j n s) (hlive : s.alive i = true)
    (hlive' : s.alive j = true) : i = j := by
  obtain ⟨f, hf, -, hcreator⟩ := hi hlive
  obtain ⟨g, hg, -, hcreator'⟩ := hj hlive'
  obtain rfl : f = g := Option.some.inj (hf.symm.trans hg)
  exact Option.some.inj (hcreator.symm.trans hcreator')

/-- What only a dead thread may have had is lost without harm. -/
theorem Mine.of_dead (h : s.alive i = false) : Mine i n s := by
  intro hlive
  rw [h] at hlive
  cases hlive

def contract (pid : ι → ℕ) : Contract (interfaces ι) (Disk ι) where
  invariant := Sound pid
  rely := fun i => match i with
    | none => fun _ _ => True
    | some i => Around i
  guard := fun i => match i with
    | none => fun _ _ => True
    | some i => threadGuard pid i
  rely_refl := by
    intro i s
    cases i with
    | none => trivial
    | some i => exact Around.refl i s
  rely_trans := by
    intro i s t u h k
    cases i with
    | none => trivial
    | some i => exact Around.trans h k

/-! ## One step -/

theorem create_honours (hs : Sound pid s) (hfile : s.file = none) :
    Sound pid (s.create i) ∧ ∀ j, Around j s (s.create i) := by
  have hlost : ∀ j n, Mine j n s → Mine j n (s.create i) := by
    intro j n h hlive
    obtain ⟨f, hf, -⟩ := h hlive
    rw [hfile] at hf
    cases hf
  constructor
  · constructor
    · intro j n h
      exact hlost j n (hs.held j n h)
    · intro f j p hf _ hp
      obtain rfl := Option.some.inj hf
      cases hp
    · intro f hf
      obtain rfl := Option.some.inj hf
      exact Nat.lt_succ_self _
  · intro j
    refine ⟨rfl, rfl, hlost j, Nat.le_succ _, ?_, fun _ h => h⟩
    intro f hf hlt
    obtain rfl := Option.some.inj hf
    exact absurd hlt (Nat.lt_irrefl _)

/-- A write changes the payload alone. -/
theorem write_file {fd : ℕ} {payload : Option Payload} {f : LockFile ι}
    (h : (s.write fd payload).file = some f) : ∃ g, s.file = some g ∧ g.serial = f.serial ∧
      g.creator = f.creator ∧ (f.payload = g.payload ∨ g.serial = fd ∧ f.payload = payload) := by
  obtain ⟨g, hg, rfl⟩ := Option.map_eq_some_iff.mp h
  by_cases hfd : g.serial = fd
  · exact ⟨g, hg, by simp [hfd], by simp [hfd], .inr ⟨hfd, by simp [hfd]⟩⟩
  · exact ⟨g, hg, by simp [hfd], by simp [hfd], .inl (by simp [hfd])⟩

theorem Mine.write {fd : ℕ} {payload : Option Payload} (h : Mine j n s) :
    Mine j n (s.write fd payload) := by
  intro hlive
  obtain ⟨f, hf, hserial, hcreator⟩ := h hlive
  refine ⟨if f.serial = fd then { f with payload } else f, ?_, ?_, ?_⟩
  · simp [Disk.write, hf]
  · split <;> exact hserial
  · split <;> exact hcreator

theorem write_honours {fd : ℕ} {payload : Payload} {written : Option Payload} (hs : Sound pid s)
    (hpid : payload.pid = pid i) (hmine : Mine i fd s) (hlive : s.alive i = true)
    (hwritten : written = none ∨ written = some payload) :
    Sound pid (s.write fd written) ∧ ∀ j, Around j s (s.write fd written) := by
  constructor
  · constructor
    · intro j n h
      exact (hs.held j n h).write
    · intro f j p hf hj hp
      obtain ⟨g, hg, -, hcreator, hsame | ⟨hfd, hnew⟩⟩ := write_file hf
      · exact hs.named g j p hg (hcreator.trans hj) (hsame.symm.trans hp)
      · obtain ⟨e, he, -, hi⟩ := hmine hlive
        obtain rfl : e = g := Option.some.inj (he.symm.trans hg)
        obtain rfl : i = j := Option.some.inj (hi.symm.trans (hcreator.trans hj))
        rcases hwritten with rfl | rfl
        · rw [hnew] at hp
          cases hp
        · rw [← Option.some.inj (hnew.symm.trans hp)]
          exact hpid
    · intro f hf
      obtain ⟨g, hg, hserial, -, -⟩ := write_file hf
      rw [← hserial]
      exact hs.fresh g hg
  · intro j
    refine ⟨rfl, rfl, fun n h => h.write, Nat.le_refl _, ?_, fun _ h => h⟩
    intro f hf _
    obtain ⟨g, hg, hserial, hcreator, -⟩ := write_file hf
    exact ⟨g, hg, hserial, hcreator⟩

/-- What a thread removes is its own file, or that of nobody alive. -/
theorem removes (hs : Sound pid s) (hg : threadGuard pid i .unlink s) (hmet : Met i .unlink s)
    (hlive : s.alive i = true) {f : LockFile ι} (hf : s.file = some f)
    (hj : f.creator = some j) (hlive' : s.alive j = true) : j = i ∧ s.holds i = some f.serial := by
  cases hheld : s.holds i with
  | some n =>
    obtain ⟨g, hg, rfl, hi⟩ := hs.held i n hheld hlive
    obtain rfl : g = f := Option.some.inj (hg.symm.trans hf)
    exact ⟨Option.some.inj (hj.symm.trans hi), rfl⟩
  | none =>
    have hdead : s.alive j = false := by
      rcases hmet hheld f hf with hread | hdead
      · obtain ⟨n, hn, -, hdoomed⟩ := hg hheld
        exact hdoomed f j hf (Option.some.inj (hread.symm.trans hn)) hj
      · exact hdead j hj
    rw [hdead] at hlive'
    cases hlive'

section Step

variable [DecidableEq ι]

theorem acquire_honours {fd : ℕ} (hs : Sound pid s) (hmine : Mine i fd s) :
    Sound pid (s.acquire i fd) ∧ ∀ j, j ≠ i → Around j s (s.acquire i fd) := by
  constructor
  · refine ⟨?_, hs.named, hs.fresh⟩
    intro j n h
    by_cases hj : j = i
    · subst hj
      obtain rfl : fd = n := by simpa [Disk.acquire] using h
      exact hmine
    · exact hs.held j n (by simpa [Disk.acquire, hj] using h)
  · intro j hj
    refine ⟨rfl, by simp [Disk.acquire, hj], fun _ h => h, Nat.le_refl _, ?_, fun _ h => h⟩
    exact fun f hf _ => ⟨f, hf, rfl, rfl⟩

theorem release_honours (hs : Sound pid s) :
    Sound pid (s.release i) ∧ ∀ j, j ≠ i → Around j s (s.release i) := by
  constructor
  · refine ⟨?_, hs.named, hs.fresh⟩
    intro j n h
    by_cases hj : j = i
    · subst hj
      simp [Disk.release] at h
    · exact hs.held j n (by simpa [Disk.release, hj] using h)
  · intro j hj
    refine ⟨rfl, by simp [Disk.release, hj], fun _ h => h, Nat.le_refl _, ?_, fun _ h => h⟩
    exact fun f hf _ => ⟨f, hf, rfl, rfl⟩

theorem unlink_honours (hs : Sound pid s) (hg : threadGuard pid i .unlink s)
    (hmet : Met i .unlink s) (hlive : s.alive i = true) :
    Sound pid (s.unlink.release i) ∧ ∀ j, j ≠ i → Around j s (s.unlink.release i) := by
  have hlost : ∀ j n, j ≠ i → Mine j n s → Mine j n (s.unlink.release i) := by
    intro j n hj h hlive'
    obtain ⟨f, hf, -, hcreator⟩ := h hlive'
    exact absurd (removes hs hg hmet hlive hf hcreator hlive').1 hj
  constructor
  · refine ⟨?_, fun f i p hf => (nomatch hf), fun f hf => (nomatch hf)⟩
    intro j n h
    by_cases hj : j = i
    · subst hj
      simp [Disk.release] at h
    · have hheld : s.holds j = some n := by simpa [Disk.release, Disk.unlink, hj] using h
      exact hlost j n hj (hs.held j n hheld)
  · intro j hj
    refine ⟨rfl, by simp [Disk.release, Disk.unlink, hj], fun n h => hlost j n hj h,
      Nat.le_refl _, fun f hf => (nomatch hf), fun _ h => h⟩

theorem note_read_honours (hs : Sound pid s) :
    Sound pid (s.note_read i) ∧ ∀ j, j ≠ i → Around j s (s.note_read i) := by
  refine ⟨⟨hs.held, hs.named, hs.fresh⟩, ?_⟩
  intro j hj
  refine ⟨by simp [Disk.note_read, hj], rfl, fun _ h => h, Nat.le_refl _, ?_, fun _ h => h⟩
  exact fun f hf _ => ⟨f, hf, rfl, rfl⟩

theorem Mine.die (h : Mine j n s) : Mine j n (s.die i) := by
  intro hlive
  by_cases hj : j = i
  · subst hj
    simp [Disk.die] at hlive
  · exact h (by simpa [Disk.die, hj] using hlive)

theorem death_honours {r : Unit} (hs : Sound pid s) (hw : deathWorld i s r t) :
    Sound pid t ∧ ∀ j, Around j s t := by
  obtain rfl := hw
  refine ⟨⟨fun j n h => (hs.held j n h).die, hs.named, hs.fresh⟩, ?_⟩
  intro j
  refine ⟨rfl, rfl, fun n h => h.die, Nat.le_refl _, fun f hf _ => ⟨f, hf, rfl, rfl⟩, ?_⟩
  intro k hk
  by_cases hki : k = i
  · subst hki
    simp [Disk.die]
  · simpa [Disk.die, hki] using hk

theorem thread_honours {o : LockCall} {r : o.Answer} (hs : Sound pid s)
    (hg : threadGuard pid i o s) (hw : timelyWorld pid i o s r t) :
    Sound pid t ∧ ∀ j, j ≠ i → Around j s t := by
  obtain ⟨⟨hlive, hw⟩, hmet⟩ := hw
  have hstill : Sound pid s ∧ ∀ j, j ≠ i → Around j s s := ⟨hs, fun j _ => Around.refl j s⟩
  cases o with
  | open_exclusive =>
    rcases hw with ⟨hfile, -, rfl⟩ | ⟨-, -, rfl⟩ | ⟨-, rfl⟩
    · exact (create_honours hs hfile).imp_right fun h j _ => h j
    · exact hstill
    · exact hstill
  | write_and_close fd payload =>
    obtain ⟨hpid, hmine⟩ := hg
    obtain ⟨written, hwritten, hw⟩ := hw
    obtain ⟨hsound, haround⟩ := write_honours hs hpid hmine hlive hwritten
    rcases hw with ⟨-, rfl⟩ | ⟨-, rfl⟩
    · obtain ⟨hsound', haround'⟩ := acquire_honours hsound hmine.write
      exact ⟨hsound', fun j hj => (haround j).trans (haround' j hj)⟩
    · exact ⟨hsound, fun j _ => haround j⟩
  | read_payload =>
    obtain ⟨-, rfl⟩ := hw
    exact note_read_honours hs
  | kill p =>
    obtain ⟨-, rfl⟩ := hw
    exact hstill
  | unlink =>
    rcases hw with ⟨-, rfl⟩ | ⟨-, rfl⟩
    · exact unlink_honours hs hg hmet hlive
    · exact release_honours hs
  | ensure_parent | work =>
    obtain rfl := hw
    exact hstill

theorem parties_honour : (contract pid).Honoured (worlds (timelyWorld pid)) := by
  intro i o s r t hs hg hw
  cases i with
  | none =>
    obtain ⟨ht, haround⟩ := death_honours (r := ()) hs hw
    refine ⟨ht, ?_⟩
    intro j hj
    cases j with
    | none => trivial
    | some j => exact haround j
  | some i =>
    obtain ⟨ht, haround⟩ := thread_honours hs hg hw
    refine ⟨ht, ?_⟩
    intro j hj
    cases j with
    | none => trivial
    | some j => exact haround j fun h => hj (congrArg some h)

end Step

/-! ## One thread -/

abbrev Holding (i : ι) (held : Bool) (s : Disk ι) : Prop := (s.holds i).isSome = held

/-- The lock is held from then on if and only if nothing was raised. -/
abbrev Entered (i : ι) (r : Except LockFailure Unit) (s : Disk ι) : Prop :=
  Holding i r.isOk s

theorem Holding.around {held : Bool} (h : Holding i held s) (hr : Around i s t) :
    Holding i held t := by
  unfold Holding
  rw [hr.holds]
  exact h

/-- A file whose payload names a process that is gone has no live creator. -/
theorem doomed_of_gone {p : ℕ} (h : CreatedBy (fun j => pid j = p) n s)
    (hgone : ∀ j, s.alive j = true → pid j ≠ p) : Doomed n s := by
  refine ⟨h.1, ?_⟩
  intro f j hf hn hj
  by_contra hlive
  exact hgone j (by simpa using hlive) (h.2 f j hf hn hj)

section Thread

variable [DecidableEq ι]

abbrev Runs {α : Type} (pid : ι → ℕ) (i : ι) (p : LockM α)
    (Q : Except LockFailure α → Disk ι → Prop) (s : Disk ι) : Prop :=
  wp ((contract pid).around (worlds (timelyWorld pid)) (some i)) (threadGuard pid i) p Q s

theorem runs_create_or {lock : EnvironmentLock} {on_exists : LockM Unit}
    (hpid : lock.pid = pid i) (hfree : Holding i false s)
    (hexists : ∀ t, Sound pid t → Holding i false t → Runs pid i on_exists (Entered i) t) :
    Runs pid i (create_or lock on_exists) (Entered i) s := by
  apply wp_bind'.mpr
  refine ⟨trivial, ?_⟩
  intro r t ⟨u, ⟨⟨hlive, hw⟩, _⟩, hrely, ht⟩
  rcases hw with ⟨-, rfl, rfl⟩ | ⟨-, rfl, rfl⟩ | ⟨⟨message, rfl⟩, rfl⟩
  · have hmine : Mine i s.created (s.create i) := fun _ => ⟨_, rfl, rfl, rfl⟩
    have hcreated : Holding i false t := Holding.around (s := s.create i) hfree hrely
    refine ⟨⟨hpid, hrely.mine _ hmine⟩, ?_⟩
    intro r v ⟨w, ⟨⟨_, hw⟩, _⟩, hrely', _⟩
    obtain ⟨written, -, ⟨rfl, rfl⟩ | ⟨⟨message, rfl⟩, rfl⟩⟩ := hw
    · have hheld : Holding i true ((t.write s.created written).acquire i s.created) := by
        simp [Holding, Disk.acquire]
      exact hheld.around hrely'
    · have hkept : Holding i false (t.write s.created written) := hcreated
      exact hkept.around hrely'
  · exact hexists t ht (hfree.around hrely)
  · exact hfree.around hrely

theorem runs_retry_create {lock : EnvironmentLock} (hpid : lock.pid = pid i)
    (hfree : Holding i false s) : Runs pid i (retry_create lock) (Entered i) s :=
  runs_create_or hpid hfree fun _ _ hfree => hfree

theorem runs_handle_existing {lock : EnvironmentLock} (hpid : lock.pid = pid i)
    (hs : Sound pid s) (hfree : Holding i false s) :
    Runs pid i (handle_existing lock) (Entered i) s := by
  apply wp_bind'.mpr
  refine ⟨trivial, ?_⟩
  intro r t ⟨u, ⟨⟨_, hread, hu⟩, _⟩, hrely, _⟩
  obtain rfl := hu
  have ht : Holding i false t := Holding.around (s := s.note_read i) hfree hrely
  cases r with
  | none => exact ht
  | some data =>
    obtain ⟨f, hf, hp⟩ := hread data rfl
    have hnamed : CreatedBy (fun j => pid j = data.pid) f.serial (s.note_read i) := by
      refine ⟨hs.fresh f hf, ?_⟩
      intro g j hg _ hj
      obtain rfl : f = g := Option.some.inj (hf.symm.trans hg)
      exact (hs.named f j data hf hj hp).symm
    have hnoted : t.read i = some f.serial := by
      rw [hrely.read]
      simp [Disk.note_read, hf]
    apply wp_bind'.mpr
    refine ⟨trivial, ?_⟩
    intro r v ⟨w, ⟨⟨_, hgone, hw⟩, _⟩, hrely', _⟩
    obtain rfl := hw
    have hv : Holding i false v := ht.around hrely'
    cases r with
    | delivered | not_permitted | failed message => exact hv
    | no_such_process =>
      have hdoomed : Doomed f.serial w := doomed_of_gone (hnamed.around hrely) (hgone rfl)
      apply wp_bind'.mpr
      refine ⟨fun _ => ⟨f.serial, hrely'.read.trans hnoted, hdoomed.around hrely'⟩, ?_⟩
      intro r x ⟨y, ⟨⟨_, hy⟩, _⟩, hrely'', _⟩
      have hreleased : Holding i false y := by
        rcases hy with ⟨-, rfl⟩ | ⟨-, rfl⟩
        · simp [Holding, Disk.release]
        · simp [Holding, Disk.release]
      have hx : Holding i false x := hreleased.around hrely''
      rcases hy with ⟨rfl, -⟩ | ⟨⟨message, rfl⟩, -⟩
      · exact runs_retry_create hpid hx
      · exact hx

theorem runs_enter {lock : EnvironmentLock} (hpid : lock.pid = pid i) (hfree : Holding i false s) :
    Runs pid i (enter lock) (Entered i) s := by
  apply wp_bind'.mpr
  refine ⟨trivial, ?_⟩
  intro r t ⟨u, ⟨⟨_, hw⟩, _⟩, hrely, ht⟩
  obtain rfl := hw
  have hfree' : Holding i false t := hfree.around hrely
  cases r with
  | error message => exact hfree'
  | ok done => exact runs_create_or hpid hfree' fun _ hs hfree => runs_handle_existing hpid hs hfree

/-- A holder that leaves has released, whatever the removal of the file led to. -/
theorem runs_exit (hheld : Holding i true s) :
    Runs pid i (send .unlink rfl) (fun _ t => Holding i false t) s := by
  refine ⟨?_, ?_⟩
  · intro hfree
    rw [Holding, hfree] at hheld
    cases hheld
  · intro r t ⟨u, ⟨⟨_, hw⟩, _⟩, hrely, _⟩
    have hreleased : Holding i false u := by
      rcases hw with ⟨-, rfl⟩ | ⟨-, rfl⟩
      · simp [Holding, Disk.release]
      · simp [Holding, Disk.release]
    exact wp_ofExcept.mpr (hreleased.around hrely)

/-- A body ends as it began: with the lock, or without it. -/
theorem runs_body (env : String) (body : Body) : ∀ held s, Holding i held s →
    Runs pid i (body.run env (pid i) held) (fun _ t => Holding i held t) s := by
  induction body with
  | done =>
    intro held s h
    exact h
  | work next ih =>
    intro held s h
    apply wp_bind'.mpr
    refine ⟨trivial, ?_⟩
    intro r t ⟨u, ⟨⟨_, hw⟩, _⟩, hrely, _⟩
    obtain rfl := hw
    have ht : Holding i held t := h.around hrely
    cases r with
    | error message => exact ht
    | ok done => exact ih held t ht
  | locked op_id inner next ih ih' =>
    intro held s h
    cases held with
    | true =>
      apply wp_bind'.mpr
      apply wp_post (ih true s h)
      intro r t ht
      cases r with
      | error e => exact ht
      | ok done => exact ih' true t ht
    | false =>
      have henter : Runs pid i (enter ⟨env, op_id, pid i⟩) (Entered i) s := runs_enter rfl h
      apply wp_bind'.mpr
      apply wp_post henter
      intro r t ht
      cases r with
      | error e => exact ht
      | ok done =>
        apply wp_bind'.mpr
        apply wp_bind.mpr
        apply wp_attempt.mpr
        apply wp_post (ih true t ht)
        intro inside u hu
        apply wp_bind.mpr
        apply wp_post (runs_exit hu)
        intro removed v hv
        cases removed with
        | error e => exact hv
        | ok done =>
          apply wp_ofExcept.mpr
          cases inside with
          | error e => exact hv
          | ok done => exact ih' false v hv

theorem runs_thread (env : String) (bodies : List Body) : ∀ s, Holding i false s →
    Runs pid i (thread env (pid i) bodies) (fun _ _ => True) s := by
  induction bodies with
  | nil =>
    intro s _
    trivial
  | cons body bodies ih =>
    intro s h
    apply wp_bind'.mpr
    apply wp_attempt.mpr
    apply wp_post (runs_body env body false s h)
    intro r t ht
    exact ih t ht

/-! ## All of them -/

theorem runs_deaths (dying : List ι) : ∀ s,
    wp ((contract pid).around (worlds (timelyWorld pid)) none) (fun _ _ => True) (deaths dying)
      (fun _ _ => True) s := by
  induction dying with
  | nil =>
    intro s
    trivial
  | cons i dying ih =>
    intro s
    exact ⟨trivial, fun r t _ => ih t⟩

theorem holds_start (env : String) (bodies : ι → List Body) (dying : List ι) (hs : Start s) :
    (contract pid).Holds (worlds (timelyWorld pid)) (fun _ _ _ => True) s
      (parties env pid bodies dying) := by
  refine ⟨sound_start hs, ?_⟩
  intro i t hrely _
  cases i with
  | none => exact runs_deaths dying t
  | some i =>
    have hfree : Holding i false s := by simp [Holding, hs.free i]
    exact runs_thread env (bodies i) t (hfree.around hrely)

/-- In every interleaving whose steps meet the condition, two live threads never hold the lock
at once, and the lock file of a live holder is the one that it created: what its release
removes is no other. -/
theorem lock_exclusive (env : String) (pid : ι → ℕ) (bodies : ι → List Body) (dying : List ι)
    (s t : Disk ι) (qs : Parties ι) (hs : Start s)
    (h : Interleaved (worlds (timelyWorld pid)) s (parties env pid bodies dying) t qs) :
    (∀ i j, t.alive i = true → t.alive j = true → (t.holds i).isSome = true →
      (t.holds j).isSome = true → i = j) ∧
    ∀ i n, t.alive i = true → t.holds i = some n →
      ∃ f, t.file = some f ∧ f.serial = n ∧ f.creator = some i := by
  have hsound : Sound pid t := ((holds_start env bodies dying hs).run parties_honour h).invariant
  constructor
  · intro i j hi hj hheld hheld'
    obtain ⟨m, hm⟩ := Option.isSome_iff_exists.mp hheld
    obtain ⟨n, hn⟩ := Option.isSome_iff_exists.mp hheld'
    exact (hsound.held i m hm).unique (hsound.held j n hn) hi hj
  · intro i n hi hheld
    exact hsound.held i n hheld hi

end Thread

/-! ## Two contenders and one stale file -/

def contender : Bool → ℕ
  | false => 11
  | true => 12

/-- Process 10 is gone; every thread that asks for it is told so. -/
def serveLock (i : Bool) (o : LockCall) (s : Disk Bool) : o.Answer × Disk Bool :=
  match o with
  | .ensure_parent => (.ok (), s)
  | .open_exclusive =>
    match s.file with
    | none => (.descriptor s.created, s.create i)
    | some _ => (.file_exists, s)
  | .write_and_close fd payload => (.ok (), (s.write fd (some payload)).acquire i fd)
  | .read_payload => (s.file.bind LockFile.payload, s.note_read i)
  | .kill p => (if p = 10 then .no_such_process else .delivered, s)
  | .unlink => (.ok (), s.unlink.release i)
  | .work => (.ok (), s)

theorem lockWorld_serve {i : Bool} (o : LockCall) (s : Disk Bool) (h : s.alive i = true) :
    lockWorld contender i o s (serveLock i o s).1 (serveLock i o s).2 := by
  refine ⟨h, ?_⟩
  cases o with
  | open_exclusive =>
    obtain ⟨file, created, alive, read, holds⟩ := s
    cases file with
    | none => exact .inl ⟨rfl, rfl, rfl⟩
    | some f => exact .inr (.inl ⟨nofun, rfl, rfl⟩)
  | write_and_close fd payload => exact ⟨some payload, .inr rfl, .inl ⟨rfl, rfl⟩⟩
  | read_payload =>
    refine ⟨?_, rfl⟩
    intro p hp
    exact Option.bind_eq_some_iff.mp hp
  | kill p =>
    refine ⟨?_, rfl⟩
    intro hgone j _
    by_cases hp : p = 10
    · rw [hp]
      cases j <;> decide
    · simp only [serveLock, if_neg hp] at hgone
      cases hgone
  | unlink => exact .inl ⟨rfl, rfl⟩
  | ensure_parent | work => rfl

theorem serveLock_alive (i : Bool) (o : LockCall) (s : Disk Bool) :
    (serveLock i o s).2.alive = s.alive := by
  cases o with
  | open_exclusive =>
    simp only [serveLock]
    split <;> rfl
  | ensure_parent | write_and_close fd payload | read_payload | kill p | unlink | work => rfl

def backup : Body := .locked "backup" (.work .done) .done

/-- The file of the dead process 10. -/
def leftOver : Disk Bool where
  file := some ⟨0, none, some ⟨10, "old"⟩⟩
  created := 1
  alive := fun _ => true
  read := fun _ => none
  holds := fun _ => none

theorem leftOver_start : Start leftOver := by
  refine ⟨?_, fun _ => rfl⟩
  intro f hf
  obtain rfl := Option.some.inj hf
  exact ⟨rfl, Nat.zero_lt_one⟩

def contend (i : Bool) (n : ℕ) (p : LockM Unit) (s : Disk Bool) : LockM Unit × Disk Bool :=
  p.play (fun (_ : Unit) => serveLock i) (List.replicate n ()) s

/-- `false` has found the file stale. -/
def foundStale : LockM Unit × Disk Bool :=
  contend false 4 (thread "prod" (contender false) [backup]) leftOver

/-- `true` finds it stale too, removes it and acquires the lock. -/
def firstHolder : LockM Unit × Disk Bool :=
  contend true 7 (thread "prod" (contender true) [backup]) foundStale.2

/-- `false` goes on. -/
def secondHolder : LockM Unit × Disk Bool := contend false 3 foundStale.1 firstHolder.2

theorem steps_contend {i : Bool} {n : ℕ} {p : LockM Unit} {s : Disk Bool} (h : s.alive i = true) :
    Steps (lockWorld contender i) s p (contend i n p s).2 (contend i n p s).1 := by
  induction n generalizing p s with
  | zero => cases p <;> exact .refl _ _
  | succ n ih =>
    cases p with
    | pure a => exact .refl _ _
    | raise e => exact .refl _ _
    | call o k =>
      have hlive : (serveLock i o s).2.alive i = true :=
        (congrFun (serveLock_alive i o s) i).trans h
      exact .call (lockWorld_serve o s h) (ih hlive)

/-- Both hold the lock of the environment, and the file is that of one of them. -/
theorem two_holders : Start leftOver ∧ ∃ (t : Disk Bool) (qs : Parties Bool),
    Interleaved (worlds (lockWorld contender)) leftOver
      (parties "prod" contender (fun _ => [backup]) []) t qs ∧
    t.alive false = true ∧ t.alive true = true ∧ t.holds true = some 1 ∧ t.holds false = some 2 ∧
    t.file.map LockFile.serial = some 2 := by
  have hfound := Interleaved.run (W := worlds (lockWorld contender))
    (p := parties "prod" contender (fun _ => [backup]) []) (some false)
    (steps_contend (n := 4) (p := thread "prod" (contender false) [backup]) (s := leftOver) rfl)
  have hfirst := Interleaved.run (W := worlds (lockWorld contender))
    (p := Function.update (parties "prod" contender (fun _ => [backup]) []) (some false)
      foundStale.1) (some true)
    (steps_contend (n := 7) (p := thread "prod" (contender true) [backup]) (s := foundStale.2) rfl)
  have hsecond := Interleaved.run (W := worlds (lockWorld contender))
    (p := Function.update (Function.update (parties "prod" contender (fun _ => [backup]) [])
      (some false) foundStale.1) (some true) firstHolder.1) (some false)
    (steps_contend (n := 3) (p := foundStale.1) (s := firstHolder.2) rfl)
  exact ⟨leftOver_start, secondHolder.2, _, (hfound.trans hfirst).trans hsecond,
    rfl, rfl, rfl, rfl, rfl⟩

/-- One contender alone: it reads the file that it removes. -/
def loneHolder : LockM Unit × Disk Bool := contend false 3 foundStale.1 foundStale.2

theorem lone_steps : Steps (timelyWorld contender false) leftOver
    (thread "prod" (contender false) [backup]) loneHolder.2 loneHolder.1 := by
  have hlone : Steps (timelyWorld contender false) foundStale.2 foundStale.1
      loneHolder.2 loneHolder.1 := by
    refine .call ⟨lockWorld_serve .unlink _ rfl, ?_⟩
      (.call ⟨lockWorld_serve .open_exclusive _ rfl, trivial⟩
        (.call ⟨lockWorld_serve (.write_and_close 1 ⟨11, "backup"⟩) _ rfl, trivial⟩ (.refl _ _)))
    intro _ f hf
    obtain rfl := Option.some.inj hf
    exact .inl rfl
  exact .call ⟨lockWorld_serve .ensure_parent _ rfl, trivial⟩
    (.call ⟨lockWorld_serve .open_exclusive _ rfl, trivial⟩
      (.call ⟨lockWorld_serve .read_payload _ rfl, trivial⟩
        (.call ⟨lockWorld_serve (.kill 10) _ rfl, trivial⟩ hlone)))

theorem lock_exclusive_alone :
    ∃ f, loneHolder.2.file = some f ∧ f.serial = 1 ∧ f.creator = some false := by
  have hrun := Interleaved.run (W := worlds (timelyWorld contender))
    (p := parties "prod" contender (fun _ => [backup]) []) (some false) lone_steps
  have h := lock_exclusive "prod" contender (fun _ => [backup]) [] leftOver loneHolder.2 _
    leftOver_start hrun
  exact h.2 false 1 rfl rfl

end LockExclusion
