import Mathlib.Logic.Relation
import Mathlib.Data.List.Basic
import Mathlib.Data.Nat.Notation
import Mathlib.Data.Int.Notation

/-!
# Programs that call an environment

A program calls operations of an interface and inspects every reply, a raised
exception included. The environment is a relation, so one operation may have many
outcomes; a crash is a run that stops at any operation. The weakest precondition
`wp` speaks of every operation a run issues and of every way a run can end.
-/
namespace EffectPrograms

/-- Operations and the type of the reply to each of them. -/
structure Interface where
  Op : Type
  Reply : Op → Type

inductive Prog (F : Interface) (ε α : Type) where
  | pure (a : α)
  | raise (e : ε)
  | call (o : F.Op) (k : F.Reply o → Prog F ε α)

variable {F G : Interface} {ε ε' α β σ τ : Type}

namespace Prog

def bind : Prog F ε α → (α → Prog F ε β) → Prog F ε β
  | .pure a, f => f a
  | .raise e, _ => .raise e
  | .call o k, f => .call o (fun r => (k r).bind f)

/-- `try: p` as a value: what `p` returned or raised. -/
def attempt : Prog F ε α → Prog F ε' (Except ε α)
  | .pure a => .pure (.ok a)
  | .raise e => .pure (.error e)
  | .call o k => .call o (fun r => (k r).attempt)

def ofExcept : Except ε α → Prog F ε α
  | .ok a => .pure a
  | .error e => .raise e

def mapError (f : ε → ε') : Prog F ε α → Prog F ε' α
  | .pure a => .pure a
  | .raise e => .raise (f e)
  | .call o k => .call o (fun r => (k r).mapError f)

/-- Call one operation whose reply may be an exception of the environment. -/
def perform (o : F.Op) (reply : F.Reply o → Except ε α) : Prog F ε α :=
  .call o (fun r => ofExcept (reply r))

/-- `try: p finally: q`; an exception of `q` replaces the outcome of `p`. -/
def ensuring (p : Prog F ε α) (q : Prog F ε Unit) : Prog F ε α :=
  (attempt p).bind fun r => q.bind fun _ => ofExcept r

instance : Monad (Prog F ε) where
  pure := .pure
  bind := bind

theorem pure_eq (a : α) : (Pure.pure a : Prog F ε α) = .pure a := rfl

theorem bind_eq (p : Prog F ε α) (f : α → Prog F ε β) : p >>= f = p.bind f := rfl

end Prog

/-- Both interfaces side by side. -/
def Interface.sum (F G : Interface) : Interface where
  Op := F.Op ⊕ G.Op
  Reply := fun o => match o with
    | .inl o => F.Reply o
    | .inr o => G.Reply o

namespace Prog

def left : Prog F ε α → Prog (F.sum G) ε α
  | .pure a => .pure a
  | .raise e => .raise e
  | .call o k => .call (.inl o : (F.sum G).Op) (fun r => (k r).left)

def right : Prog G ε α → Prog (F.sum G) ε α
  | .pure a => .pure a
  | .raise e => .raise e
  | .call o k => .call (.inr o : (F.sum G).Op) (fun r => (k r).right)

end Prog

/-- `W o s r t`: issued in `s`, operation `o` may reply `r` and leave `t`. -/
abbrev World (F : Interface) (σ : Type) := (o : F.Op) → σ → F.Reply o → σ → Prop

/-- After every operation others may move the state along `R`. -/
def World.under (W : World F σ) (R : σ → σ → Prop) : World F σ :=
  fun o s r t => ∃ u, W o s r u ∧ R u t

/-- Keep the list of the operations issued so far. -/
def World.logged (W : World F σ) : World F (σ × List F.Op) :=
  fun o s r t => W o s.1 r t.1 ∧ t.2 = s.2 ++ [o]

def World.Total (W : World F σ) : Prop := ∀ o s, ∃ r t, W o s r t

/-- A run of zero or more operations. A crashed run is one whose last program still
has operations to call. -/
inductive Steps (W : World F σ) : σ → Prog F ε α → σ → Prog F ε α → Prop where
  | refl (s p) : Steps W s p s p
  | call {s o k r u t q} : W o s r u → Steps W u (k r) t q → Steps W s (.call o k) t q

/-- The program ran to its end, with a result or with an exception. -/
def Ends (W : World F σ) (s : σ) (p : Prog F ε α) (r : Except ε α) (t : σ) : Prop :=
  Steps W s p t (.ofExcept r)

theorem Steps.trans {W : World F σ} {s t u : σ} {p q r : Prog F ε α}
    (h : Steps W s p t q) (k : Steps W t q u r) : Steps W s p u r := by
  induction h with
  | refl => exact k
  | call hw _ ih => exact .call hw (ih k)

theorem Steps.logged {W : World F σ} {s t : σ} {p q : Prog F ε α} (h : Steps W s p t q)
    (l : List F.Op) : ∃ l', Steps W.logged (s, l) p (t, l') q := by
  induction h generalizing l with
  | refl s p => exact ⟨l, .refl _ _⟩
  | call hw _ ih =>
    obtain ⟨l', hl⟩ := ih _
    exact ⟨l', .call ⟨hw, rfl⟩ hl⟩

theorem World.under_total {W : World F σ} {R : σ → σ → Prop} (hw : W.Total)
    (hr : ∀ s, R s s) : (W.under R).Total := by
  intro o s
  obtain ⟨r, u, h⟩ := hw o s
  exact ⟨r, u, u, h, hr u⟩

theorem World.logged_total {W : World F σ} (hw : W.Total) : W.logged.Total := by
  rintro o ⟨s, l⟩
  obtain ⟨r, t, h⟩ := hw o s
  exact ⟨r, (t, l ++ [o]), h, rfl⟩

theorem exists_ending {W : World F σ} (hw : W.Total) (p : Prog F ε α) (s : σ) :
    ∃ r t, Ends W s p r t := by
  induction p generalizing s with
  | pure a => exact ⟨.ok a, s, .refl _ _⟩
  | raise e => exact ⟨.error e, s, .refl _ _⟩
  | call o k ih =>
    obtain ⟨r, u, hu⟩ := hw o s
    obtain ⟨x, t, ht⟩ := ih r u
    exact ⟨x, t, .call hu ht⟩

/-! ## Running a program -/

/-- Run a program to its end against a server that is a function. -/
def Prog.run (serve : (o : F.Op) → σ → F.Reply o × σ) : Prog F ε α → σ → Except ε α × σ
  | .pure a, s => (.ok a, s)
  | .raise e, s => (.error e, s)
  | .call o k, s => (k (serve o s).1).run serve (serve o s).2

/-- Run as many operations as the script has choices, and stop there. -/
def Prog.play {C : Type} (serve : C → (o : F.Op) → σ → F.Reply o × σ) :
    List C → Prog F ε α → σ → Prog F ε α × σ
  | c :: cs, .call o k, s => (k (serve c o s).1).play serve cs (serve c o s).2
  | _, p, s => (p, s)

def World.ofServer (serve : (o : F.Op) → σ → F.Reply o × σ) : World F σ :=
  fun o s r t => serve o s = (r, t)

theorem World.ofServer_total (serve : (o : F.Op) → σ → F.Reply o × σ) :
    (World.ofServer serve).Total := fun o s => ⟨(serve o s).1, (serve o s).2, rfl⟩

/-- A run against a server that answers rightly where an assertion of its own holds. -/
theorem ends_run_within {W : World F σ} {serve : (o : F.Op) → σ → F.Reply o × σ} {P : σ → Prop}
    (hw : ∀ o s, P s → W o s (serve o s).1 (serve o s).2 ∧ P (serve o s).2) (p : Prog F ε α)
    {s : σ} (hs : P s) : Ends W s p (p.run serve s).1 (p.run serve s).2 := by
  induction p generalizing s with
  | pure a => exact .refl _ _
  | raise e => exact .refl _ _
  | call o k ih =>
    obtain ⟨hstep, ht⟩ := hw o s hs
    exact .call hstep (ih _ ht)

theorem ends_run {W : World F σ} {serve : (o : F.Op) → σ → F.Reply o × σ}
    (hw : ∀ o s, W o s (serve o s).1 (serve o s).2) (p : Prog F ε α) (s : σ) :
    Ends W s p (p.run serve s).1 (p.run serve s).2 :=
  ends_run_within (fun o s (_ : True) => ⟨hw o s, trivial⟩) p trivial

theorem steps_play {C : Type} {W : World F σ} {serve : C → (o : F.Op) → σ → F.Reply o × σ}
    (hw : ∀ c o s, W o s (serve c o s).1 (serve c o s).2) (cs : List C)
    (p : Prog F ε α) (s : σ) :
    Steps W s p (p.play serve cs s).2 (p.play serve cs s).1 := by
  induction cs generalizing p s with
  | nil => cases p <;> exact .refl _ _
  | cons c cs ih =>
    cases p with
    | pure a => exact .refl _ _
    | raise e => exact .refl _ _
    | call o k => exact .call (hw c o s) (ih _ _)

/-! ## Weakest preconditions -/

/-- Every run of the program from the state issues an operation only where `G` allows
it, and where it ends `Q` holds of its outcome. -/
def wp (W : World F σ) (G : F.Op → σ → Prop) :
    Prog F ε α → (Except ε α → σ → Prop) → σ → Prop
  | .pure a, Q, s => Q (.ok a) s
  | .raise e, Q, s => Q (.error e) s
  | .call o k, Q, s => G o s ∧ ∀ r t, W o s r t → wp W G (k r) Q t

section Rules

variable {W : World F σ} {I J : F.Op → σ → Prop} {Q R : Except ε α → σ → Prop} {s t : σ}

@[simp] theorem wp_pure (a : α) : wp W I (.pure a) Q s ↔ Q (.ok a) s := Iff.rfl

@[simp] theorem wp_pure' (a : α) : wp W I (Pure.pure a) Q s ↔ Q (.ok a) s := Iff.rfl

@[simp] theorem wp_raise (e : ε) : wp W I (.raise e) Q s ↔ Q (.error e) s := Iff.rfl

theorem wp_call {o : F.Op} {k : F.Reply o → Prog F ε α} :
    wp W I (.call o k) Q s ↔ I o s ∧ ∀ r t, W o s r t → wp W I (k r) Q t := Iff.rfl

/-- The rule of consequence. -/
theorem wp_mono {p : Prog F ε α} (h : wp W I p Q s) (hi : ∀ o u, I o u → J o u)
    (hq : ∀ r u, Q r u → R r u) : wp W J p R s := by
  induction p generalizing s with
  | pure a => exact hq _ _ h
  | raise e => exact hq _ _ h
  | call o k ih => exact ⟨hi _ _ h.1, fun r u hu => ih r (h.2 r u hu)⟩

theorem wp_true {W : World F σ} (p : Prog F ε α) (s : σ) :
    wp W (fun _ _ => True) p (fun _ _ => True) s := by
  induction p generalizing s with
  | pure a => trivial
  | raise e => trivial
  | call o k ih => exact ⟨trivial, fun r t _ => ih r t⟩

theorem wp_post {p : Prog F ε α} (h : wp W I p Q s) (hq : ∀ r u, Q r u → R r u) :
    wp W I p R s := wp_mono h (fun _ _ h => h) hq

/-- Sequencing is composition of preconditions. -/
@[simp] theorem wp_bind {p : Prog F ε α} {f : α → Prog F ε β}
    {S : Except ε β → σ → Prop} :
    wp W I (p.bind f) S s ↔ wp W I p (fun r u => match r with
      | .ok a => wp W I (f a) S u
      | .error e => S (.error e) u) s := by
  induction p generalizing s with
  | pure a => rfl
  | raise e => rfl
  | call o k ih =>
    exact and_congr_right' (forall_congr' fun r => forall_congr' fun u =>
      imp_congr_right fun _ => ih r)

@[simp] theorem wp_bind' {p : Prog F ε α} {f : α → Prog F ε β}
    {S : Except ε β → σ → Prop} :
    wp W I (p >>= f) S s ↔ wp W I p (fun r u => match r with
      | .ok a => wp W I (f a) S u
      | .error e => S (.error e) u) s := wp_bind

@[simp] theorem wp_attempt {p : Prog F ε α} {S : Except ε' (Except ε α) → σ → Prop} :
    wp W I (p.attempt : Prog F ε' _) S s ↔ wp W I p (fun r u => S (.ok r) u) s := by
  induction p generalizing s with
  | pure a => rfl
  | raise e => rfl
  | call o k ih =>
    exact and_congr_right' (forall_congr' fun r => forall_congr' fun u =>
      imp_congr_right fun _ => ih r)

@[simp] theorem wp_mapError {p : Prog F ε α} {f : ε → ε'}
    {S : Except ε' α → σ → Prop} :
    wp W I (p.mapError f) S s ↔ wp W I p (fun r u => S (r.mapError f) u) s := by
  induction p generalizing s with
  | pure a => rfl
  | raise e => rfl
  | call o k ih =>
    exact and_congr_right' (forall_congr' fun r => forall_congr' fun u =>
      imp_congr_right fun _ => ih r)

@[simp] theorem wp_ofExcept {r : Except ε α} :
    wp W I (.ofExcept r) Q s ↔ Q r s := by cases r <;> rfl

@[simp] theorem wp_perform {o : F.Op} {reply : F.Reply o → Except ε α} :
    wp W I (.perform o reply) Q s ↔ I o s ∧ ∀ r t, W o s r t → Q (reply r) t := by
  simp [Prog.perform, wp_call]

/-- A precondition covers what remains of the program after any run. -/
theorem wp_steps {p q : Prog F ε α} (h : Steps W s p t q) (hp : wp W I p Q s) :
    wp W I q Q t := by
  induction h with
  | refl => exact hp
  | call hw _ ih => exact ih (hp.2 _ _ hw)

theorem wp_ends {p : Prog F ε α} {r : Except ε α} (hp : wp W I p Q s)
    (h : Ends W s p r t) : Q r t := by
  have hq := wp_steps h hp
  simpa using hq

theorem wp_issued {p : Prog F ε α} {o : F.Op} {k : F.Reply o → Prog F ε α}
    (hp : wp W I p Q s) (h : Steps W s p t (.call o k)) : I o t :=
  (wp_steps h hp).1

/-- An assertion that holds wherever an operation is issued and wherever the program
ends holds at every moment of every run. -/
theorem wp_invariant {P : σ → Prop} {p q : Prog F ε α} (hp : wp W I p Q s)
    (h : Steps W s p t q) (hi : ∀ o u, I o u → P u) (hq : ∀ r u, Q r u → P u) : P t := by
  have hw := wp_steps h hp
  cases q with
  | pure a => exact hq _ _ hw
  | raise e => exact hq _ _ hw
  | call o k => exact hi _ _ hw.1

/-- Preconditions are complete: what holds of all runs is a precondition. -/
theorem wp_of_steps {p : Prog F ε α}
    (hi : ∀ t o k, Steps W s p t (.call o k) → I o t)
    (hq : ∀ t r, Ends W s p r t → Q r t) : wp W I p Q s := by
  induction p generalizing s with
  | pure a => exact hq s (.ok a) (.refl _ _)
  | raise e => exact hq s (.error e) (.refl _ _)
  | call o k ih =>
    refine ⟨hi s o k (.refl _ _), fun r u hu => ih r ?_ ?_⟩
    · intro t o' k' h
      exact hi t o' k' (.call hu h)
    · intro t x h
      exact hq t x (.call hu h)

theorem wp_and {p : Prog F ε α} (h : wp W I p Q s) (k : wp W J p R s) :
    wp W (fun o u => I o u ∧ J o u) p (fun r u => Q r u ∧ R r u) s := by
  induction p generalizing s with
  | pure a => exact ⟨h, k⟩
  | raise e => exact ⟨h, k⟩
  | call o f ih => exact ⟨⟨h.1, k.1⟩, fun r t ht => ih r (h.2 r t ht) (k.2 r t ht)⟩

/-- What every operation of a program preserves holds along the program. -/
theorem wp_stable {P : σ → Prop} {p : Prog F ε α} (h : wp W I p Q s) (hs : P s)
    (hstep : ∀ o u r t, I o u → P u → W o u r t → P t) :
    wp W (fun o u => I o u ∧ P u) p (fun r u => Q r u ∧ P u) s := by
  induction p generalizing s with
  | pure a => exact ⟨h, hs⟩
  | raise e => exact ⟨h, hs⟩
  | call o k ih => exact ⟨⟨h.1, hs⟩, fun r t ht => ih r (h.2 r t ht) (hstep _ _ _ _ h.1 hs ht)⟩

/-- A weaker environment has fewer runs. -/
theorem wp_world {V : World F σ} {p : Prog F ε α} (h : wp W I p Q s)
    (hv : ∀ o u r t, V o u r t → W o u r t) : wp V I p Q s := by
  induction p generalizing s with
  | pure a => exact h
  | raise e => exact h
  | call o k ih => exact ⟨h.1, fun r u hu => ih r (h.2 r u (hv _ _ _ _ hu))⟩

/-- What issuing certain operations shows is known once one of them is in the log. -/
theorem wp_logged {D : F.Op → Prop} {fact : Prop} {l : List F.Op} {p : Prog F ε α}
    (h : wp W I p Q s) (hi : ∀ o u, I o u → D o → fact) (hl : ∀ o ∈ l, D o → fact) :
    wp W.logged (fun o u => I o u.1 ∧ ∀ o ∈ u.2, D o → fact) p
      (fun r u => Q r u.1 ∧ ∀ o ∈ u.2, D o → fact) (s, l) := by
  induction p generalizing s l with
  | pure a => exact ⟨h, hl⟩
  | raise e => exact ⟨h, hl⟩
  | call o k ih =>
    refine ⟨⟨h.1, hl⟩, ?_⟩
    rintro r ⟨t, l'⟩ ⟨ht, hlog⟩
    obtain rfl : l' = l ++ [o] := hlog
    apply ih r (h.2 r t ht)
    intro x hx
    rcases List.mem_append.mp hx with hx | hx
    · exact hl x hx
    · rw [List.mem_singleton.mp hx]
      exact hi o s h.1

end Rules

/-! ## Two interfaces -/

/-- Each operation moves its own half of the state. -/
def World.sum (W : World F σ) (V : World G τ) : World (F.sum G) (σ × τ)
  | .inl o, s, r, t => W o s.1 r t.1 ∧ t.2 = s.2
  | .inr o, s, r, t => V o s.2 r t.2 ∧ t.1 = s.1

section Sum

variable {W : World F σ} {V : World G τ} {I : (F.sum G).Op → σ × τ → Prop}
  {Q : Except ε α → σ × τ → Prop} {s : σ} {v : τ}

theorem World.sum_total (hw : W.Total) (hv : V.Total) : (W.sum V).Total := by
  rintro (o | o) ⟨s, v⟩
  · obtain ⟨r, t, h⟩ := hw o s
    exact ⟨r, (t, v), h, rfl⟩
  · obtain ⟨r, t, h⟩ := hv o v
    exact ⟨r, (s, t), h, rfl⟩

@[simp] theorem wp_left {p : Prog F ε α} :
    wp (W.sum V) I p.left Q (s, v) ↔
      wp W (fun o u => I (.inl o) (u, v)) p (fun r u => Q r (u, v)) s := by
  induction p generalizing s with
  | pure a => rfl
  | raise e => rfl
  | call o k ih =>
    refine and_congr_right' ⟨fun h r t ht => (ih r).mp (h r (t, v) ⟨ht, rfl⟩), ?_⟩
    rintro h r ⟨t, v'⟩ ⟨ht, hv⟩
    obtain rfl : v' = v := hv
    exact (ih r).mpr (h r t ht)

@[simp] theorem wp_right {p : Prog G ε α} :
    wp (W.sum V) I p.right Q (s, v) ↔
      wp V (fun o u => I (.inr o) (s, u)) p (fun r u => Q r (s, u)) v := by
  induction p generalizing v with
  | pure a => rfl
  | raise e => rfl
  | call o k ih =>
    refine and_congr_right' ⟨fun h r t ht => (ih r).mp (h r (s, t) ⟨ht, rfl⟩), ?_⟩
    rintro h r ⟨s', t⟩ ⟨ht, hs⟩
    obtain rfl : s' = s := hs
    exact (ih r).mpr (h r t ht)

/-- What a world is to one of two interfaces. -/
def World.onLeft (W : World (F.sum G) σ) : World F σ := fun o => W (.inl o)

def World.onRight (W : World (F.sum G) σ) : World G σ := fun o => W (.inr o)

theorem wp_onLeft {W : World (F.sum G) σ} {I : (F.sum G).Op → σ → Prop}
    {Q : Except ε α → σ → Prop} {s : σ} {p : Prog F ε α} :
    wp W I p.left Q s ↔ wp W.onLeft (fun o u => I (.inl o) u) p Q s := by
  induction p generalizing s with
  | pure a => rfl
  | raise e => rfl
  | call o k ih =>
    exact and_congr_right' (forall_congr' fun r => forall_congr' fun u =>
      imp_congr_right fun _ => ih r)

theorem wp_onRight {W : World (F.sum G) σ} {I : (F.sum G).Op → σ → Prop}
    {Q : Except ε α → σ → Prop} {s : σ} {p : Prog G ε α} :
    wp W I p.right Q s ↔ wp W.onRight (fun o u => I (.inr o) u) p Q s := by
  induction p generalizing s with
  | pure a => rfl
  | raise e => rfl
  | call o k ih =>
    exact and_congr_right' (forall_congr' fun r => forall_congr' fun u =>
      imp_congr_right fun _ => ih r)

end Sum

/-! ## The operations of a program -/

/-- Whatever is replied, the program calls only operations in `D`. -/
def Prog.Calls (D : F.Op → Prop) : Prog F ε α → Prop
  | .pure _ => True
  | .raise _ => True
  | .call o k => D o ∧ ∀ r, (k r).Calls D

section Calls

variable {D E : F.Op → Prop} {p : Prog F ε α}

@[simp] theorem calls_pure (a : α) : (.pure a : Prog F ε α).Calls D := trivial

@[simp] theorem calls_pure' (a : α) : (Pure.pure a : Prog F ε α).Calls D := trivial

@[simp] theorem calls_raise (e : ε) : (.raise e : Prog F ε α).Calls D := trivial

@[simp] theorem calls_ofExcept (r : Except ε α) : (.ofExcept r : Prog F ε α).Calls D := by
  cases r <;> trivial

@[simp] theorem calls_perform {o : F.Op} {reply : F.Reply o → Except ε α} :
    (.perform o reply : Prog F ε α).Calls D ↔ D o := by
  simp [Prog.perform, Prog.Calls]

theorem calls_bind {f : α → Prog F ε β} (h : p.Calls D) (hf : ∀ a, (f a).Calls D) :
    (p >>= f).Calls D := by
  rw [Prog.bind_eq]
  induction p with
  | pure a => exact hf a
  | raise e => trivial
  | call o k ih => exact ⟨h.1, fun r => ih r (h.2 r)⟩

theorem calls_attempt (h : p.Calls D) : (p.attempt : Prog F ε' (Except ε α)).Calls D := by
  induction p with
  | pure a => trivial
  | raise e => trivial
  | call o k ih => exact ⟨h.1, fun r => ih r (h.2 r)⟩

theorem calls_mapError {f : ε → ε'} (h : p.Calls D) : (p.mapError f).Calls D := by
  induction p with
  | pure a => trivial
  | raise e => trivial
  | call o k ih => exact ⟨h.1, fun r => ih r (h.2 r)⟩

theorem calls_ensuring {q : Prog F ε Unit} (h : p.Calls D) (hq : q.Calls D) :
    (p.ensuring q).Calls D :=
  calls_bind (calls_attempt h) fun _ => calls_bind hq fun _ => calls_ofExcept _

theorem calls_left {D : (F.sum G).Op → Prop} (h : p.Calls fun o => D (.inl o)) :
    (p.left : Prog (F.sum G) ε α).Calls D := by
  induction p with
  | pure a => trivial
  | raise e => trivial
  | call o k ih => exact ⟨h.1, fun r => ih r (h.2 r)⟩

theorem calls_right {p : Prog G ε α} {D : (F.sum G).Op → Prop} (h : p.Calls fun o => D (.inr o)) :
    (p.right : Prog (F.sum G) ε α).Calls D := by
  induction p with
  | pure a => trivial
  | raise e => trivial
  | call o k ih => exact ⟨h.1, fun r => ih r (h.2 r)⟩

theorem calls_all (h : ∀ o, D o) (p : Prog F ε α) : p.Calls D := by
  induction p with
  | pure a => trivial
  | raise e => trivial
  | call o k ih => exact ⟨h o, ih⟩

theorem calls_ite {c : Prop} [Decidable c] {q : Prog F ε α} (hp : p.Calls D) (hq : q.Calls D) :
    (if c then p else q).Calls D := by
  split
  · exact hp
  · exact hq

theorem calls_ofExcept_bind {r : Except ε α} {f : α → Prog F ε β}
    (h : ∀ a, r = .ok a → (f a).Calls D) : (.ofExcept r >>= f : Prog F ε β).Calls D := by
  cases r with
  | error e => exact calls_raise _
  | ok a => exact h a rfl

theorem calls_mono (h : p.Calls D) (hi : ∀ o, D o → E o) : p.Calls E := by
  induction p with
  | pure a => trivial
  | raise e => trivial
  | call o k ih => exact ⟨hi _ h.1, fun r => ih r (h.2 r)⟩

theorem calls_and (h : p.Calls D) (k : p.Calls E) : p.Calls fun o => D o ∧ E o := by
  induction p with
  | pure a => trivial
  | raise e => trivial
  | call o f ih => exact ⟨⟨h.1, k.1⟩, fun r => ih r (h.2 r) (k.2 r)⟩

/-- In any environment a run calls only what the program calls. -/
theorem wp_of_calls {W : World F σ} {I : F.Op → σ → Prop} (h : p.Calls D)
    (hi : ∀ o s, D o → I o s) (s : σ) : wp W I p (fun _ _ => True) s := by
  induction p generalizing s with
  | pure a => trivial
  | raise e => trivial
  | call o k ih => exact ⟨hi o s h.1, fun r t _ => ih r (h.2 r) t⟩

/-- What every operation that a program calls keeps, the program keeps. -/
theorem wp_keeps {W : World F σ} {I : F.Op → σ → Prop} {P : σ → Prop} {s : σ} (h : p.Calls D)
    (hs : P s) (hguard : ∀ o u, D o → P u → I o u)
    (hstep : ∀ o u r t, D o → P u → W o u r t → P t) : wp W I p (fun _ t => P t) s := by
  induction p generalizing s with
  | pure a => exact hs
  | raise e => exact hs
  | call o k ih => exact ⟨hguard o s h.1 hs, fun r t ht => ih r (h.2 r) (hstep o s r t h.1 hs ht)⟩

theorem calls_steps {W : World F σ} {s t : σ} {q : Prog F ε α} (h : p.Calls D)
    (hrun : Steps W s p t q) : q.Calls D := by
  induction hrun with
  | refl => exact h
  | call _ _ ih => exact ih (h.2 _)

/-- What no called operation changes, no run changes. -/
theorem run_preserves {W : World F σ} {s t : σ} {q : Prog F ε α} {β : Type} {f : σ → β}
    (h : p.Calls fun o => ∀ s r t, W o s r t → f t = f s) (hrun : Steps W s p t q) :
    f t = f s := by
  induction hrun with
  | refl => rfl
  | call hw _ ih => exact (ih (h.2 _)).trans (h.1 _ _ _ hw)

end Calls

/-! ## The points of a program -/

/-- Wherever the program calls an operation, `D` holds of it and of what follows it. -/
def Prog.Visits (D : (o : F.Op) → (F.Reply o → Prog F ε α) → Prop) : Prog F ε α → Prop
  | .pure _ => True
  | .raise _ => True
  | .call o k => D o k ∧ ∀ r, (k r).Visits D

section Visits

variable {D : (o : F.Op) → (F.Reply o → Prog F ε α) → Prop} {p : Prog F ε α}

theorem visits_ofExcept (r : Except ε α) : (.ofExcept r : Prog F ε α).Visits D := by
  cases r <;> trivial

/-- Only what follows a part that calls nothing of interest has to be looked at. -/
theorem visits_bind {C : F.Op → Prop} {q : Prog F ε β} {f : β → Prog F ε α} (h : q.Calls C)
    (hC : ∀ o, C o → ∀ k, D o k) (hf : ∀ b, (f b).Visits D) : (q >>= f).Visits D := by
  rw [Prog.bind_eq]
  induction q with
  | pure b => exact hf b
  | raise e => trivial
  | call o k ih => exact ⟨hC o h.1 _, fun r => ih r (h.2 r)⟩

theorem visits_steps {W : World F σ} {s t : σ} {q : Prog F ε α} (h : p.Visits D)
    (hrun : Steps W s p t q) : q.Visits D := by
  induction hrun with
  | refl => exact h
  | call _ _ ih => exact ih (h.2 _)

/-- The operation that the program calls next. -/
def Prog.issues : Prog F ε α → Option F.Op
  | .call o _ => some o
  | _ => none

/-- What remains of a program once its operation `o` has replied. -/
def Prog.resume [DecidableEq F.Op] (p : Prog F ε α) (o : F.Op) (r : F.Reply o) : Prog F ε α :=
  match p with
  | .call o' k => if h : o = o' then k (h ▸ r) else p
  | _ => p

theorem eq_call_of_issues [DecidableEq F.Op] {o : F.Op} (h : p.issues = some o) :
    p = .call o (p.resume o) := by
  cases p with
  | pure a => cases h
  | raise e => cases h
  | call o' k =>
    obtain rfl : o' = o := Option.some.inj h
    have hk : (Prog.call o' k).resume o' = k := by
      funext r
      simp [Prog.resume]
    rw [hk]

/-- The exception a program has ended with. -/
def Prog.raised : Prog F ε α → Option ε
  | .raise e => some e
  | _ => none

theorem eq_raise_of_raised {e : ε} (h : p.raised = some e) : p = .raise e := by
  cases p with
  | raise e' => exact congrArg Prog.raise (Option.some.inj h)
  | pure a => cases h
  | call o k => cases h

end Visits

/-- With some replies the program returns `b`. -/
def Prog.MayReturn (b : α) : Prog F ε α → Prop
  | .pure a => a = b
  | .raise _ => False
  | .call _ k => ∃ r, (k r).MayReturn b

section MayReturn

variable {D : F.Op → Prop} {p : Prog F ε α} {f : α → Prog F ε β} {a : α} {b : β}

theorem mayReturn_pure (a : α) : (.pure a : Prog F ε α).MayReturn a := rfl

theorem mayReturn_perform {o : F.Op} {reply : F.Reply o → Except ε α} {r : F.Reply o}
    (h : reply r = .ok a) : (.perform o reply : Prog F ε α).MayReturn a := by
  refine ⟨r, ?_⟩
  change (Prog.ofExcept (reply r) : Prog F ε α).MayReturn a
  rw [h]
  rfl

theorem mayReturn_bind (h : p.MayReturn a) (hf : (f a).MayReturn b) : (p >>= f).MayReturn b := by
  rw [Prog.bind_eq]
  induction p with
  | pure x =>
    obtain rfl : x = a := h
    exact hf
  | raise e => cases h
  | call o k ih =>
    obtain ⟨r, hr⟩ := h
    exact ⟨r, ih r hr⟩

/-- What a sequence returns, its second part returns after a result of the first. -/
theorem mayReturn_of_bind (h : (p >>= f).MayReturn b) :
    ∃ a, p.MayReturn a ∧ (f a).MayReturn b := by
  rw [Prog.bind_eq] at h
  induction p with
  | pure x => exact ⟨x, rfl, h⟩
  | raise e => cases h
  | call o k ih =>
    obtain ⟨r, hr⟩ := h
    obtain ⟨a, ha, hb⟩ := ih r hr
    exact ⟨a, ⟨r, ha⟩, hb⟩

/-- The second part is reached with what the first may return. -/
theorem calls_bind_of (h : p.Calls D) (hf : ∀ a, p.MayReturn a → (f a).Calls D) :
    (p >>= f).Calls D := by
  rw [Prog.bind_eq]
  induction p with
  | pure x => exact hf x rfl
  | raise e => trivial
  | call o k ih => exact ⟨h.1, fun r => ih r (h.2 r) fun a ha => hf a ⟨r, ha⟩⟩

/-- Where the replies leave the state alone, what is allowed of a run is allowed of all calls. -/
theorem calls_of_wp_still {W : World F σ} {I : F.Op → σ → Prop} {Q : Except ε α → σ → Prop} {s : σ}
    (h : wp W I p Q s) (hw : p.Calls fun o => ∀ r, W o s r s) : p.Calls fun o => I o s := by
  induction p with
  | pure a => trivial
  | raise e => trivial
  | call o k ih => exact ⟨h.1, fun r => ih r (h.2 r s (hw.1 r)) (hw.2 r)⟩

theorem wp_mayReturn {W : World F σ} {I : F.Op → σ → Prop} {Q : Except ε α → σ → Prop} {s : σ}
    (h : wp W I p Q s) (hw : p.Calls fun o => ∀ r, W o s r s) (ha : p.MayReturn a) :
    Q (.ok a) s := by
  induction p with
  | pure x =>
    obtain rfl : x = a := ha
    exact h
  | raise e => cases ha
  | call o k ih =>
    obtain ⟨r, hr⟩ := ha
    exact ih r (h.2 r s (hw.1 r)) (hw.2 r) hr

theorem mayReturn_mapError {g : ε → ε'} (h : p.MayReturn a) : (p.mapError g).MayReturn a := by
  induction p with
  | pure x => exact h
  | raise e => cases h
  | call o k ih =>
    obtain ⟨r, hr⟩ := h
    exact ⟨r, ih r hr⟩

theorem mayReturn_left (h : p.MayReturn a) : (p.left : Prog (F.sum G) ε α).MayReturn a := by
  induction p with
  | pure x => exact h
  | raise e => cases h
  | call o k ih =>
    obtain ⟨r, hr⟩ := h
    exact ⟨r, ih r hr⟩

theorem mayReturn_right {p : Prog G ε α} (h : p.MayReturn a) :
    (p.right : Prog (F.sum G) ε α).MayReturn a := by
  induction p with
  | pure x => exact h
  | raise e => cases h
  | call o k ih =>
    obtain ⟨r, hr⟩ := h
    exact ⟨r, ih r hr⟩

theorem mayReturn_attempt (h : p.MayReturn a) :
    (p.attempt : Prog F ε' (Except ε α)).MayReturn (.ok a) := by
  induction p with
  | pure x => exact congrArg Except.ok h
  | raise e => cases h
  | call o k ih =>
    obtain ⟨r, hr⟩ := h
    exact ⟨r, ih r hr⟩

theorem mayReturn_ensuring {q : Prog F ε Unit} (h : p.MayReturn a) (hq : q.MayReturn ()) :
    (p.ensuring q).MayReturn a :=
  mayReturn_bind (mayReturn_attempt h) (mayReturn_bind hq rfl)

theorem Prog.Calls.first (h : (p >>= f).Calls D) : p.Calls D := by
  rw [Prog.bind_eq] at h
  induction p with
  | pure a => trivial
  | raise e => trivial
  | call o k ih => exact ⟨h.1, fun r => ih r (h.2 r)⟩

/-- What a program calls after one of its parts may have returned. -/
theorem Prog.Calls.rest (h : (p >>= f).Calls D) (ha : p.MayReturn a) : (f a).Calls D := by
  rw [Prog.bind_eq] at h
  induction p with
  | pure x =>
    obtain rfl : x = a := ha
    exact h
  | raise e => cases ha
  | call o k ih =>
    obtain ⟨r, hr⟩ := ha
    exact ih r (h.2 r) hr

theorem Prog.Calls.of_attempt (h : (p.attempt : Prog F ε' (Except ε α)).Calls D) : p.Calls D := by
  induction p with
  | pure a => trivial
  | raise e => trivial
  | call o k ih => exact ⟨h.1, fun r => ih r (h.2 r)⟩

theorem Prog.Calls.of_ensuring {q : Prog F ε Unit} (h : (p.ensuring q).Calls D) : p.Calls D :=
  Prog.Calls.of_attempt (Prog.Calls.first h)

theorem Prog.Calls.of_mapError {g : ε → ε'} (h : (p.mapError g).Calls D) : p.Calls D := by
  induction p with
  | pure a => trivial
  | raise e => trivial
  | call o k ih => exact ⟨h.1, fun r => ih r (h.2 r)⟩

theorem Prog.Calls.of_left {D : (F.sum G).Op → Prop}
    (h : (p.left : Prog (F.sum G) ε α).Calls D) : p.Calls fun o => D (.inl o) := by
  induction p with
  | pure a => trivial
  | raise e => trivial
  | call o k ih => exact ⟨h.1, fun r => ih r (h.2 r)⟩

theorem Prog.Calls.of_right {p : Prog G ε α} {D : (F.sum G).Op → Prop}
    (h : (p.right : Prog (F.sum G) ε α).Calls D) : p.Calls fun o => D (.inr o) := by
  induction p with
  | pure a => trivial
  | raise e => trivial
  | call o k ih => exact ⟨h.1, fun r => ih r (h.2 r)⟩

end MayReturn

/-! ## Sessions -/

/-- Calls made one after another, each run to its end or abandoned at any operation;
between two calls others move the state along `E`. A call is made only where `may`
allows it. -/
inductive Session {C : Type} (W : World F σ) (E : σ → σ → Prop) (may : C → σ → Prop)
    (body : C → Prog F ε α) : σ → σ → Prop where
  | refl (s) : Session W E may body s s
  | other {s t u} : Session W E may body s t → E t u → Session W E may body s u
  | call {s t u c q} : Session W E may body s t → may c t → Steps W t (body c) u q →
      Session W E may body s u

/-- What others and every step of every call preserve holds throughout a session. -/
theorem Session.invariant {C : Type} {W : World F σ} {E : σ → σ → Prop}
    {may : C → σ → Prop} {body : C → Prog F ε α} {P : σ → Prop} {s t : σ}
    (h : Session W E may body s t) (hs : P s)
    (he : ∀ u v, P u → E u v → P v)
    (hc : ∀ c u, P u → may c u →
      wp W (fun _ v => P v) (body c) (fun _ v => P v) u) : P t := by
  induction h with
  | refl => exact hs
  | other _ hE ih => exact he _ _ ih hE
  | call _ hm hst ih =>
    exact wp_invariant (hc _ _ ih hm) hst (fun _ _ h => h) (fun _ _ h => h)

end EffectPrograms
