import Mathlib.Logic.Function.Basic
import Odooctl.EffectPrograms

/-!
# Programs that share a state

A family of programs takes operations one at a time, in any order. Each may have an
interface of its own; a crashed program is one that is never scheduled again. Every program
relies on what the others may do to the state and guarantees what its own operations do.
-/
namespace InterleavedPrograms

open EffectPrograms

variable {ι σ : Type} {F : ι → Interface} {ε α : ι → Type}

/-- One program for each index. -/
abbrev Pool (F : ι → Interface) (ε α : ι → Type) := (i : ι) → Prog (F i) (ε i) (α i)

inductive Interleaved [DecidableEq ι] (W : (i : ι) → World (F i) σ) :
    σ → Pool F ε α → σ → Pool F ε α → Prop where
  | refl (s ps) : Interleaved W s ps s ps
  | step {s ps t qs} {u : σ} (i : ι) {o : (F i).Op} {k : (F i).Reply o → Prog (F i) (ε i) (α i)}
      {r : (F i).Reply o} :
      Interleaved W s ps t qs → qs i = .call o k → W i o t r u →
      Interleaved W s ps u (Function.update qs i (k r))

theorem Interleaved.trans [DecidableEq ι] {W : (i : ι) → World (F i) σ} {s t u : σ} {ps qs rs : Pool F ε α}
    (h : Interleaved W s ps t qs) (k : Interleaved W t qs u rs) : Interleaved W s ps u rs := by
  induction k with
  | refl => exact h
  | step i _ hcall hw ih => exact .step i ih hcall hw

/-- Running one program by itself is an interleaving. -/
theorem Interleaved.run [DecidableEq ι] {W : (i : ι) → World (F i) σ} {s t : σ} {p : Pool F ε α} (i : ι)
    {q : Prog (F i) (ε i) (α i)} (h : Steps (W i) s (p i) t q) :
    Interleaved W s p t (Function.update p i q) := by
  generalize hp : p i = here at h
  induction h generalizing p with
  | refl s p =>
    rw [← hp, Function.update_eq_self]
    exact .refl _ _
  | call hw _ ih =>
    have hfirst := Interleaved.step i (.refl _ p) hp hw
    have hrest := ih (p := Function.update p i _) (Function.update_self i _ p)
    rw [Function.update_idem] at hrest
    exact hfirst.trans hrest

/-- Wherever a program stands in a run, it stands at one of its points. -/
theorem Interleaved.visits [DecidableEq ι] {W : (i : ι) → World (F i) σ} {s t : σ}
    {ps qs : Pool F ε α} {i : ι}
    {D : (o : (F i).Op) → ((F i).Reply o → Prog (F i) (ε i) (α i)) → Prop}
    (h : Interleaved W s ps t qs) (hp : (ps i).Visits D) : (qs i).Visits D := by
  induction h with
  | refl => exact hp
  | step j _ hcall _ ih =>
    by_cases hj : i = j
    · subst hj
      rw [hcall] at ih
      rw [Function.update_self]
      exact ih.2 _
    · rw [Function.update_of_ne hj]
      exact ih

/-! ## Relying on the others -/

/-- What programs assume of each other: an invariant of the state, the steps the others may
take around program `i`, and where program `i` may issue an operation. -/
structure Contract (F : ι → Interface) (σ : Type) where
  invariant : σ → Prop
  rely : ι → σ → σ → Prop
  guard : (i : ι) → (F i).Op → σ → Prop
  rely_refl : ∀ i s, rely i s s
  rely_trans : ∀ i s t u, rely i s t → rely i t u → rely i s u

/-- The world of program `i` between whose operations the others step. -/
def Contract.around (C : Contract F σ) (W : (i : ι) → World (F i) σ) (i : ι) : World (F i) σ :=
  (W i).under fun s t => C.rely i s t ∧ C.invariant t

/-- Whatever the others do first, the precondition holds. -/
def Contract.Stable (C : Contract F σ) (W : (i : ι) → World (F i) σ) (i : ι)
    (p : Prog (F i) (ε i) (α i)) (Q : Except (ε i) (α i) → σ → Prop) (s : σ) : Prop :=
  ∀ t, C.rely i s t → C.invariant t → wp (C.around W i) (C.guard i) p Q t

/-- Every operation issued within its guard keeps the invariant and is a step on which
every other program relies. -/
def Contract.Honoured (C : Contract F σ) (W : (i : ι) → World (F i) σ) : Prop :=
  ∀ i o s r t, C.invariant s → C.guard i o s → W i o s r t →
    C.invariant t ∧ ∀ j, j ≠ i → C.rely j s t

/-- The invariant holds and every program keeps its precondition. -/
structure Contract.Holds (C : Contract F σ) (W : (i : ι) → World (F i) σ)
    (Q : (i : ι) → Except (ε i) (α i) → σ → Prop) (s : σ) (ps : Pool F ε α) : Prop where
  invariant : C.invariant s
  stable : ∀ i, C.Stable W i (ps i) (Q i) s

section Rules

variable {C : Contract F σ} {W : (i : ι) → World (F i) σ}
  {Q : (i : ι) → Except (ε i) (α i) → σ → Prop} {s t : σ} {ps qs : Pool F ε α}

theorem Contract.Holds.wp (h : C.Holds W Q s ps) (i : ι) :
    wp (C.around W i) (C.guard i) (ps i) (Q i) s :=
  h.stable i s (C.rely_refl i s) h.invariant

theorem Contract.Holds.guard (h : C.Holds W Q s ps) {i : ι} {o : (F i).Op}
    {k : (F i).Reply o → Prog (F i) (ε i) (α i)} (hcall : ps i = .call o k) : C.guard i o s := by
  have hwp := h.wp i
  rw [hcall] at hwp
  exact hwp.1

/-- A program that has ended is where its postcondition holds. -/
theorem Contract.Holds.ended (h : C.Holds W Q s ps) {i : ι} {r : Except (ε i) (α i)}
    (hend : ps i = .ofExcept r) : Q i r s := by
  have hwp := h.wp i
  rw [hend] at hwp
  exact wp_ofExcept.mp hwp

theorem Contract.Holds.step [DecidableEq ι] (hC : C.Honoured W) (h : C.Holds W Q s ps) {i : ι} {o : (F i).Op}
    {k : (F i).Reply o → Prog (F i) (ε i) (α i)} {r : (F i).Reply o} (hcall : ps i = .call o k)
    (hw : W i o s r t) : C.Holds W Q t (Function.update ps i (k r)) := by
  obtain ⟨hinv, hrely⟩ := hC i o s r t h.invariant (h.guard hcall) hw
  refine ⟨hinv, ?_⟩
  intro j u hu hu'
  by_cases hj : j = i
  · subst hj
    rw [Function.update_self]
    have hwp := h.wp j
    rw [hcall] at hwp
    exact hwp.2 r u ⟨t, hw, hu, hu'⟩
  · rw [Function.update_of_ne hj]
    exact h.stable j u (C.rely_trans j s t u (hrely j hj) hu) hu'

/-- The rule of runs. -/
theorem Contract.Holds.run [DecidableEq ι] (hC : C.Honoured W) (h : C.Holds W Q s ps)
    (hrun : Interleaved W s ps t qs) : C.Holds W Q t qs := by
  induction hrun with
  | refl => exact h
  | step i _ hcall hw ih => exact ih.step hC hcall hw

/-- One operation: what the world does with it, and then what the others do. -/
theorem Contract.wp_perform {i : ι} {o : (F i).Op} {β : Type}
    {reply : (F i).Reply o → Except (ε i) β} {R : Except (ε i) β → σ → Prop}
    (hguard : C.guard i o s)
    (h : ∀ r u, W i o s r u → ∀ t, C.rely i u t → C.invariant t → R (reply r) t) :
    EffectPrograms.wp (C.around W i) (C.guard i) (.perform o reply) R s := by
  apply EffectPrograms.wp_perform.mpr
  refine ⟨hguard, ?_⟩
  intro r t ht
  obtain ⟨u, hw, hrely, hinv⟩ := ht
  exact h r u hw t hrely hinv

/-- What every guarded operation does to the state, whole runs do. -/
theorem Contract.Holds.relates [DecidableEq ι] {T : σ → σ → Prop} (hC : C.Honoured W) (h : C.Holds W Q s ps)
    (hrun : Interleaved W s ps t qs) (hrefl : ∀ s, T s s)
    (htrans : ∀ s t u, T s t → T t u → T s u)
    (hstep : ∀ i o s r t, C.invariant s → C.guard i o s → W i o s r t → T s t) : T s t := by
  induction hrun with
  | refl => exact hrefl _
  | step i hprev hcall hw ih =>
    have hthere := h.run hC hprev
    exact htrans _ _ _ ih (hstep i _ _ _ _ hthere.invariant (hthere.guard hcall) hw)

end Rules

/-! ## Running a pool by turns -/

section Turns

variable {ι σ δ : Type} [DecidableEq ι] {F : ι → Interface} {ε α : ι → Type}

/-- The programs of the list do one operation each, in the order of the list. -/
def Pool.turns (serve : (i : ι) → (o : (F i).Op) → δ → (F i).Reply o × δ) :
    List ι → Pool F ε α → δ → Pool F ε α × δ
  | [], ps, s => (ps, s)
  | i :: rest, ps, s => match ps i with
    | .call o k =>
      Pool.turns serve rest (Function.update ps i (k (serve i o s).1)) (serve i o s).2
    | _ => Pool.turns serve rest ps s

/-- Every operation done in these turns passes the test. -/
def Pool.every (serve : (i : ι) → (o : (F i).Op) → δ → (F i).Reply o × δ)
    (ok : (i : ι) → (F i).Op → δ → Bool) : List ι → Pool F ε α → δ → Bool
  | [], _, _ => true
  | i :: rest, ps, s => match ps i with
    | .call o k => ok i o s &&
      Pool.every serve ok rest (Function.update ps i (k (serve i o s).1)) (serve i o s).2
    | _ => Pool.every serve ok rest ps s

/-- Turns against a server are a run in a world that has its answers, also of the states that
the server's stand for. -/
theorem interleaved_turns {W : (i : ι) → World (F i) σ} (f : δ → σ)
    {serve : (i : ι) → (o : (F i).Op) → δ → (F i).Reply o × δ} {ok : (i : ι) → (F i).Op → δ → Bool}
    (hw : ∀ i o s, ok i o s = true → W i o (f s) (serve i o s).1 (f (serve i o s).2))
    {turns : List ι} {ps : Pool F ε α} {s : δ} (h : Pool.every serve ok turns ps s = true) :
    Interleaved W (f s) ps (f (Pool.turns serve turns ps s).2) (Pool.turns serve turns ps s).1 := by
  induction turns generalizing ps s with
  | nil => exact .refl _ _
  | cons i rest ih =>
    unfold Pool.turns
    unfold Pool.every at h
    cases hcall : ps i with
    | pure a | raise e =>
      rw [hcall] at h
      exact ih h
    | call o k =>
      rw [hcall] at h
      obtain ⟨hok, hrest⟩ := Bool.and_eq_true_iff.mp h
      exact (Interleaved.step i (.refl _ ps) hcall (hw i o s hok)).trans (ih hrest)

theorem every_true {serve : (i : ι) → (o : (F i).Op) → δ → (F i).Reply o × δ} {turns : List ι}
    {ps : Pool F ε α} {s : δ} : Pool.every serve (fun _ _ _ => true) turns ps s = true := by
  induction turns generalizing ps s with
  | nil => rfl
  | cons i rest ih =>
    unfold Pool.every
    cases ps i with
    | pure a | raise e => exact ih
    | call o k => exact ih

end Turns

end InterleavedPrograms
