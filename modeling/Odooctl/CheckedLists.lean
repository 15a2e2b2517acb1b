import Mathlib.Data.List.Sort
import Mathlib.Data.List.Forall2

/-!
# Checked lists

Lists whose elements a fallible function accepts, the first elements of a strictly ordered
list, and runs of consecutive numbers.
-/
namespace CheckedLists

variable {α β ε : Type}

theorem bind_eq_ok {x : Except ε α} {f : α → Except ε β} {b : β} :
    x >>= f = .ok b ↔ ∃ a, x = .ok a ∧ f a = .ok b := by
  cases x with
  | error e => simp [bind, Except.bind]
  | ok a => simp [bind, Except.bind]

/-- Elements of a list that can be run through are not looked for among all values. -/
theorem forall_of_all {p : α → Prop} [DecidablePred p] {l : List α}
    (h : l.all (fun x => decide (p x)) = true) : ∀ x ∈ l, p x :=
  fun x hx => of_decide_eq_true (List.all_eq_true.mp h x hx)

theorem mapM_eq_ok {f : α → Except ε β} {l : List α} {bs : List β} :
    l.mapM f = .ok bs ↔ List.Forall₂ (fun a b => f a = .ok b) l bs := by
  induction l generalizing bs with
  | nil =>
    rw [List.mapM_nil, List.forall₂_nil_left_iff]
    constructor
    · intro h
      exact (Except.ok.inj h).symm
    · rintro rfl
      rfl
  | cons a l ih =>
    rw [List.mapM_cons, List.forall₂_cons_left_iff]
    constructor
    · intro h
      obtain ⟨b, hb, h⟩ := bind_eq_ok.mp h
      obtain ⟨cs, hcs, h⟩ := bind_eq_ok.mp h
      exact ⟨b, cs, hb, ih.mp hcs, (Except.ok.inj h).symm⟩
    · rintro ⟨b, cs, hb, hcs, rfl⟩
      apply bind_eq_ok.mpr
      exact ⟨b, hb, bind_eq_ok.mpr ⟨cs, ih.mpr hcs, rfl⟩⟩

theorem exists_of_mem_left {R : α → β → Prop} {l : List α} {bs : List β}
    (h : List.Forall₂ R l bs) {a : α} (ha : a ∈ l) : ∃ b ∈ bs, R a b := by
  induction h with
  | nil => cases ha
  | cons hr _ ih =>
    rcases List.mem_cons.mp ha with rfl | ha
    · exact ⟨_, List.mem_cons_self, hr⟩
    · obtain ⟨b, hb, hr⟩ := ih ha
      exact ⟨b, List.mem_cons_of_mem _ hb, hr⟩

theorem exists_of_mem_right {R : α → β → Prop} {l : List α} {bs : List β}
    (h : List.Forall₂ R l bs) {b : β} (hb : b ∈ bs) : ∃ a ∈ l, R a b :=
  exists_of_mem_left h.flip hb

/-- In a strictly ordered list an element is among the first `n` exactly if fewer than `n`
elements come before it. -/
theorem mem_take_iff_countP {R : α → α → Prop} [DecidableRel R]
    (hasymm : ∀ x y, R x y → ¬ R y x) {l : List α} (h : l.Pairwise R) {x : α} (hx : x ∈ l)
    (n : ℕ) : x ∈ l.take n ↔ l.countP (fun y => R y x) < n := by
  have hirrefl : ∀ y, ¬ R y y := fun y hy => hasymm y y hy hy
  induction l generalizing n with
  | nil => cases hx
  | cons a l ih =>
    obtain ⟨ha, hl⟩ := List.pairwise_cons.mp h
    have hfirst : (a :: l).countP (fun y => R y a) = 0 := by
      rw [List.countP_eq_zero]
      intro y hy
      rcases List.mem_cons.mp hy with rfl | hy
      · simpa using hirrefl y
      · simpa using hasymm a y (ha y hy)
    cases n with
    | zero => simp
    | succ n =>
      by_cases hxa : x = a
      · rw [hxa, hfirst]
        simp
      · have hxl : x ∈ l := (List.mem_cons.mp hx).resolve_left hxa
        rw [List.take_succ_cons, List.mem_cons, List.countP_cons_of_pos (by simpa using ha x hxl)]
        simp only [hxa, false_or, ih hl hxl n]
        omega

/-- The first number of a list that its successor does not follow. -/
def findGap : List ℕ → Option ℕ
  | previous :: next :: rest =>
    if next ≠ previous + 1 then some previous else findGap (next :: rest)
  | _ => none

/-- A list without gaps is a run of consecutive numbers. -/
theorem eq_range'_of_findGap {a : ℕ} {l : List ℕ} (h : findGap (a :: l) = none) :
    a :: l = List.range' a (l.length + 1) := by
  induction l generalizing a with
  | nil => rfl
  | cons b l ih =>
    rw [findGap] at h
    split at h
    · cases h
    next hb =>
    have hb : b = a + 1 := by omega
    subst hb
    rw [List.range'_succ, List.length_cons, ← ih h]

theorem findGap_range' (a n : ℕ) : findGap (List.range' a n) = none := by
  induction n generalizing a with
  | zero => rfl
  | succ n ih =>
    cases n with
    | zero => rfl
    | succ n =>
      have hrest := ih (a + 1)
      rw [List.range'_succ] at hrest
      rw [List.range'_succ, List.range'_succ, findGap, if_neg (by omega)]
      exact hrest

/-- Every number between the head and an element is an element. -/
theorem mem_of_findGap {a p q : ℕ} {l : List ℕ} (h : findGap l = none) (ha : l.head? = some a)
    (hp : a ≤ p) (hq : q ∈ l) (hpq : p ≤ q) : p ∈ l := by
  cases l with
  | nil => cases ha
  | cons b l =>
    obtain rfl : b = a := Option.some.inj ha
    rw [eq_range'_of_findGap h, List.mem_range'_1] at hq ⊢
    omega

/-- A number is the head of every run in which nothing comes before it. -/
theorem head_le_of_findGap {a q : ℕ} {l : List ℕ} (h : findGap l = none) (ha : l.head? = some a)
    (hq : q ∈ l) : a ≤ q := by
  cases l with
  | nil => cases ha
  | cons b l =>
    obtain rfl : b = a := Option.some.inj ha
    rw [eq_range'_of_findGap h, List.mem_range'_1] at hq
    exact hq.1

end CheckedLists
