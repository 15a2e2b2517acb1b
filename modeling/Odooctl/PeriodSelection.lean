import Mathlib.Data.Finset.Card
import Mathlib.Data.List.Pairwise

/-!
# The newest of each period

A list of items, newest first, and the walk along it that keeps the first item of each
period until it has met enough periods.
-/
namespace PeriodSelection

variable {α β γ : Type} [DecidableEq β] [DecidableEq γ] {period : α → β} {count : ℕ}

/-- The rest of the walk after the periods in `seen`. -/
def firstOfPeriods (period : α → β) (count : ℕ) : List β → List α → List α
  | _, [] => []
  | seen, x :: rest =>
    if period x ∈ seen then firstOfPeriods period count seen rest
    else x :: if count ≤ seen.length + 1 then []
      else firstOfPeriods period count (period x :: seen) rest

theorem card_toFinset_insert {b : β} {seen more : List β} (h : b ∈ seen) :
    (seen ++ b :: more).toFinset = (seen ++ more).toFinset := by
  ext c
  simp only [List.mem_toFinset, List.mem_append, List.mem_cons]
  constructor
  · rintro (hc | rfl | hc)
    · exact Or.inl hc
    · exact Or.inl h
    · exact Or.inr hc
  · rintro (hc | hc)
    · exact Or.inl hc
    · exact Or.inr (Or.inr hc)

theorem toFinset_move {b : β} {seen more : List β} :
    (b :: seen ++ more).toFinset = (seen ++ b :: more).toFinset := by
  ext c
  simp only [List.mem_toFinset, List.mem_append, List.mem_cons, List.cons_append]
  tauto

/-- The walk keeps an item whose period is new if it has not met enough periods before it. -/
theorem mem_firstOfPeriods {seen : List β} {items : List α} {x : α} (hseen : seen.Nodup)
    (hroom : seen.length < count) : x ∈ firstOfPeriods period count seen items ↔
      ∃ before after, items = before ++ x :: after ∧ period x ∉ seen ∧
        period x ∉ before.map period ∧ (seen ++ before.map period).toFinset.card < count := by
  induction items generalizing seen with
  | nil => simp [firstOfPeriods]
  | cons c rest ih =>
    by_cases hc : period c ∈ seen
    · rw [firstOfPeriods, if_pos hc, ih hseen hroom]
      constructor
      · rintro ⟨before, after, rfl, hnew, hfirst, hcard⟩
        refine ⟨c :: before, after, rfl, hnew, ?_, ?_⟩
        · rw [List.map_cons, List.mem_cons]
          rintro (heq | hmem)
          · exact hnew (heq ▸ hc)
          · exact hfirst hmem
        · rwa [List.map_cons, card_toFinset_insert hc]
      · rintro ⟨before, after, heq, hnew, hfirst, hcard⟩
        cases before with
        | nil =>
          obtain ⟨rfl, -⟩ := List.cons.inj heq
          exact absurd hc hnew
        | cons d before =>
          obtain ⟨rfl, rfl⟩ := List.cons.inj heq
          rw [List.map_cons, card_toFinset_insert hc] at hcard
          rw [List.map_cons, List.mem_cons, not_or] at hfirst
          exact ⟨before, after, rfl, hnew, hfirst.2, hcard⟩
    · have hcons : (period c :: seen).Nodup := List.nodup_cons.mpr ⟨hc, hseen⟩
      have hstart : (seen ++ ([] : List α).map period).toFinset.card < count := by
        rw [List.map_nil, List.append_nil, List.toFinset_card_of_nodup hseen]
        exact hroom
      rw [firstOfPeriods, if_neg hc, List.mem_cons]
      by_cases hfull : count ≤ seen.length + 1
      · rw [if_pos hfull]
        constructor
        · rintro (rfl | hmem)
          · exact ⟨[], rest, rfl, hc, List.not_mem_nil, hstart⟩
          · cases hmem
        · rintro ⟨before, after, heq, hnew, hfirst, hcard⟩
          cases before with
          | nil => exact Or.inl (List.cons.inj heq).1.symm
          | cons d before =>
            obtain ⟨rfl, -⟩ := List.cons.inj heq
            have hsub : (period c :: seen).toFinset ⊆
                (seen ++ (c :: before).map period).toFinset := by
              rw [List.map_cons, ← toFinset_move, List.toFinset_append]
              exact Finset.subset_union_left
            have hle := Finset.card_le_card hsub
            rw [List.toFinset_card_of_nodup hcons, List.length_cons] at hle
            omega
      · rw [if_neg hfull, ih hcons (by rw [List.length_cons]; omega)]
        constructor
        · rintro (rfl | ⟨before, after, rfl, hnew, hfirst, hcard⟩)
          · exact ⟨[], rest, rfl, hc, List.not_mem_nil, hstart⟩
          · rw [List.mem_cons, not_or] at hnew
            refine ⟨c :: before, after, rfl, hnew.2, ?_, ?_⟩
            · rw [List.map_cons, List.mem_cons, not_or]
              exact ⟨hnew.1, hfirst⟩
            · rwa [List.map_cons, ← toFinset_move]
        · rintro ⟨before, after, heq, hnew, hfirst, hcard⟩
          cases before with
          | nil => exact Or.inl (List.cons.inj heq).1.symm
          | cons d before =>
            obtain ⟨rfl, rfl⟩ := List.cons.inj heq
            rw [List.map_cons, List.mem_cons, not_or] at hfirst
            rw [List.map_cons, ← toFinset_move] at hcard
            refine Or.inr ⟨before, after, rfl, ?_, hfirst.2, hcard⟩
            rw [List.mem_cons, not_or]
            exact ⟨hfirst.1, hnew⟩

theorem firstOfPeriods_subset (period : α → β) (count : ℕ) (seen : List β) (items : List α) :
    firstOfPeriods period count seen items ⊆ items := by
  induction items generalizing seen with
  | nil => exact List.nil_subset _
  | cons c rest ih =>
    rw [firstOfPeriods]
    split
    · exact List.subset_cons_of_subset c (ih seen)
    · split
      · exact List.cons_subset_cons c (List.nil_subset rest)
      · exact List.cons_subset_cons c (ih _)

/-- Only which items share a period matters. -/
theorem firstOfPeriods_congr {other : α → γ} (h : ∀ x y, period x = period y ↔ other x = other y)
    (walked items : List α) : firstOfPeriods period count (walked.map period) items =
      firstOfPeriods other count (walked.map other) items := by
  have hmem : ∀ x (l : List α), period x ∈ l.map period ↔ other x ∈ l.map other := by
    intro x l
    simp only [List.mem_map]
    constructor
    · rintro ⟨y, hy, heq⟩
      exact ⟨y, hy, (h y x).mp heq⟩
    · rintro ⟨y, hy, heq⟩
      exact ⟨y, hy, (h y x).mpr heq⟩
  induction items generalizing walked with
  | nil => rfl
  | cons c rest ih =>
    have hnext := ih (c :: walked)
    simp only [List.map_cons] at hnext
    by_cases hc : period c ∈ walked.map period
    · rw [firstOfPeriods, if_pos hc, firstOfPeriods, if_pos ((hmem c walked).mp hc), ih]
    · rw [firstOfPeriods, if_neg hc, firstOfPeriods, if_neg fun hm => hc ((hmem c walked).mpr hm),
        hnext, List.length_map, List.length_map]

/-- The items that the whole walk keeps. -/
def newestOfPeriods (period : α → β) (count : ℕ) (items : List α) : List α :=
  if count = 0 then [] else firstOfPeriods period count [] items

/-- Nothing newer shares the period of `x`, and fewer than `count` periods have anything
newer. -/
structure NewestOfPeriod (newer : α → α → Bool) (period : α → β) (count : ℕ) (items : List α)
    (x : α) : Prop where
  newest : ∀ y ∈ items, newer y x = true → period y ≠ period x
  few : ((items.filter (newer · x)).map period).toFinset.card < count

section Order

variable {newer : α → α → Bool} {items : List α} {x : α}

theorem filter_newer (hasymm : ∀ x y, newer x y = true → newer y x = false) {before after : List α}
    (h : (before ++ x :: after).Pairwise fun y z => newer y z = true) :
    (before ++ x :: after).filter (newer · x) = before := by
  obtain ⟨-, hafter, hbefore⟩ := List.pairwise_append.mp h
  have hirrefl : newer x x = false := by
    cases hx : newer x x with
    | false => rfl
    | true => exact hx.symm.trans (hasymm x x hx)
  have hold : after.filter (newer · x) = [] := by
    rw [List.filter_eq_nil_iff]
    intro y hy
    rw [hasymm x y ((List.pairwise_cons.mp hafter).1 y hy)]
    decide
  have hnew : before.filter (newer · x) = before :=
    List.filter_eq_self.mpr fun y hy => hbefore y hy x List.mem_cons_self
  rw [List.filter_append, hnew, List.filter_cons_of_neg (by rw [hirrefl]; decide), hold,
    List.append_nil]

theorem mem_newestOfPeriods (hasymm : ∀ x y, newer x y = true → newer y x = false)
    (h : items.Pairwise fun y z => newer y z = true) :
    x ∈ newestOfPeriods period count items ↔
      x ∈ items ∧ NewestOfPeriod newer period count items x := by
  unfold newestOfPeriods
  split
  · next hzero =>
    constructor
    · intro hmem
      cases hmem
    · rintro ⟨-, hnewest⟩
      exact absurd hnewest.few (by omega)
  · next hpos =>
    rw [mem_firstOfPeriods List.nodup_nil (Nat.pos_of_ne_zero hpos)]
    constructor
    · rintro ⟨before, after, rfl, -, hfirst, hcard⟩
      have hfilter := filter_newer hasymm h
      refine ⟨List.mem_append_right before List.mem_cons_self, ⟨?_, ?_⟩⟩
      · intro y hy hnewer heq
        have hbefore : y ∈ before := hfilter ▸ List.mem_filter.mpr ⟨hy, hnewer⟩
        exact hfirst (heq ▸ List.mem_map_of_mem hbefore)
      · rwa [hfilter]
    · rintro ⟨hmem, hnewest⟩
      obtain ⟨before, after, rfl⟩ := List.append_of_mem hmem
      have hfilter := filter_newer hasymm h
      have hfew := hnewest.few
      rw [hfilter] at hfew
      refine ⟨before, after, rfl, List.not_mem_nil, ?_, hfew⟩
      intro hsame
      obtain ⟨y, hy, heq⟩ := List.mem_map.mp hsame
      have hnewer := (List.pairwise_append.mp h).2.2 y hy x List.mem_cons_self
      exact hnewest.newest y (List.mem_append_left _ hy) hnewer heq

theorem NewestOfPeriod.mono {more : ℕ} (h : NewestOfPeriod newer period count items x)
    (hle : count ≤ more) : NewestOfPeriod newer period more items x :=
  ⟨h.newest, Nat.lt_of_lt_of_le h.few hle⟩

end Order

end PeriodSelection
