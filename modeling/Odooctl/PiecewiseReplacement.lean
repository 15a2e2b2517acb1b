import Odooctl.TextReplacement

/-!
# Words replaced piece by piece

A text that comes in pieces is the same with its words replaced in each piece alone as with its
words replaced in the whole, when no match of a word, in the text as the words before it may have
left it, begins in one piece and ends in another.
-/
namespace TextReplacement

variable {α : Type}

section Pieces

variable (mask text : List α)

/-- A match of the word may begin before the place and end after it. -/
def Crosses (R : ℕ → ℕ → Prop) (place : ℕ) (old : List α) : Prop :=
  ∃ l r, l ≠ [] ∧ r ≠ [] ∧ old = l ++ r ∧
    (∃ a s, a ≤ place ∧ l = s ++ slice text a place ∧ After mask R a s) ∧
    ∃ b t, place ≤ b ∧ r = slice text place b ++ t ∧ Before mask R b t

def Uncrossed (place : ℕ) : (ℕ → ℕ → Prop) → List (List α) → Prop
  | _, [] => True
  | R, v :: later =>
    ¬ Crosses mask text R place v ∧
      Uncrossed place (Reached mask text R (fun _ => False) v) later

/-- No word crosses the end of a piece that another one follows. -/
def UncrossedEnds (words pieces : List (List α)) : Prop :=
  ∀ front rear, pieces = front ++ rear → front ≠ [] → rear ≠ [] →
    Uncrossed mask pieces.flatten front.flatten.length (fun _ _ => False) words

end Pieces

section Split

variable {mask text old : List α} {R : ℕ → ℕ → Prop} {l m : List (Cell α)}
  {words : List (List α)} {place : ℕ}

theorem prefix_append_iff {x y : List α} (h : ∀ r, r ≠ [] → r <+: y → old ≠ x ++ r) :
    old <+: x ++ y ↔ old <+: x := by
  constructor
  · rintro ⟨t, ht⟩
    rcases List.append_eq_append_iff.mp ht with ⟨r, rfl, -⟩ | ⟨r, rfl, rfl⟩
    · exact List.prefix_append _ _
    · by_cases hnil : r = []
      · rw [hnil, List.append_nil]
      · exact absurd rfl (h r hnil (List.prefix_append _ _))
  · exact fun hold => hold.trans (List.prefix_append _ _)

/-- The cells on the two sides of a place of the text. -/
structure Sides (mask text : List α) (R : ℕ → ℕ → Prop) (place : ℕ) (l m : List (Cell α)) :
    Prop where
  left : Cells mask text R (fun _ => False) l
  right : Cells mask text R (fun _ => False) m
  last : ∀ x ∈ l.getLast?, EndsAt mask R place x
  first : ∀ x ∈ m.head?, StartsAt mask R place x

theorem Sides.after (h : Sides mask text R place l m) {l' m' : List (Cell α)}
    (hl : Replaced mask old l l') (hm : Replaced mask old m m') (hold : old ≠ [])
    (hmask : mask ≠ []) :
    Sides mask text (Reached mask text R (fun _ => False) old) place l' m' where
  left := hl.cells_after h.left hold hmask
  right := hm.cells_after h.right hold hmask
  last := hl.ends h.left hold hmask h.last
  first := hm.starts h.right hold hmask h.first

theorem Sides.before_place (h : Sides mask text R place l m) {x : List α} (hx : x ≠ [])
    (hsuffix : x <:+ l.map Prod.fst) :
    ∃ a s, a ≤ place ∧ x = s ++ slice text a place ∧ After mask R a s := by
  obtain ⟨k, hk, rfl⟩ := List.suffix_map_iff.mp hsuffix
  obtain ⟨l, rfl⟩ := hk
  rcases List.eq_nil_or_concat' k with rfl | ⟨k, z, rfl⟩
  · exact absurd rfl hx
  · have hz : EndsAt mask R place z := h.last z (by simp)
    cases hplace : z.2 with
    | some p =>
      obtain rfl := hz.1 p hplace
      obtain ⟨a, s, ha, -, hmap, hs⟩ := (h.left.append_right).run_left hplace
      exact ⟨a, s, by omega, hmap, hs⟩
    | none =>
      obtain ⟨hlast, hreached⟩ := hz.2 hplace
      refine ⟨place, (k ++ [z]).map Prod.fst, le_refl place, ?_, Or.inr ⟨?_, hreached⟩⟩
      · rw [slice_self, List.append_nil]
      · rw [hlast]
        simp

theorem Sides.after_place (h : Sides mask text R place l m) {y : List α} (hy : y ≠ [])
    (hbegins : y <+: m.map Prod.fst) :
    ∃ b t, place ≤ b ∧ y = slice text place b ++ t ∧ Before mask R b t := by
  obtain ⟨k, hk, rfl⟩ := List.prefix_map_iff.mp hbegins
  obtain ⟨m, rfl⟩ := hk
  cases k with
  | nil => exact absurd rfl hy
  | cons z k =>
    have hz : StartsAt mask R place z := h.first z rfl
    cases hplace : z.2 with
    | some p =>
      obtain rfl := hz.1 p hplace
      obtain ⟨b, t, hb, -, hmap, ht⟩ := (h.right.append_left).run_right hplace
      exact ⟨b, t, by omega, hmap, ht⟩
    | none =>
      obtain ⟨hhead, hreached⟩ := hz.2 hplace
      refine ⟨place, (z :: k).map Prod.fst, le_refl place, ?_, Or.inr ⟨hhead.symm, hreached⟩⟩
      rw [slice_self, List.nil_append]

theorem starts_placed (mask w : List α) (R : ℕ → ℕ → Prop) (q : ℕ) :
    ∀ x ∈ (placed w q).head?, StartsAt mask R q x := by
  intro x hx
  cases w with
  | nil => cases hx
  | cons c w =>
    obtain rfl : (c, some q) = x := Option.some.inj hx
    exact ⟨fun p hp => (Option.some.inj hp).symm, fun hnone => (by cases hnone)⟩

theorem ends_placed (mask w : List α) (R : ℕ → ℕ → Prop) (q : ℕ) :
    ∀ x ∈ (placed w q).getLast?, EndsAt mask R (q + w.length) x := by
  intro x hx
  rcases List.eq_nil_or_concat' w with rfl | ⟨w, c, rfl⟩
  · cases hx
  · rw [placed_append, placed_cons, List.getLast?_append] at hx
    obtain rfl : (c, some (q + w.length)) = x := Option.some.inj hx
    refine ⟨fun p hp => ?_, fun hnone => (by cases hnone)⟩
    rw [← Option.some.inj hp, List.length_append]
    rfl

/-- A word cannot cross a place before which a letter stands that no word has. -/
theorem uncrossed_of_letter {c : α} (hc : ∀ w ∈ words, c ∉ w)
    (hplace : ∀ a < place, c ∈ slice text a place) (hR : ∀ a, ¬ R a place) :
    Uncrossed mask text place R words := by
  induction words generalizing R with
  | nil => trivial
  | cons v later ih =>
    have hv := hc v List.mem_cons_self
    refine ⟨?_, ih (fun w hw => hc w (List.mem_cons_of_mem _ hw)) ?_⟩
    · rintro ⟨l, r, hl, -, rfl, ⟨a, s, ha, rfl, hs⟩, -⟩
      rcases ha.lt_or_eq with ha | rfl
      · exact hv (List.mem_append_left _ (List.mem_append_right _ (hplace a ha)))
      · rcases hs with rfl | ⟨-, c, hc⟩
        · exact hl (by rw [slice_self, List.append_nil])
        · exact hR c hc
    · rintro a (ha | ⟨hlt, -, s, t, rfl, -, -⟩)
      · exact hR a ha
      · exact hv (List.mem_append_left _ (List.mem_append_right _ (hplace a hlt)))

/-- Lines, and words without a newline. -/
theorem uncrossedEnds_of_letter {c : α} {pieces : List (List α)} (hc : ∀ w ∈ words, c ∉ w)
    (hends : ∀ x ∈ pieces.dropLast, x.getLast? = some c) : UncrossedEnds mask words pieces := by
  intro front rear hpieces hfront hrear
  refine uncrossed_of_letter hc (fun a ha => ?_) fun _ => not_false
  rcases List.eq_nil_or_concat' front with rfl | ⟨front, x, rfl⟩
  · exact absurd rfl hfront
  · have hx : x.getLast? = some c := by
      refine hends x ?_
      rw [hpieces, List.dropLast_append_of_ne_nil hrear]
      simp
    obtain ⟨x, rfl⟩ := List.getLast?_eq_some_iff.mp hx
    have hlength : (front ++ [x ++ [c]]).flatten.length = (front.flatten ++ x).length + 1 := by
      simp [Nat.add_assoc]
    have htext : pieces.flatten = front.flatten ++ x ++ c :: rear.flatten := by
      simp [hpieces]
    have hletter : pieces.flatten[(front.flatten ++ x).length]? = some c := by
      rw [htext, List.getElem?_append_right (le_refl _), Nat.sub_self]
      rfl
    rw [hlength, slice_snoc hletter (by omega)]
    exact List.mem_append_right _ List.mem_cons_self

variable [DecidableEq α]

/-- A word that no match puts on both sides is replaced on each side alone. -/
theorem hide_append (hold : old ≠ [])
    (h : ∀ x y, x ≠ [] → y ≠ [] → x <:+ l.map Prod.fst → y <+: m.map Prod.fst → old ≠ x ++ y) :
    hide mask old (l ++ m) = hide mask old l ++ hide mask old m := by
  induction hlength : l.length using Nat.strong_induction_on generalizing l with
  | _ n ih =>
    cases l with
    | nil => rfl
    | cons c l =>
      have hbegins : old <+: (c :: (l ++ m)).map Prod.fst ↔ old <+: (c :: l).map Prod.fst := by
        rw [← List.cons_append, List.map_append]
        exact prefix_append_iff fun r hr hrm =>
          h _ r (List.cons_ne_nil _ _) hr (List.suffix_refl _) hrm
      rw [List.cons_append, hide_cons mask old c _ hold, hide_cons mask old c l hold]
      by_cases hmatch : old <+: (c :: l).map Prod.fst
      · have hle : old.length ≤ (c :: l).length := by simpa using hmatch.length_le
        have hpos := List.length_pos_iff.mpr hold
        rw [if_pos (hbegins.mpr hmatch), if_pos hmatch, ← List.cons_append,
          List.drop_append_of_le_length hle, List.append_assoc]
        congr 1
        refine ih _ ?_ (fun x y hx hy hxl => h x y hx hy (hxl.trans ?_)) rfl
        · simp only [List.length_drop, List.length_cons] at hlength ⊢
          omega
        · exact (List.drop_suffix _ _).map _
      · rw [if_neg (hbegins.not.mpr hmatch), if_neg hmatch, List.cons_append]
        congr 1
        refine ih l.length (by simp [← hlength]) (fun x y hx hy hxl => h x y hx hy ?_) rfl
        exact hxl.trans ((List.suffix_cons c l).map _)

/-- Words that no match puts on both sides of a place are replaced on each side alone. -/
theorem hideAll_append (hmask : mask ≠ []) (hwords : ∀ w ∈ words, w ≠ [])
    (h : Sides mask text R place l m) (huncrossed : Uncrossed mask text place R words) :
    hideAll mask words (l ++ m) = hideAll mask words l ++ hideAll mask words m := by
  induction words generalizing R l m with
  | nil => rfl
  | cons v later ih =>
    obtain ⟨hv, hlater⟩ := huncrossed
    have hne := hwords v List.mem_cons_self
    have hstep : hide mask v (l ++ m) = hide mask v l ++ hide mask v m :=
      hide_append hne fun x y hx hy hxl hym heq =>
        hv ⟨x, y, hx, hy, heq, h.before_place hx hxl, h.after_place hy hym⟩
    have hnext := h.after (replaced_hide hne mask l) (replaced_hide hne mask m) hne hmask
    have hrest := ih (fun w hw => hwords w (List.mem_cons_of_mem _ hw)) hnext hlater
    rw [hideAll, List.foldl_cons, hstep]
    exact hrest

theorem replaceAll_nil (mask : List α) (words : List (List α)) : replaceAll mask words [] = [] := by
  induction words with
  | nil => rfl
  | cons v later ih => exact ih

theorem hideAll_flatten {pieces front rear : List (List α)} (hmask : mask ≠ [])
    (hwords : ∀ w ∈ words, w ≠ []) (h : UncrossedEnds mask words pieces)
    (hpieces : pieces = front ++ rear) :
    (hideAll mask words (placed rear.flatten front.flatten.length)).map Prod.fst =
      (rear.map (replaceAll mask words)).flatten := by
  induction rear generalizing front with
  | nil =>
    rw [map_hideAll, map_placed]
    exact replaceAll_nil mask words
  | cons x rear ih =>
    have hnext : pieces = (front ++ [x]) ++ rear := by simp [hpieces]
    have hplace : (front ++ [x]).flatten.length = front.flatten.length + x.length := by simp
    have hrest := ih hnext
    rw [hplace] at hrest
    by_cases hrear : rear = []
    · subst hrear
      rw [List.flatten_cons, List.flatten_nil, List.append_nil, map_hideAll, map_placed]
      exact (List.append_nil _).symm
    have hend := h (front ++ [x]) rear hnext (by simp) hrear
    rw [hplace] at hend
    have hdrop : pieces.flatten.drop front.flatten.length = x ++ rear.flatten := by
      rw [hpieces, List.flatten_append, List.drop_left, List.flatten_cons]
    have hdrop' : pieces.flatten.drop (front.flatten.length + x.length) = rear.flatten := by
      rw [← List.drop_drop, hdrop, List.drop_left]
    have hsides : Sides mask pieces.flatten (fun _ _ => False) (front.flatten.length + x.length)
        (placed x front.flatten.length)
        (placed rear.flatten (front.flatten.length + x.length)) := by
      refine ⟨cells_placed ?_ mask _, cells_placed ?_ mask _, ends_placed mask x _ _,
        starts_placed mask rear.flatten _ _⟩
      · rw [OccursAt, hdrop]
        exact List.prefix_append _ _
      · rw [OccursAt, hdrop']
    rw [List.flatten_cons, placed_append, hideAll_append hmask hwords hsides hend, List.map_append,
      hrest, map_hideAll, map_placed]
    rfl

/-- Pieces that no word crosses the end of can be treated one by one. -/
theorem replaceAll_flatten {pieces : List (List α)} (hmask : mask ≠ [])
    (hwords : ∀ w ∈ words, w ≠ []) (h : UncrossedEnds mask words pieces) :
    replaceAll mask words pieces.flatten = (pieces.map (replaceAll mask words)).flatten := by
  have hall := hideAll_flatten hmask hwords h (List.nil_append pieces).symm
  rwa [map_hideAll, map_placed] at hall

end Split

end TextReplacement
