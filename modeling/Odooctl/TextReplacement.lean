import Mathlib.Data.List.Chain
import Mathlib.Data.List.Infix

/-!
# Words replaced one after another

Every word of a list is replaced by a mask, each in the text that the words before it have
left. A cell is a letter with its place in the first text, or a letter of a mask, which has
none; so the cells that are left tell which letters of the text still show.
-/
namespace TextReplacement

variable {α β : Type}

/-- The number counts the letters of a replaced `old` that are still to be passed over. -/
def replaceFrom [DecidableEq α] (letter : β → α) (old : List α) (new : List β) : ℕ → List β → List β
  | _, [] => []
  | skip + 1, _ :: cs => replaceFrom letter old new skip cs
  | 0, c :: cs =>
    if old <+: (c :: cs).map letter then
      new ++ replaceFrom letter old new (old.length - 1) cs
    else c :: replaceFrom letter old new 0 cs

/-- Each `old` that is not empty, from the left and without overlap. -/
def replace [DecidableEq α] (old new text : List α) : List α := replaceFrom id old new 0 text

abbrev Cell (α : Type) := α × Option ℕ

def maskCells (mask : List α) : List (Cell α) := mask.map fun c => (c, none)

/-- The letters of a word at the places from `q` on. -/
def placed (w : List α) (q : ℕ) : List (Cell α) := (w.zipIdx q).map fun c => (c.1, some c.2)

def hide [DecidableEq α] (mask old : List α) (cells : List (Cell α)) : List (Cell α) :=
  replaceFrom Prod.fst old (maskCells mask) 0 cells

def hideAll [DecidableEq α] (mask : List α) (words : List (List α)) (cells : List (Cell α)) :
    List (Cell α) :=
  words.foldl (fun cells old => hide mask old cells) cells

def replaceAll [DecidableEq α] (mask : List α) (words : List (List α)) (text : List α) : List α :=
  words.foldl (fun text old => replace old mask text) text

/-! ## Cells -/

theorem map_maskCells (mask : List α) : (maskCells mask).map Prod.fst = mask := by
  simp [maskCells, Function.comp_def]

theorem map_placed (w : List α) (q : ℕ) : (placed w q).map Prod.fst = w := by
  simp [placed, Function.comp_def]

theorem length_placed (w : List α) (q : ℕ) : (placed w q).length = w.length := by
  simp [placed]

theorem placed_append (v w : List α) (q : ℕ) :
    placed (v ++ w) q = placed v q ++ placed w (q + v.length) := by
  simp [placed, List.zipIdx_append]

theorem placed_eq_append {w : List α} {q : ℕ} {l m : List (Cell α)} (h : placed w q = l ++ m) :
    ∃ u v, w = u ++ v ∧ l = placed u q ∧ m = placed v (q + u.length) := by
  have hlen : (w.take l.length).length = l.length := by
    have hlength := congrArg List.length h
    rw [length_placed, List.length_append] at hlength
    rw [List.length_take]
    omega
  refine ⟨w.take l.length, w.drop l.length, (List.take_append_drop _ _).symm, ?_⟩
  refine List.append_inj (h.symm.trans ?_) (by rw [length_placed, hlen])
  rw [← placed_append, List.take_append_drop]

theorem placed_cons (c : α) (w : List α) (q : ℕ) :
    placed (c :: w) q = (c, some q) :: placed w (q + 1) := rfl

theorem mem_placed {w : List α} {q : ℕ} {x : Cell α} (h : x ∈ placed w q) :
    ∃ p, x.2 = some p ∧ q ≤ p ∧ p < q + w.length ∧ w[p - q]? = some x.1 := by
  obtain ⟨⟨c, p⟩, hmem, rfl⟩ := List.mem_map.mp h
  obtain ⟨hle, hlt, hget⟩ := List.mem_zipIdx hmem
  exact ⟨p, rfl, hle, hlt, by rw [hget]; simp⟩

/-! ## One replacement -/

/-- What one word is replaced by: a cell stays where the word does not begin. -/
inductive Replaced (mask old : List α) : List (Cell α) → List (Cell α) → Prop where
  | nil : Replaced mask old [] []
  | keep {c cs ds} : ¬ old <+: (c :: cs).map Prod.fst → Replaced mask old cs ds →
      Replaced mask old (c :: cs) (c :: ds)
  | cut {m cs ds} : m.map Prod.fst = old → Replaced mask old cs ds →
      Replaced mask old (m ++ cs) (maskCells mask ++ ds)

theorem Replaced.mem {mask old : List α} {cells ds : List (Cell α)}
    (h : Replaced mask old cells ds) {x : Cell α} {p : ℕ} (hx : x ∈ ds) (hp : x.2 = some p) :
    x ∈ cells := by
  induction h with
  | nil => exact hx
  | keep _ _ ih =>
    rcases List.mem_cons.mp hx with rfl | hx
    · exact List.mem_cons_self
    · exact List.mem_cons_of_mem _ (ih hx)
  | cut _ _ ih =>
    rcases List.mem_append.mp hx with hx | hx
    · obtain ⟨c, -, rfl⟩ := List.mem_map.mp hx
      cases hp
    · exact List.mem_append_right _ (ih hx)

theorem Replaced.sublist {mask old : List α} {cells ds : List (Cell α)}
    (h : Replaced mask old cells ds) :
    (ds.filterMap Prod.snd).Sublist (cells.filterMap Prod.snd) := by
  induction h with
  | nil => exact List.Sublist.refl _
  | @keep c cs ds _ _ ih =>
    rw [List.filterMap_cons, List.filterMap_cons]
    split
    · exact ih
    · exact ih.cons_cons _
  | @cut m cs ds _ _ ih =>
    have hmask : (maskCells mask).filterMap Prod.snd = [] := by
      rw [List.filterMap_eq_nil_iff]
      intro x hx
      obtain ⟨c, -, rfl⟩ := List.mem_map.mp hx
      rfl
    rw [List.filterMap_append, List.filterMap_append, hmask, List.nil_append]
    exact ih.trans (List.sublist_append_right _ _)

/-! ## Where a word can match -/

def OccursAt (w text : List α) (q : ℕ) : Prop := w <+: text.drop q

def slice (text : List α) (a b : ℕ) : List α := (text.drop a).take (b - a)

section Touch

variable (mask text : List α) (R : ℕ → ℕ → Prop) (G : ℕ → Prop)

/-- What a word may have before the letter at `a`: nothing, or the end of a mask that may have
been put there. `R c a` says that the letters from `c` to `a` may have been replaced. -/
def After (a : ℕ) (s : List α) : Prop := s = [] ∨ s.getLast? = mask.getLast? ∧ ∃ c, R c a

/-- What it may have from `b` on. -/
def Before (b : ℕ) (t : List α) : Prop := t = [] ∨ t.head? = mask.head? ∧ ∃ d, R b d

/-- A match of the word may take the letters from `a` to `b`, none of which is surely replaced
already. -/
def Touches (old : List α) (a b : ℕ) : Prop :=
  a < b ∧ (∀ p, a ≤ p → p < b → ¬ G p) ∧
    ∃ s t, old = s ++ slice text a b ++ t ∧ After mask R a s ∧ Before mask R b t

/-- What may have been replaced after one more word. -/
def Reached (old : List α) (a b : ℕ) : Prop := R a b ∨ Touches mask text R G old a b

/-- What a cell must be to come next after the letter before `a`. -/
def StartsAt (a : ℕ) (x : Cell α) : Prop :=
  (∀ q, x.2 = some q → q = a) ∧ (x.2 = none → mask.head? = some x.1 ∧ ∃ b, R a b)

/-- What a cell must be to come last before the letter at `b`. -/
def EndsAt (b : ℕ) (x : Cell α) : Prop :=
  (∀ p, x.2 = some p → p + 1 = b) ∧ (x.2 = none → mask.getLast? = some x.1 ∧ ∃ a, R a b)

def Adjacent (x y : Cell α) : Prop :=
  (∀ p, x.2 = some p → StartsAt mask R (p + 1) y) ∧ ∀ q, y.2 = some q → EndsAt mask R q x

/-- Letters of the text in their order, with masks where some are missing. -/
structure Cells (cells : List (Cell α)) : Prop where
  letters : ∀ x ∈ cells, ∀ p, x.2 = some p → text[p]? = some x.1 ∧ ¬ G p
  chain : cells.IsChain (Adjacent mask R)
  sorted : (cells.filterMap Prod.snd).Pairwise (· < ·)

end Touch

section Runs

variable {mask text old w : List α} {R S : ℕ → ℕ → Prop} {G : ℕ → Prop}
  {cells l m ds : List (Cell α)} {a b q : ℕ} {x y : Cell α}

theorem slice_cons {c : α} (h : text[a]? = some c) (hab : a < b) :
    slice text a b = c :: slice text (a + 1) b := by
  obtain ⟨hlt, rfl⟩ := List.getElem?_eq_some_iff.mp h
  obtain ⟨n, rfl⟩ : ∃ n, b = a + n + 1 := ⟨b - a - 1, by omega⟩
  have hn : a + n + 1 - a = n + 1 := by omega
  have hn' : a + n + 1 - (a + 1) = n := by omega
  rw [slice, slice, List.drop_eq_getElem_cons hlt, hn, hn', List.take_succ_cons]

theorem slice_snoc {c : α} (h : text[b]? = some c) (hab : a ≤ b) :
    slice text a (b + 1) = slice text a b ++ [c] := by
  obtain ⟨n, rfl⟩ : ∃ n, b = a + n := ⟨b - a, by omega⟩
  have hn : a + n + 1 - a = n + 1 := by omega
  have hn' : a + n - a = n := by omega
  rw [slice, slice, hn, hn', List.take_add_one, List.getElem?_drop, h]
  rfl

theorem slice_self : slice text a a = [] := by simp [slice]

theorem Cells.append_left (h : Cells mask text R G (l ++ m)) : Cells mask text R G l where
  letters := fun x hx => h.letters x (List.mem_append_left _ hx)
  chain := (List.isChain_append.mp h.chain).1
  sorted := by
    have hsorted := h.sorted
    rw [List.filterMap_append] at hsorted
    exact (List.pairwise_append.mp hsorted).1

theorem Cells.append_right (h : Cells mask text R G (l ++ m)) : Cells mask text R G m where
  letters := fun x hx => h.letters x (List.mem_append_right _ hx)
  chain := (List.isChain_append.mp h.chain).2.1
  sorted := by
    have hsorted := h.sorted
    rw [List.filterMap_append] at hsorted
    exact (List.pairwise_append.mp hsorted).2.1

theorem Cells.append_right_of_assoc {n : List (Cell α)} (h : Cells mask text R G (l ++ m ++ n)) :
    Cells mask text R G (m ++ n) := by
  rw [List.append_assoc] at h
  exact h.append_right

theorem Cells.lt (h : Cells mask text R G (l ++ m)) {p q : ℕ} (hx : x ∈ l)
    (hy : y ∈ m) (hp : x.2 = some p) (hq : y.2 = some q) : p < q := by
  have hsorted := h.sorted
  rw [List.filterMap_append] at hsorted
  exact (List.pairwise_append.mp hsorted).2.2 p (List.mem_filterMap.mpr ⟨x, hx, hp⟩) q
    (List.mem_filterMap.mpr ⟨y, hy, hq⟩)

theorem Cells.adjacent (h : Cells mask text R G (l ++ m)) (hx : x ∈ l.getLast?)
    (hy : y ∈ m.head?) : Adjacent mask R x y :=
  (List.isChain_append.mp h.chain).2.2 x hx y hy

/-- From a letter of the text on, cells are letters up to their end or to a mask. -/
theorem Cells.run_right (h : Cells mask text R G (x :: m)) {p : ℕ} (hp : x.2 = some p) :
    ∃ b t, p < b ∧ (∀ p', p ≤ p' → p' < b → ¬ G p') ∧
      (x :: m).map Prod.fst = slice text p b ++ t ∧ Before mask R b t := by
  obtain ⟨hletter, hfree⟩ := h.letters x List.mem_cons_self p hp
  have hone : ∀ p', p ≤ p' → p' < p + 1 → ¬ G p' := by
    intro p' hle hlt
    obtain rfl : p' = p := by omega
    exact hfree
  induction m generalizing x p with
  | nil =>
    refine ⟨p + 1, [], by omega, hone, ?_, Or.inl rfl⟩
    rw [slice_cons hletter (by omega), slice_self]
    rfl
  | cons y m ih =>
    have hadj : Adjacent mask R x y := h.adjacent (l := [x]) rfl rfl
    have htail : Cells mask text R G (y :: m) := h.append_right (l := [x])
    cases hy : y.2 with
    | some q =>
      obtain rfl := (hadj.1 p hp).1 q hy
      obtain ⟨hletter', hfree'⟩ := htail.letters y List.mem_cons_self _ hy
      obtain ⟨b, t, hb, hrun, hmap, ht⟩ := ih htail hy hletter' hfree' (by
        intro p' hle hlt
        obtain rfl : p' = p + 1 := by omega
        exact hfree')
      refine ⟨b, t, by omega, ?_, ?_, ht⟩
      · intro p' hle hlt
        by_cases heq : p' = p
        · exact heq ▸ hfree
        · exact hrun p' (by omega) hlt
      · rw [List.map_cons, hmap, slice_cons hletter (by omega), List.cons_append]
    | none =>
      obtain ⟨hhead, hreached⟩ := (hadj.1 p hp).2 hy
      refine ⟨p + 1, (y :: m).map Prod.fst, by omega, hone, ?_, Or.inr ⟨hhead.symm, hreached⟩⟩
      rw [slice_cons hletter (by omega), slice_self]
      rfl

/-- Up to a letter of the text, cells are letters from their beginning or from a mask on. -/
theorem Cells.run_left (h : Cells mask text R G (m ++ [x])) {p : ℕ} (hp : x.2 = some p) :
    ∃ a s, a ≤ p ∧ (∀ p', a ≤ p' → p' < p + 1 → ¬ G p') ∧
      (m ++ [x]).map Prod.fst = s ++ slice text a (p + 1) ∧ After mask R a s := by
  obtain ⟨hletter, hfree⟩ := h.letters x (List.mem_append_right _ List.mem_cons_self) p hp
  have hone : ∀ p', p ≤ p' → p' < p + 1 → ¬ G p' := by
    intro p' hle hlt
    obtain rfl : p' = p := by omega
    exact hfree
  induction m using List.reverseRecOn generalizing x p with
  | nil =>
    refine ⟨p, [], le_refl p, hone, ?_, Or.inl rfl⟩
    rw [slice_cons hletter (by omega), slice_self]
    rfl
  | append_singleton m y ih =>
    have hadj : Adjacent mask R y x := h.adjacent (by simp) rfl
    have hinit : Cells mask text R G (m ++ [y]) := h.append_left
    cases hy : y.2 with
    | some q =>
      have hq := (hadj.2 p hp).1 q hy
      subst hq
      obtain ⟨hletter', hfree'⟩ := hinit.letters y (by simp) _ hy
      obtain ⟨a, s, ha, hrun, hmap, hs⟩ := ih hinit hy hletter' hfree' (by
        intro p' hle hlt
        obtain rfl : p' = q := by omega
        exact hfree')
      refine ⟨a, s, by omega, ?_, ?_, hs⟩
      · intro p' hle hlt
        by_cases heq : p' = q + 1
        · exact heq ▸ hfree
        · exact hrun p' hle (by omega)
      · rw [List.map_append, hmap, slice_snoc hletter (by omega), List.append_assoc]
        rfl
    | none =>
      obtain ⟨hlast, hreached⟩ := (hadj.2 p hp).2 hy
      refine ⟨p, (m ++ [y]).map Prod.fst, le_refl p, hone, ?_, Or.inr ⟨?_, hreached⟩⟩
      · rw [List.map_append, slice_cons hletter (by omega), slice_self]
        rfl
      · rw [hlast]
        simp

/-! ## The cells after one more word -/

theorem StartsAt.reached (h : StartsAt mask R a x) :
    StartsAt mask (Reached mask text R G old) a x := by
  refine ⟨h.1, fun hx => ?_⟩
  obtain ⟨hhead, b, hb⟩ := h.2 hx
  exact ⟨hhead, b, Or.inl hb⟩

theorem EndsAt.reached (h : EndsAt mask R b x) :
    EndsAt mask (Reached mask text R G old) b x := by
  refine ⟨h.1, fun hx => ?_⟩
  obtain ⟨hlast, a, ha⟩ := h.2 hx
  exact ⟨hlast, a, Or.inl ha⟩

/-- A match that starts at `a` takes letters from there on, or what was put there before. -/
theorem Cells.match_starts (h : Cells mask text R G (x :: m))
    (hmatch : (x :: m).map Prod.fst = old) (hx : StartsAt mask R a x) :
    ∃ b, Reached mask text R G old a b := by
  cases hplace : x.2 with
  | none =>
    obtain ⟨-, b, hb⟩ := hx.2 hplace
    exact ⟨b, Or.inl hb⟩
  | some p =>
    obtain rfl := hx.1 p hplace
    obtain ⟨b, t, hb, hfree, hmap, ht⟩ := h.run_right hplace
    exact ⟨b, Or.inr ⟨hb, hfree, [], t, hmatch.symm.trans hmap, Or.inl rfl, ht⟩⟩

theorem Cells.match_ends (h : Cells mask text R G (m ++ [x]))
    (hmatch : (m ++ [x]).map Prod.fst = old) (hx : EndsAt mask R b x) :
    ∃ a, Reached mask text R G old a b := by
  cases hplace : x.2 with
  | none =>
    obtain ⟨-, a, ha⟩ := hx.2 hplace
    exact ⟨a, Or.inl ha⟩
  | some p =>
    obtain rfl := hx.1 p hplace
    obtain ⟨a, s, ha, hfree, hmap, hs⟩ := h.run_left hplace
    refine ⟨a, Or.inr ⟨by omega, hfree, s, [], ?_, hs, Or.inl rfl⟩⟩
    rw [← hmatch, hmap, List.append_nil]

theorem mem_head_maskCells (hx : x ∈ (maskCells mask ++ ds).head?) (hmask : mask ≠ []) :
    x.2 = none ∧ mask.head? = some x.1 := by
  cases mask with
  | nil => exact absurd rfl hmask
  | cons c mask =>
    obtain rfl : (c, none) = x := Option.some.inj hx
    exact ⟨rfl, rfl⟩

theorem mem_last_maskCells (hx : x ∈ (maskCells mask).getLast?) :
    x.2 = none ∧ mask.getLast? = some x.1 := by
  rw [maskCells, List.getLast?_map] at hx
  obtain ⟨c, hc, rfl⟩ := Option.map_eq_some_iff.mp hx
  exact ⟨rfl, hc⟩

/-- The first cell starts where the first one did before. -/
theorem Replaced.starts (h : Replaced mask old cells ds) (hcells : Cells mask text R G cells)
    (hold : old ≠ []) (hmask : mask ≠ []) (hx : ∀ x ∈ cells.head?, StartsAt mask R a x) :
    ∀ y ∈ ds.head?, StartsAt mask (Reached mask text R G old) a y := by
  intro y hy
  cases h with
  | nil => cases hy
  | keep _ _ => exact (hx y hy).reached
  | @cut m cs ds hmatch _ =>
    obtain ⟨hplace, hhead⟩ := mem_head_maskCells hy hmask
    cases m with
    | nil => exact absurd hmatch.symm hold
    | cons x m =>
      refine ⟨fun q hq => ?_, fun _ => ⟨hhead, ?_⟩⟩
      · rw [hplace] at hq
        cases hq
      · exact (hcells.append_left).match_starts hmatch (hx x rfl)

theorem Replaced.ne_nil (h : Replaced mask old cells ds) (hmask : mask ≠ []) (hcells : cells ≠ []) :
    ds ≠ [] := by
  cases h with
  | nil => exact hcells
  | keep _ _ => exact List.cons_ne_nil _ _
  | cut _ _ =>
    intro hnil
    exact hmask (List.map_eq_nil_iff.mp (List.append_eq_nil_iff.mp hnil).1)

theorem Replaced.eq_nil (h : Replaced mask old cells ds) (hold : old ≠ []) (hcells : cells = []) :
    ds = [] := by
  cases h with
  | nil => rfl
  | keep _ _ => cases hcells
  | cut hmatch _ =>
    rw [(List.append_eq_nil_iff.mp hcells).1] at hmatch
    exact absurd hmatch.symm hold

/-- The last cell ends where the last one did before. -/
theorem Replaced.ends (h : Replaced mask old cells ds) (hcells : Cells mask text R G cells)
    (hold : old ≠ []) (hmask : mask ≠ []) (hx : ∀ x ∈ cells.getLast?, EndsAt mask R b x) :
    ∀ y ∈ ds.getLast?, EndsAt mask (Reached mask text R G old) b y := by
  induction h with
  | nil =>
    intro y hy
    cases hy
  | @keep c cs ds _ hrest ih =>
    by_cases hcs : cs = []
    · rw [hrest.eq_nil hold hcs]
      rw [hcs] at hx
      exact fun y hy => (hx y hy).reached
    · have hlast : (c :: cs).getLast? = cs.getLast? := List.getLast?_append_of_ne_nil [c] hcs
      have hlast' : (c :: ds).getLast? = ds.getLast? :=
        List.getLast?_append_of_ne_nil [c] (hrest.ne_nil hmask hcs)
      rw [hlast] at hx
      rw [hlast']
      exact ih (hcells.append_right (l := [c])) hx
  | @cut m cs ds hmatch hrest ih =>
    by_cases hcs : cs = []
    · rw [hrest.eq_nil hold hcs, List.append_nil]
      rw [hcs, List.append_nil] at hx hcells
      intro y hy
      obtain ⟨hplace, hlast⟩ := mem_last_maskCells hy
      refine ⟨fun q hq => ?_, fun _ => ⟨hlast, ?_⟩⟩
      · rw [hplace] at hq
        cases hq
      · rcases List.eq_nil_or_concat' m with rfl | ⟨m, x, rfl⟩
        · exact absurd hmatch.symm hold
        · exact hcells.match_ends hmatch (hx x (by simp))
    · rw [List.getLast?_append_of_ne_nil m hcs] at hx
      rw [List.getLast?_append_of_ne_nil _ (hrest.ne_nil hmask hcs)]
      exact ih hcells.append_right hx

/-- A first cell that is a letter is the one that was first before. -/
theorem Replaced.head_letter (h : Replaced mask old cells ds) (hmask : mask ≠ [])
    (hy : y ∈ ds.head?) (hq : y.2 = some q) : y ∈ cells.head? := by
  cases h with
  | nil => cases hy
  | keep _ _ => exact hy
  | cut _ _ =>
    obtain ⟨hplace, -⟩ := mem_head_maskCells hy hmask
    rw [hplace] at hq
    cases hq

theorem isChain_maskCells (mask' w : List α) : (maskCells w).IsChain (Adjacent mask' R) := by
  induction w with
  | nil => exact List.IsChain.nil
  | cons c w ih =>
    refine List.isChain_cons.mpr ⟨fun y hy => ⟨fun p hp => (by cases hp), fun q hq => ?_⟩, ih⟩
    rw [List.head?_map] at hy
    obtain ⟨d, -, rfl⟩ := Option.map_eq_some_iff.mp hy
    cases hq

theorem Replaced.chain (h : Replaced mask old cells ds) (hcells : Cells mask text R G cells)
    (hold : old ≠ []) (hmask : mask ≠ []) :
    ds.IsChain (Adjacent mask (Reached mask text R G old)) := by
  induction h with
  | nil => exact List.IsChain.nil
  | @keep c cs ds _ hrest ih =>
    have htail : Cells mask text R G cs := hcells.append_right (l := [c])
    refine List.isChain_cons.mpr ⟨fun y hy => ⟨fun p hp => ?_, fun q hq => ?_⟩, ih htail⟩
    · refine hrest.starts htail hold hmask (fun x hx => ?_) y hy
      exact (hcells.adjacent (l := [c]) rfl hx).1 p hp
    · have hkept := hrest.head_letter hmask hy hq
      exact ((hcells.adjacent (l := [c]) rfl hkept).2 q hq).reached
  | @cut m cs ds hmatch hrest ih =>
    refine List.isChain_append.mpr ⟨isChain_maskCells mask mask, ih hcells.append_right, ?_⟩
    intro x hx y hy
    obtain ⟨hplace, hlast⟩ := mem_last_maskCells hx
    refine ⟨fun p hp => ?_, fun q hq => ⟨fun p hp => ?_, fun _ => ⟨hlast, ?_⟩⟩⟩
    · rw [hplace] at hp
      cases hp
    · rw [hplace] at hp
      cases hp
    · have hkept := hrest.head_letter hmask hy hq
      rcases List.eq_nil_or_concat' m with rfl | ⟨m, z, rfl⟩
      · exact absurd hmatch.symm hold
      · have hz : EndsAt mask R q z := (hcells.adjacent (by simp) hkept).2 q hq
        exact hcells.append_left.match_ends hmatch hz

theorem Replaced.cells_after (h : Replaced mask old cells ds) (hcells : Cells mask text R G cells)
    (hold : old ≠ []) (hmask : mask ≠ []) :
    Cells mask text (Reached mask text R G old) G ds where
  letters := fun x hx p hp => hcells.letters x (h.mem hx hp) p hp
  chain := h.chain hcells hold hmask
  sorted := hcells.sorted.sublist h.sublist

/-! ## What becomes of an occurrence -/

/-- None of the letters at the `n` places from `q` on is left. -/
def Gone (q n : ℕ) (cells : List (Cell α)) : Prop :=
  ∀ x ∈ cells, ∀ p, x.2 = some p → p < q ∨ q + n ≤ p

def Whole (w : List α) (q : ℕ) (cells : List (Cell α)) : Prop :=
  ∃ front rear, cells = front ++ placed w q ++ rear

/-- A word that no match takes a part of stays as it is from its second letter on. -/
theorem Replaced.kept_through {rear : List (Cell α)} (h : Replaced mask old cells ds)
    (hcells : Cells mask text R G cells) (heq : cells = placed w q ++ rear) (hold : old ≠ [])
    (hapart : ∀ a b, Touches mask text R G old a b → q ≤ a → a < q + w.length → False) :
    ∃ rear', ds = placed w q ++ rear' := by
  induction w generalizing q cells ds with
  | nil => exact ⟨ds, rfl⟩
  | cons c w ih =>
    rw [placed_cons, List.cons_append] at heq
    cases h with
    | nil => cases heq
    | @keep _ cs ds _ hrest =>
      obtain ⟨rfl, rfl⟩ := List.cons.inj heq
      obtain ⟨rear', rfl⟩ := ih hrest (hcells.append_right (l := [(c, some q)])) rfl
        fun a b htouch hqa haq => hapart a b htouch (by omega) (by
          rw [List.length_cons]
          omega)
      exact ⟨rear', rfl⟩
    | @cut m cs ds hmatch hrest =>
      cases m with
      | nil => exact absurd hmatch.symm hold
      | cons x m =>
        obtain ⟨rfl, -⟩ := List.cons.inj heq
        obtain ⟨b, t, hb, hfree, hmap, ht⟩ := (hcells.append_left).run_right rfl
        refine (hapart q b ⟨hb, hfree, [], t, ?_, Or.inl rfl, ht⟩ (le_refl q) (by simp)).elim
        exact hmatch.symm.trans hmap

theorem Whole.prepend (h : Whole w q ds) (m : List (Cell α)) : Whole w q (m ++ ds) := by
  obtain ⟨front, rear, rfl⟩ := h
  exact ⟨m ++ front, rear, by simp⟩

theorem gone_of_mask (mask : List α) (q n : ℕ) : Gone q n (maskCells mask) := by
  intro x hx p hp
  obtain ⟨c, -, rfl⟩ := List.mem_map.mp hx
  cases hp

theorem Gone.append {n : ℕ} (hl : Gone q n l) (hm : Gone q n m) : Gone q n (l ++ m) := by
  intro x hx
  rcases List.mem_append.mp hx with hx | hx
  · exact hl x hx
  · exact hm x hx

theorem Gone.append_right {n : ℕ} (h : Gone q n (l ++ m)) : Gone q n m :=
  fun x hx => h x (List.mem_append_right _ hx)

theorem Replaced.gone {n : ℕ} (h : Replaced mask old cells ds) (hgone : Gone q n cells) :
    Gone q n ds :=
  fun x hx p hp => hgone x (h.mem hx hp) p hp

/-- Cells beside a whole word are not its letters. -/
theorem Cells.gone_left {rear : List (Cell α)}
    (h : Cells mask text R G (l ++ (placed w q ++ rear))) (hw : w ≠ []) : Gone q w.length l := by
  cases w with
  | nil => exact absurd rfl hw
  | cons c w =>
    intro x hx p hp
    exact Or.inl (h.lt hx List.mem_cons_self hp rfl)

theorem Cells.gone_right (h : Cells mask text R G (placed w q ++ m)) (hw : w ≠ []) :
    Gone q w.length m := by
  rcases List.eq_nil_or_concat' w with rfl | ⟨w, c, rfl⟩
  · exact absurd rfl hw
  · intro x hx p hp
    rw [placed_append] at h
    have hlast : (c, some (q + w.length)) ∈ placed w q ++ placed [c] (q + w.length) :=
      List.mem_append_right _ List.mem_cons_self
    have hlt := h.lt hlast hx rfl hp
    simp only [List.length_append, List.length_cons, List.length_nil]
    omega

/-- A whole word of which no match takes a part only is whole or gone afterwards. -/
theorem Replaced.whole_or_gone (h : Replaced mask old cells ds)
    (hcells : Cells mask text R G cells) (hold : old ≠ []) (hw : w ≠ []) (hwhole : Whole w q cells)
    (hapart : ∀ a b, Touches mask text R G old a b → a < q + w.length → q < b →
      a ≤ q ∧ q + w.length ≤ b) :
    w ≠ old ∧ Whole w q ds ∨ Gone q w.length ds := by
  obtain ⟨front, rear, heq⟩ := hwhole
  rw [List.append_assoc] at heq
  induction h generalizing front with
  | nil =>
    have hnil := (List.append_eq_nil_iff.mp (List.append_eq_nil_iff.mp heq.symm).2).1
    rw [← List.length_eq_zero_iff, length_placed, List.length_eq_zero_iff] at hnil
    exact absurd hnil hw
  | @keep c cs ds hbegins hrest ih =>
    have htail : Cells mask text R G cs := hcells.append_right (l := [c])
    cases front with
    | cons c' front =>
      obtain ⟨rfl, rfl⟩ := List.cons.inj heq
      rcases ih htail front rfl with ⟨hne, hwhole⟩ | hgone
      · exact Or.inl ⟨hne, hwhole.prepend [c]⟩
      · have hfront : Gone q w.length (c :: front) := hcells.gone_left hw
        refine Or.inr (Gone.append (l := [c]) (fun x hx => hfront x ?_) hgone)
        exact List.mem_cons.mpr (Or.inl (List.mem_singleton.mp hx))
    | nil =>
      rw [List.nil_append] at heq
      have hne : w ≠ old := by
        intro hne
        rw [heq, List.map_append, map_placed, hne] at hbegins
        exact hbegins (List.prefix_append _ _)
      cases w with
      | nil => exact absurd rfl hw
      | cons e w =>
        -- the first letter has stayed, so that no match can begin at another one
        obtain ⟨rfl, rfl⟩ := List.cons.inj heq
        obtain ⟨rear', rfl⟩ := hrest.kept_through htail rfl hold (by
          intro a b htouch hqa haq
          have hab := htouch.1
          have hcover := hapart a b htouch (by simp only [List.length_cons]; omega) (by omega)
          omega)
        exact Or.inl ⟨hne, [], rear', rfl⟩
  | @cut m cs ds hmatch hrest ih =>
    rcases List.append_eq_append_iff.mp heq with ⟨r, rfl, hr⟩ | ⟨r, rfl, hr⟩
    · rcases ih hcells.append_right r hr with ⟨hne, hwhole⟩ | hgone
      · exact Or.inl ⟨hne, hwhole.prepend _⟩
      · exact Or.inr ((gone_of_mask mask q _).append hgone)
    · rcases List.append_eq_append_iff.mp hr with ⟨k, rfl, rfl⟩ | ⟨k, hplaced, rfl⟩
      · have hword := hcells.append_right_of_assoc
        rw [List.append_assoc] at hword
        have hgone := (hword.gone_right hw).append_right
        exact Or.inr ((gone_of_mask mask q _).append (hrest.gone hgone))
      · obtain ⟨u, v, rfl, rfl, rfl⟩ := placed_eq_append hplaced
        rcases List.eq_nil_or_concat' u with rfl | ⟨u, c, rfl⟩
        · rcases ih hcells.append_right [] rfl with ⟨hne, hwhole⟩ | hgone
          · exact Or.inl ⟨hne, hwhole.prepend _⟩
          · exact Or.inr ((gone_of_mask mask q _).append hgone)
        · -- a match that ends inside the word would leave its last letters
          have hword := hcells.append_left
          rw [placed_append, ← List.append_assoc] at hword
          obtain ⟨a, s, ha, hfree, hmap, hs⟩ := hword.run_left rfl
          have htouch : Touches mask text R G old a (q + u.length + 1) := by
            refine ⟨by omega, hfree, s, [], ?_, hs, Or.inl rfl⟩
            rw [List.append_nil, ← hmap, ← hmatch, placed_append, ← List.append_assoc]
            rfl
          have hlength : (u ++ [c] ++ v).length = u.length + 1 + v.length := by
            simp only [List.length_append, List.length_cons, List.length_nil]
          have hcover := hapart a _ htouch (by omega) (by omega)
          have hv : v = [] := by
            rw [← List.length_eq_zero_iff]
            omega
          subst hv
          rw [List.append_nil] at hw ⊢
          have hgone := (hcells.append_right_of_assoc).gone_right hw
          exact Or.inr ((gone_of_mask mask q _).append (hrest.gone hgone))

end Runs

/-! ## The functions -/

section Functions

variable [DecidableEq α]

theorem replaceFrom_skip (letter : β → α) (old : List α) (new : List β) (n : ℕ) (cs : List β) :
    replaceFrom letter old new n cs = replaceFrom letter old new 0 (cs.drop n) := by
  induction n generalizing cs with
  | zero => rfl
  | succ n ih =>
    cases cs with
    | nil => rfl
    | cons c cs => exact ih cs

theorem map_replaceFrom (letter : β → α) (old : List α) (new : List β) (n : ℕ) (cs : List β) :
    (replaceFrom letter old new n cs).map letter =
      replaceFrom id old (new.map letter) n (cs.map letter) := by
  induction cs generalizing n with
  | nil => cases n <;> rfl
  | cons c cs ih =>
    cases n with
    | succ n => exact ih n
    | zero =>
      rw [replaceFrom, List.map_cons, replaceFrom]
      simp only [List.map_cons, List.map_id, id_eq]
      split
      · rw [List.map_append, ih]
      · rw [List.map_cons, ih]

theorem map_hide (mask old : List α) (cells : List (Cell α)) :
    (hide mask old cells).map Prod.fst = replace old mask (cells.map Prod.fst) := by
  rw [hide, map_replaceFrom, map_maskCells, replace]

/-- The letters of the cells are the text that the replacements give. -/
theorem map_hideAll (mask : List α) (words : List (List α)) (cells : List (Cell α)) :
    (hideAll mask words cells).map Prod.fst = replaceAll mask words (cells.map Prod.fst) := by
  induction words generalizing cells with
  | nil => rfl
  | cons old words ih =>
    rw [hideAll, List.foldl_cons, ← hideAll, ih, map_hide]
    rfl

theorem hide_cons (mask old : List α) (c : Cell α) (cs : List (Cell α)) (hold : old ≠ []) :
    hide mask old (c :: cs) =
      if old <+: (c :: cs).map Prod.fst then
        maskCells mask ++ hide mask old ((c :: cs).drop old.length)
      else c :: hide mask old cs := by
  obtain ⟨n, hn⟩ := Nat.exists_eq_succ_of_ne_zero (List.length_pos_iff.mpr hold).ne'
  rw [hide, replaceFrom, hn, replaceFrom_skip]
  rfl

theorem replaced_hide {old : List α} (hold : old ≠ []) (mask : List α) (cells : List (Cell α)) :
    Replaced mask old cells (hide mask old cells) := by
  induction hlength : cells.length using Nat.strong_induction_on generalizing cells with
  | _ n ih =>
    cases cells with
    | nil => exact .nil
    | cons c cs =>
      rw [hide_cons mask old c cs hold]
      split
      · next hbegins =>
        have hmatch : ((c :: cs).take old.length).map Prod.fst = old := by
          rw [List.map_take]
          exact (List.prefix_iff_eq_take.mp hbegins).symm
        have hshort : ((c :: cs).drop old.length).length < n := by
          have hpos := List.length_pos_iff.mpr hold
          simp only [List.length_drop, List.length_cons] at hlength ⊢
          omega
        have hcut : Replaced mask old _ _ := .cut hmatch (ih _ hshort _ rfl)
        rwa [List.take_append_drop] at hcut
      · next hbegins => exact .keep hbegins (ih cs.length (by simp [← hlength]) cs rfl)

end Functions

/-! ## All words, one after another -/

section All

variable (mask text : List α)

/-- One of the letters of an occurrence. -/
def Within (w : List α) (q p : ℕ) : Prop := q ≤ p ∧ p < q + w.length

/-- No match of a word takes a part only of an occurrence of it or of a later word, where
letters that an earlier word has surely covered do not count. -/
def Apart : (ℕ → ℕ → Prop) → (ℕ → Prop) → List (List α) → Prop
  | _, _, [] => True
  | R, G, v :: later =>
    (∀ a b, Touches mask text R G v a b → ∀ w ∈ v :: later, ∀ q, OccursAt w text q →
      (∀ p, Within w q p → ¬ G p) → a < q + w.length → q < b → a ≤ q ∧ q + w.length ≤ b) ∧
    Apart (Reached mask text R G v) (fun p => G p ∨ ∃ q, OccursAt v text q ∧ Within v q p) later

end All

section Placed

variable {mask text : List α} {R : ℕ → ℕ → Prop} {G : ℕ → Prop} {cells : List (Cell α)}

theorem exists_mem_placed {w : List α} {q p : ℕ} (h : Within w q p) :
    ∃ x ∈ placed w q, x.2 = some p := by
  obtain ⟨hle, hlt⟩ := h
  have hlt' : p - q < w.length := by omega
  refine ⟨(w[p - q], some p), List.mem_map.mpr ⟨(w[p - q], p), ?_, rfl⟩, rfl⟩
  exact List.mem_zipIdx_iff_le_and_getElem?_sub.mpr ⟨hle, List.getElem?_eq_getElem hlt'⟩

theorem Whole.free {w : List α} {q p : ℕ} (h : Whole w q cells) (hcells : Cells mask text R G cells)
    (hp : Within w q p) : ¬ G p := by
  obtain ⟨front, rear, rfl⟩ := h
  obtain ⟨x, hx, hplace⟩ := exists_mem_placed hp
  exact (hcells.letters x (List.mem_append_left _ (List.mem_append_right _ hx)) p hplace).2

theorem isChain_placed (mask : List α) (R : ℕ → ℕ → Prop) (w : List α) (q : ℕ) :
    (placed w q).IsChain (Adjacent mask R) := by
  induction w generalizing q with
  | nil => exact List.IsChain.nil
  | cons c w ih =>
    refine List.isChain_cons.mpr ⟨fun y hy => ?_, ih (q + 1)⟩
    cases w with
    | nil => cases hy
    | cons d w =>
      obtain rfl : (d, some (q + 1)) = y := Option.some.inj hy
      refine ⟨fun p hp => ⟨fun p' hp' => ?_, fun hnone => by cases hnone⟩,
        fun p hp => ⟨fun p' hp' => ?_, fun hnone => by cases hnone⟩⟩
      · obtain rfl := Option.some.inj hp
        exact (Option.some.inj hp').symm
      · obtain rfl := Option.some.inj hp
        obtain rfl := Option.some.inj hp'
        rfl

theorem pairwise_placed (w : List α) (q : ℕ) :
    ((placed w q).filterMap Prod.snd).Pairwise (· < ·) := by
  induction w generalizing q with
  | nil => exact List.Pairwise.nil
  | cons c w ih =>
    refine List.pairwise_cons.mpr ⟨fun p hp => ?_, ih (q + 1)⟩
    obtain ⟨x, hx, hplace⟩ := List.mem_filterMap.mp hp
    obtain ⟨p', hp', hle, -, -⟩ := mem_placed hx
    rw [hp'] at hplace
    obtain rfl := Option.some.inj hplace
    omega

/-- A piece of the text before any replacement. -/
theorem cells_placed {w : List α} {q : ℕ} (h : OccursAt w text q) (mask : List α)
    (R : ℕ → ℕ → Prop) : Cells mask text R (fun _ => False) (placed w q) where
  letters := by
    intro x hx p hp
    obtain ⟨p', hp', hle, hlt, hget⟩ := mem_placed hx
    rw [hp] at hp'
    obtain rfl := Option.some.inj hp'
    refine ⟨?_, not_false⟩
    have hdrop := (List.prefix_iff_getElem?.mp h (p - q) (by omega)).symm
    rw [List.getElem?_drop, ← List.getElem?_eq_getElem, hget] at hdrop
    have hplace : q + (p - q) = p := by omega
    rw [hplace] at hdrop
    exact hdrop.symm
  chain := isChain_placed mask R w q
  sorted := pairwise_placed w q

theorem whole_placed {w : List α} {q : ℕ} (h : OccursAt w text q) (hw : w ≠ []) :
    Whole w q (placed text 0) := by
  obtain ⟨rest, hrest⟩ := h
  have hq : q < text.length := by
    rw [← List.drop_eq_nil_iff.not.trans not_le, ← hrest]
    exact fun hnil => hw (List.append_eq_nil_iff.mp hnil).1
  refine ⟨placed (text.take q) 0, placed rest (q + w.length), ?_⟩
  have hlength : (text.take q).length = q := List.length_take_of_le hq.le
  calc placed text 0 = placed (text.take q ++ (w ++ rest)) 0 := by
        rw [hrest, List.take_append_drop]
    _ = placed (text.take q) 0 ++ placed w q ++ placed rest (q + w.length) := by
        rw [placed_append, placed_append, hlength, Nat.zero_add, List.append_assoc]

end Placed

section Hidden

variable [DecidableEq α] {mask text : List α} {R : ℕ → ℕ → Prop} {G : ℕ → Prop}
  {cells : List (Cell α)} {words : List (List α)}

theorem gone_hideAll (mask : List α) (words : List (List α)) {q n : ℕ} (h : Gone q n cells)
    (hwords : ∀ w ∈ words, w ≠ []) : Gone q n (hideAll mask words cells) := by
  induction words generalizing cells with
  | nil => exact h
  | cons v later ih =>
    have hv := replaced_hide (hwords v List.mem_cons_self) mask cells
    exact ih (hv.gone h) fun w hw => hwords w (List.mem_cons_of_mem _ hw)

/-- Nothing is left of any occurrence. -/
theorem hideAll_gone (hmask : mask ≠ []) (hwords : ∀ w ∈ words, w ≠ [])
    (hcells : Cells mask text R G cells) (hapart : Apart mask text R G words)
    (hstate : ∀ w ∈ words, ∀ q, OccursAt w text q → Whole w q cells ∨ Gone q w.length cells) :
    ∀ w ∈ words, ∀ q, OccursAt w text q → Gone q w.length (hideAll mask words cells) := by
  induction words generalizing cells R G with
  | nil =>
    intro w hw
    cases hw
  | cons v later ih =>
    obtain ⟨hstep, hlater⟩ := hapart
    have hv := hwords v List.mem_cons_self
    have hreplaced := replaced_hide hv mask cells
    have hnext : ∀ w ∈ v :: later, ∀ q, OccursAt w text q →
        w ≠ v ∧ Whole w q (hide mask v cells) ∨ Gone q w.length (hide mask v cells) := by
      intro w hw q hoccurs
      rcases hstate w hw q hoccurs with hwhole | hgone
      · exact hreplaced.whole_or_gone hcells hv (hwords w hw) hwhole fun a b htouch =>
          hstep a b htouch w hw q hoccurs fun p hp => hwhole.free hcells hp
      · exact Or.inr (hreplaced.gone hgone)
    have hfirst : ∀ q, OccursAt v text q → Gone q v.length (hide mask v cells) := by
      intro q hoccurs
      rcases hnext v List.mem_cons_self q hoccurs with ⟨hne, -⟩ | hgone
      · exact absurd rfl hne
      · exact hgone
    intro w hw q hoccurs
    rcases List.mem_cons.mp hw with rfl | hw
    · exact gone_hideAll mask later (hfirst q hoccurs) fun w hw =>
        hwords w (List.mem_cons_of_mem _ hw)
    · have hafter := hreplaced.cells_after hcells hv hmask
      refine ih (fun w hw => hwords w (List.mem_cons_of_mem _ hw))
        ⟨fun x hx p hp => ?_, hafter.chain, hafter.sorted⟩ hlater
        (fun w hw q hoccurs => (hnext w (List.mem_cons_of_mem _ hw) q hoccurs).imp And.right id)
        w hw q hoccurs
      obtain ⟨hletter, hfree⟩ := hafter.letters x hx p hp
      refine ⟨hletter, ?_⟩
      rintro (hG | ⟨q, hoccurs, hle, hlt⟩)
      · exact hfree hG
      · have hgone := hfirst q hoccurs x hx p hp
        omega

/-- Words of which no match takes a part only leave none of their letters in the text. -/
theorem hidden_of_apart (hmask : mask ≠ []) (hwords : ∀ w ∈ words, w ≠ [])
    (hapart : Apart mask text (fun _ _ => False) (fun _ => False) words) :
    ∀ w ∈ words, ∀ q, OccursAt w text q →
      Gone q w.length (hideAll mask words (placed text 0)) := by
  refine hideAll_gone hmask hwords (cells_placed ?_ mask _) hapart ?_
  · exact List.prefix_rfl
  · exact fun w hw q hoccurs => Or.inl (whole_placed hoccurs (hwords w hw))

end Hidden

/-! ## Words that only contain one another -/

instance [DecidableEq α] (w text : List α) (q : ℕ) : Decidable (OccursAt w text q) :=
  inferInstanceAs (Decidable (w <+: text.drop q))

/-- An occurrence of a word that overlaps one of a word that comes before it lies inside it. -/
def Nested (text : List α) : List (List α) → Prop
  | [] => True
  | v :: later =>
    (∀ w ∈ v :: later, ∀ a q, OccursAt v text a → OccursAt w text q → a < q + w.length →
      q < a + v.length → a ≤ q ∧ q + w.length ≤ a + v.length) ∧ Nested text later

section Nested

variable {mask text old w : List α} {R : ℕ → ℕ → Prop} {G : ℕ → Prop} {words : List (List α)}
  {a b q : ℕ}

theorem OccursAt.le_length (h : OccursAt w text q) (hw : w ≠ []) : q + w.length ≤ text.length := by
  have hle := h.length_le
  have hpos := List.length_pos_iff.mpr hw
  rw [List.length_drop] at hle
  omega

theorem OccursAt.mem_places [DecidableEq α] (h : OccursAt w text q) (hw : w ≠ []) :
    q ∈ (List.range text.length).filter fun q => OccursAt w text q := by
  have hle := h.le_length hw
  have hpos := List.length_pos_iff.mpr hw
  exact List.mem_filter.mpr ⟨List.mem_range.mpr (by omega), decide_eq_true h⟩

/-- A word without the first and the last letter of the mask does not match across one. -/
theorem Touches.occurs (h : Touches mask text R G old a b)
    (hedges : ∀ c ∈ old, mask.head? ≠ some c ∧ mask.getLast? ≠ some c) :
    old = slice text a b := by
  obtain ⟨-, -, s, t, heq, hs, ht⟩ := h
  have hs' : s = [] := by
    rcases hs with hs | ⟨hlast, -⟩
    · exact hs
    · rcases List.eq_nil_or_concat' s with rfl | ⟨s, c, rfl⟩
      · rfl
      · refine absurd ?_ (hedges c (by simp [heq])).2
        rw [← hlast]
        simp
  have ht' : t = [] := by
    rcases ht with ht | ⟨hhead, -⟩
    · exact ht
    · cases t with
      | nil => rfl
      | cons c t => exact absurd hhead.symm (hedges c (by simp [heq])).1
  rw [heq, hs', ht', List.nil_append, List.append_nil]

theorem apart_of_nested (hwords : ∀ w ∈ words, w ≠ [])
    (hedges : ∀ w ∈ words, ∀ c ∈ w, mask.head? ≠ some c ∧ mask.getLast? ≠ some c)
    (h : Nested text words) : Apart mask text R G words := by
  induction words generalizing R G with
  | nil => trivial
  | cons v later ih =>
    obtain ⟨hv, hlater⟩ := h
    refine ⟨fun a b htouch w hw q hoccurs _ haq hqb => ?_,
      ih (fun w hw => hwords w (List.mem_cons_of_mem _ hw))
        (fun w hw => hedges w (List.mem_cons_of_mem _ hw)) hlater⟩
    have hslice := htouch.occurs (hedges v List.mem_cons_self)
    have hstart : OccursAt v text a := by
      rw [hslice]
      exact List.take_prefix _ _
    have hlength : v.length = min (b - a) (text.length - a) := by
      rw [hslice, slice, List.length_take, List.length_drop]
    have hle := hoccurs.le_length (hwords w hw)
    have hpos := List.length_pos_iff.mpr (hwords w hw)
    have hcover := hv w hw a q hstart hoccurs haq (by omega)
    omega

end Nested

/-! ## Words that share no letter with the mask -/

section Disjoint

variable {mask old w : List α} {cells ds : List (Cell α)}

theorem infix_of_append (hw : w ≠ []) (hmask : ∀ c ∈ w, c ∉ mask) {rest : List α}
    (h : w <:+: mask ++ rest) : w <:+: rest := by
  induction mask with
  | nil => exact h
  | cons m mask ih =>
    refine ih (fun c hc hm => hmask c hc (List.mem_cons_of_mem _ hm)) ?_
    rcases List.infix_cons_iff.mp h with hbegins | hinside
    · cases w with
      | nil => exact absurd rfl hw
      | cons c w =>
        obtain ⟨hc, -⟩ := List.cons_prefix_cons.mp hbegins
        exact absurd (hc ▸ List.mem_cons_self) (hmask c List.mem_cons_self)
    · exact hinside

theorem Replaced.prefix_before (h : Replaced mask old cells ds) (hne : mask ≠ [])
    (hmask : ∀ c ∈ w, c ∉ mask) (hw : w <+: ds.map Prod.fst) : w <+: cells.map Prod.fst := by
  induction h generalizing w with
  | nil => exact hw
  | @keep c cs ds _ _ ih =>
    cases w with
    | nil => exact List.nil_prefix
    | cons d w =>
      rw [List.map_cons] at hw ⊢
      obtain ⟨hd, hw⟩ := List.cons_prefix_cons.mp hw
      exact List.cons_prefix_cons.mpr
        ⟨hd, ih (fun c hc => hmask c (List.mem_cons_of_mem _ hc)) hw⟩
  | cut _ _ _ =>
    cases w with
    | nil => exact List.nil_prefix
    | cons d w =>
      rw [List.map_append, map_maskCells] at hw
      cases mask with
      | nil => exact absurd rfl hne
      | cons m mask =>
        obtain ⟨hd, -⟩ := List.cons_prefix_cons.mp hw
        exact absurd (hd ▸ List.mem_cons_self) (hmask d List.mem_cons_self)

/-- A replacement makes no new occurrence of such a word. -/
theorem Replaced.infix_before (h : Replaced mask old cells ds) (hne : mask ≠ []) (hw : w ≠ [])
    (hmask : ∀ c ∈ w, c ∉ mask) (hinside : w <:+: ds.map Prod.fst) :
    w <:+: cells.map Prod.fst := by
  induction h with
  | nil => exact hinside
  | @keep c cs ds hc hrest ih =>
    rw [List.map_cons] at hinside
    rcases List.infix_cons_iff.mp hinside with hbegins | hinside
    · exact ((Replaced.keep hc hrest).prefix_before hne hmask hbegins).isInfix
    · exact List.infix_cons_iff.mpr (.inr (ih hinside))
  | @cut m cs ds _ _ ih =>
    rw [List.map_append, map_maskCells] at hinside
    rw [List.map_append]
    exact List.infix_append_of_infix_right (ih (infix_of_append hw hmask hinside))

/-- Its own replacement leaves no occurrence. -/
theorem Replaced.not_infix (h : Replaced mask w cells ds) (hne : mask ≠ []) (hw : w ≠ [])
    (hmask : ∀ c ∈ w, c ∉ mask) : ¬ w <:+: ds.map Prod.fst := by
  induction h with
  | nil => exact fun hinside => hw (List.infix_nil.mp hinside)
  | @keep c cs ds hc hrest ih =>
    intro hinside
    rcases List.infix_cons_iff.mp hinside with hbegins | hinside
    · exact hc ((Replaced.keep hc hrest).prefix_before hne hmask hbegins)
    · exact ih hinside
  | cut _ _ ih =>
    intro hinside
    rw [List.map_append, map_maskCells] at hinside
    exact ih (infix_of_append hw hmask hinside)

variable [DecidableEq α] {words : List (List α)} {text : List α}

theorem replaceAll_cons (mask v : List α) (words : List (List α)) (text : List α) :
    replaceAll mask (v :: words) text = replaceAll mask words (replace v mask text) := rfl

theorem replaced_text (hold : old ≠ []) (mask text : List α) :
    ∃ ds, Replaced mask old (placed text 0) ds ∧ ds.map Prod.fst = replace old mask text := by
  refine ⟨hide mask old (placed text 0), replaced_hide hold mask _, ?_⟩
  rw [map_hide, map_placed]

theorem not_infix_replaceAll (hne : mask ≠ []) (hwords : ∀ v ∈ words, v ≠ []) (hw : w ≠ [])
    (hmask : ∀ c ∈ w, c ∉ mask) (h : ¬ w <:+: text) : ¬ w <:+: replaceAll mask words text := by
  induction words generalizing text with
  | nil => exact h
  | cons v words ih =>
    obtain ⟨ds, hreplaced, hds⟩ := replaced_text (hwords v List.mem_cons_self) mask text
    rw [replaceAll_cons]
    refine ih (fun v hv => hwords v (List.mem_cons_of_mem _ hv)) fun hinside => h ?_
    rw [← hds] at hinside
    rw [← map_placed text 0]
    exact hreplaced.infix_before hne hw hmask hinside

/-- Of the words that share no letter with the mask none is left, whatever the others are. -/
theorem replaceAll_not_infix (hne : mask ≠ []) (hwords : ∀ v ∈ words, v ≠ [])
    (hmask : ∀ c ∈ w, c ∉ mask) (hw : w ∈ words) (text : List α) :
    ¬ w <:+: replaceAll mask words text := by
  induction words generalizing text with
  | nil => cases hw
  | cons v words ih =>
    have hlater : ∀ u ∈ words, u ≠ [] := fun u hu => hwords u (List.mem_cons_of_mem _ hu)
    rw [replaceAll_cons]
    rcases List.mem_cons.mp hw with rfl | hw
    · have hempty := hwords w List.mem_cons_self
      obtain ⟨ds, hreplaced, hds⟩ := replaced_text hempty mask text
      refine not_infix_replaceAll hne hlater hempty hmask ?_
      rw [← hds]
      exact hreplaced.not_infix hne hempty hmask
    · exact ih hlater hw _

end Disjoint

end TextReplacement
