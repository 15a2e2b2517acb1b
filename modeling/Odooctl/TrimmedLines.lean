import Mathlib.Data.List.Basic
import Mathlib.Data.List.DropRight
import Mathlib.Data.List.GetD
import Mathlib.Data.List.TakeWhile

/-!
# Lines and their blanks

The lines of a text, a line without the blanks at its ends, a line cut at its first delimiter,
and a value of several lines, of which the blank ones at the end do not count.
-/
namespace TrimmedLines

abbrev Line := List Char

/-- The characters that `strip` removes. -/
def isSpace (c : Char) : Bool :=
  let n := c.toNat
  decide (9 ≤ n ∧ n ≤ 13 ∨ 28 ≤ n ∧ n ≤ 32 ∨ 0x2000 ≤ n ∧ n ≤ 0x200A) ||
    [0x85, 0xA0, 0x1680, 0x2028, 0x2029, 0x202F, 0x205F, 0x3000].contains n

def lstrip (cs : Line) : Line := cs.dropWhile isSpace

def rstrip (cs : Line) : Line := cs.rdropWhile isSpace

def strip (cs : Line) : Line := rstrip (lstrip cs)

def indentOf (cs : Line) : ℕ := (cs.takeWhile isSpace).length

/-- What stands before and after the first delimiter. -/
def cut (p : Char → Bool) (cs : Line) : Option (Line × Line) :=
  match cs.dropWhile fun c => !p c with
  | [] => none
  | _ :: after => some (cs.takeWhile (fun c => !p c), after)

/-- A newline at the end of the text ends its last line and begins no other. -/
def lines : List Char → List Line
  | [] => []
  | c :: cs =>
    if c = '\n' then [] :: lines cs else (c :: (lines cs).headD []) :: (lines cs).tail

def joined (ls : List Line) : Line := rstrip (['\n'].intercalate ls)

variable {c : Char} {a b cs : Line} {ls ms : List Line}

/-! ## Blanks -/

section Blanks

theorem lstrip_append (a : Line) (hc : isSpace c = false) (b : Line) :
    lstrip (a ++ c :: b) = lstrip a ++ c :: b := by
  induction a with
  | nil => rw [List.nil_append, lstrip, List.dropWhile_cons_of_neg (by simp [hc])]; rfl
  | cons x a ih =>
    cases hx : isSpace x with
    | true => rw [List.cons_append, lstrip, List.dropWhile_cons_of_pos hx, lstrip,
        List.dropWhile_cons_of_pos hx]; exact ih
    | false => rw [List.cons_append, lstrip, List.dropWhile_cons_of_neg (by simp [hx]), lstrip,
        List.dropWhile_cons_of_neg (by simp [hx]), List.cons_append]

theorem rdropWhile_eq (p : Char → Bool) (cs : Line) :
    cs.rdropWhile p = (cs.reverse.dropWhile p).reverse := rfl

theorem rstrip_append (a : Line) (hc : isSpace c = false) (b : Line) :
    rstrip (a ++ c :: b) = a ++ c :: rstrip b := by
  have h : (a ++ c :: b).reverse = b.reverse ++ c :: a.reverse := by simp
  rw [rstrip, rdropWhile_eq, h]
  have hl := lstrip_append b.reverse hc a.reverse
  rw [lstrip] at hl
  rw [hl, rstrip, rdropWhile_eq, lstrip]
  simp

theorem strip_append (a : Line) (hc : isSpace c = false) (b : Line) :
    strip (a ++ c :: b) = lstrip a ++ c :: rstrip b := by
  rw [strip, lstrip_append a hc, rstrip_append _ hc]

theorem lstrip_cons_space (hc : isSpace c = true) : lstrip (c :: cs) = lstrip cs := by
  rw [lstrip, List.dropWhile_cons_of_pos hc]; rfl

theorem lstrip_cons (hc : isSpace c = false) : lstrip (c :: cs) = c :: cs := by
  rw [lstrip, List.dropWhile_cons_of_neg (by simp [hc])]

theorem rstrip_concat_space (hc : isSpace c = true) : rstrip (cs ++ [c]) = rstrip cs := by
  rw [rstrip, List.rdropWhile_concat_pos _ _ _ hc]; rfl

theorem lstrip_eq_nil_iff : lstrip cs = [] ↔ ∀ c ∈ cs, isSpace c = true := by
  rw [lstrip, List.dropWhile_eq_nil_iff]

theorem rstrip_eq_nil_iff : rstrip cs = [] ↔ ∀ c ∈ cs, isSpace c = true := by
  rw [rstrip, List.rdropWhile_eq_nil_iff]

theorem strip_of_spaces (h : ∀ c ∈ cs, isSpace c = true) : strip cs = [] := by
  rw [strip, lstrip_eq_nil_iff.mpr h]; rfl

/-- A line is blank, or it begins its text at a character that is not. -/
theorem spaces_or_lead (cs : Line) :
    (∀ c ∈ cs, isSpace c = true) ∨
      ∃ a c b, cs = a ++ c :: b ∧ (∀ x ∈ a, isSpace x = true) ∧ isSpace c = false := by
  induction cs with
  | nil => exact .inl (by simp)
  | cons c cs ih =>
    cases hc : isSpace c with
    | false => exact .inr ⟨[], c, cs, rfl, by simp, hc⟩
    | true =>
      rcases ih with h | ⟨a, d, b, rfl, ha, hd⟩
      · exact .inl (List.forall_mem_cons.mpr ⟨hc, h⟩)
      · exact .inr ⟨c :: a, d, b, rfl, List.forall_mem_cons.mpr ⟨hc, ha⟩, hd⟩

theorem strip_eq_nil_iff : strip cs = [] ↔ ∀ c ∈ cs, isSpace c = true := by
  refine ⟨fun h => ?_, strip_of_spaces⟩
  rcases spaces_or_lead cs with hs | ⟨a, c, b, rfl, -, hc⟩
  · exact hs
  · rw [strip_append a hc] at h
    simp at h

theorem lstrip_lead (ha : ∀ x ∈ a, isSpace x = true) (hc : isSpace c = false) :
    lstrip (a ++ c :: b) = c :: b := by
  rw [lstrip_append a hc, lstrip_eq_nil_iff.mpr ha, List.nil_append]

theorem rstrip_cons (hc : isSpace c = false) : rstrip (c :: cs) = c :: rstrip cs := by
  have h := rstrip_append [] hc cs
  rwa [List.nil_append, List.nil_append] at h

theorem lstrip_rstrip (cs : Line) : lstrip (rstrip cs) = strip cs := by
  rcases spaces_or_lead cs with hs | ⟨a, c, b, rfl, ha, hc⟩
  · rw [rstrip_eq_nil_iff.mpr hs, strip_of_spaces hs]; rfl
  · rw [rstrip_append a hc, lstrip_lead ha hc, strip, lstrip_lead ha hc, rstrip_cons hc]

theorem rstrip_rstrip (cs : Line) : rstrip (rstrip cs) = rstrip cs :=
  List.rdropWhile_idempotent isSpace cs

theorem lstrip_lstrip (cs : Line) : lstrip (lstrip cs) = lstrip cs :=
  List.dropWhile_idempotent isSpace cs

@[simp] theorem rstrip_strip (cs : Line) : rstrip (strip cs) = strip cs := rstrip_rstrip _

@[simp] theorem lstrip_strip (cs : Line) : lstrip (strip cs) = strip cs := by
  rw [← lstrip_rstrip, lstrip_lstrip]

@[simp] theorem strip_strip (cs : Line) : strip (strip cs) = strip cs := by
  rw [strip, lstrip_strip, rstrip_strip]

theorem strip_rstrip (cs : Line) : strip (rstrip cs) = strip cs := by
  rw [strip, lstrip_rstrip, rstrip_strip]

theorem strip_lstrip (cs : Line) : strip (lstrip cs) = strip cs := by
  rw [strip, lstrip_lstrip]; rfl

theorem mem_of_mem_lstrip (h : c ∈ lstrip cs) : c ∈ cs :=
  (List.dropWhile_suffix isSpace).subset h

theorem mem_of_mem_rstrip (h : c ∈ rstrip cs) : c ∈ cs :=
  (List.rdropWhile_prefix isSpace cs).subset h

theorem mem_of_mem_strip (h : c ∈ strip cs) : c ∈ cs := mem_of_mem_lstrip (mem_of_mem_rstrip h)

theorem mem_rstrip (hc : isSpace c = false) (h : c ∈ cs) : c ∈ rstrip cs := by
  obtain ⟨a, b, rfl⟩ := List.append_of_mem h
  rw [rstrip_append a hc]
  exact List.mem_append_right _ List.mem_cons_self

theorem mem_lstrip (hc : isSpace c = false) (h : c ∈ cs) : c ∈ lstrip cs := by
  obtain ⟨a, b, rfl⟩ := List.append_of_mem h
  rw [lstrip_append a hc]
  exact List.mem_append_right _ List.mem_cons_self

theorem mem_strip (hc : isSpace c = false) (h : c ∈ cs) : c ∈ strip cs :=
  mem_rstrip hc (mem_lstrip hc h)

/-- The blank before a text that has none at its ends stays, unless the text is empty. -/
theorem rstrip_space_cons (hc : isSpace c = true) (cs : Line) :
    rstrip (c :: cs) = if rstrip cs = [] then [] else c :: rstrip cs := by
  split_ifs with h
  · rw [rstrip_eq_nil_iff] at h ⊢
    exact List.forall_mem_cons.mpr ⟨hc, h⟩
  · obtain ⟨d, hd, hspace⟩ : ∃ d ∈ cs, isSpace d = false := by
      by_contra hall
      exact h (rstrip_eq_nil_iff.mpr fun d hd => by
        cases hs : isSpace d with
        | true => rfl
        | false => exact absurd ⟨d, hd, hs⟩ hall)
    obtain ⟨a, b, rfl⟩ := List.append_of_mem hd
    rw [← List.cons_append, rstrip_append _ hspace, rstrip_append _ hspace, List.cons_append]

theorem lstrip_concat_space (hc : isSpace c = true) (cs : Line) :
    lstrip (cs ++ [c]) = if lstrip cs = [] then [] else lstrip cs ++ [c] := by
  rcases spaces_or_lead cs with hs | ⟨a, d, b, rfl, ha, hd⟩
  · rw [if_pos (lstrip_eq_nil_iff.mpr hs), lstrip_eq_nil_iff]
    exact List.forall_mem_append.mpr ⟨hs, by simpa using hc⟩
  · rw [List.append_assoc, List.cons_append, lstrip_lead ha hd, lstrip_lead ha hd,
      if_neg (List.cons_ne_nil _ _), List.cons_append]

theorem head_strip (cs : Line) : (strip cs).head? = (lstrip cs).head? := by
  rcases spaces_or_lead cs with hs | ⟨a, c, b, rfl, ha, hc⟩
  · rw [strip_of_spaces hs, lstrip_eq_nil_iff.mpr hs]
  · rw [strip, lstrip_lead ha hc, rstrip_cons hc]; rfl

theorem indentOf_lead (ha : ∀ x ∈ a, isSpace x = true) (hc : isSpace c = false) :
    indentOf (a ++ c :: b) = a.length := by
  rw [indentOf, List.takeWhile_append_of_pos ha, List.takeWhile_cons_of_neg (by simp [hc]),
    List.append_nil]

theorem indentOf_eq (hc : isSpace c = false) (a b b' : Line) :
    indentOf (a ++ c :: b) = indentOf (a ++ c :: b') := by
  induction a with
  | nil => simp [indentOf, hc]
  | cons x a ih =>
    cases hx : isSpace x with
    | true =>
      simp only [indentOf, List.cons_append, List.takeWhile_cons_of_pos hx, List.length_cons]
      exact congrArg (· + 1) ih
    | false => simp [indentOf, hx]

end Blanks

/-! ## Cuts -/

section Cuts

variable {p : Char → Bool}

theorem cut_append (ha : ∀ x ∈ a, p x = false) (hc : p c = true) (b : Line) :
    cut p (a ++ c :: b) = some (a, b) := by
  have hpass : ∀ x ∈ a, (!p x) = true := fun x hx => by rw [ha x hx]; rfl
  have hdrop : ((a ++ c :: b).dropWhile fun x => !p x) = c :: b := by
    rw [List.dropWhile_append_of_pos hpass]
    exact List.dropWhile_cons_of_neg (by simp [hc])
  have htake : ((a ++ c :: b).takeWhile fun x => !p x) = a := by
    rw [List.takeWhile_append_of_pos hpass, List.takeWhile_cons_of_neg (by simp [hc]),
      List.append_nil]
  rw [cut, hdrop, htake]

theorem cut_of_none (h : ∀ x ∈ cs, p x = false) : cut p cs = none := by
  have hdrop : (cs.dropWhile fun c => !p c) = [] :=
    List.dropWhile_eq_nil_iff.mpr fun x hx => by rw [h x hx]; rfl
  rw [cut, hdrop]

theorem cut_cases (p : Char → Bool) (cs : Line) :
    (∀ x ∈ cs, p x = false) ∨ ∃ a c b, cs = a ++ c :: b ∧ (∀ x ∈ a, p x = false) ∧ p c = true := by
  induction cs with
  | nil => exact .inl (by simp)
  | cons c cs ih =>
    cases hc : p c with
    | true => exact .inr ⟨[], c, cs, rfl, by simp, hc⟩
    | false =>
      rcases ih with h | ⟨a, d, b, rfl, ha, hd⟩
      · exact .inl (List.forall_mem_cons.mpr ⟨hc, h⟩)
      · exact .inr ⟨c :: a, d, b, rfl, List.forall_mem_cons.mpr ⟨hc, ha⟩, hd⟩

end Cuts

/-! ## Lines -/

section Lines

theorem lines_append (ha : '\n' ∉ a) (b : Line) : lines (a ++ '\n' :: b) = a :: lines b := by
  induction a with
  | nil => rw [List.nil_append, lines, if_pos rfl]
  | cons c a ih =>
    obtain ⟨hc, ha⟩ := List.ne_and_not_mem_of_not_mem_cons ha
    rw [List.cons_append, lines, if_neg (Ne.symm hc), ih ha]
    rfl

theorem lines_of_not_mem (ha : '\n' ∉ a) (hne : a ≠ []) : lines a = [a] := by
  induction a with
  | nil => exact absurd rfl hne
  | cons c a ih =>
    obtain ⟨hc, ha⟩ := List.ne_and_not_mem_of_not_mem_cons ha
    rw [lines, if_neg (Ne.symm hc)]
    by_cases hnil : a = []
    · subst hnil
      rfl
    · rw [ih ha hnil]
      rfl

theorem not_mem_lines {text l : Line} (h : l ∈ lines text) : '\n' ∉ l := by
  induction text generalizing l with
  | nil => simp [lines] at h
  | cons c cs ih =>
    rw [lines] at h
    split_ifs at h with hc
    · rcases List.mem_cons.mp h with rfl | h
      · simp
      · exact ih h
    · rcases List.mem_cons.mp h with rfl | h
      · refine List.not_mem_cons_of_ne_of_not_mem (Ne.symm hc) ?_
        cases hls : lines cs with
        | nil => simp
        | cons l ls => exact ih (by rw [hls]; exact List.mem_cons_self)
      · exact ih (List.mem_of_mem_tail h)

theorem intercalate_cons (l m : Line) (ls : List Line) :
    ['\n'].intercalate (l :: m :: ls) = l ++ '\n' :: ['\n'].intercalate (m :: ls) := by
  simp [List.intercalate, List.intersperse]

theorem lines_unlines (hall : ∀ l ∈ ls, '\n' ∉ l) (hne : ls ≠ []) :
    lines (['\n'].intercalate ls ++ ['\n']) = ls := by
  induction ls with
  | nil => exact absurd rfl hne
  | cons l ls ih =>
    obtain ⟨hl, hrest⟩ := List.forall_mem_cons.mp hall
    cases ls with
    | nil =>
      have hone : ['\n'].intercalate [l] = l := by simp [List.intercalate]
      rw [hone, lines_append hl, lines]
    | cons m ls =>
      rw [intercalate_cons, List.append_assoc, List.cons_append, lines_append hl,
        ih hrest (List.cons_ne_nil m ls)]

theorem lines_intercalate (hall : ∀ l ∈ ls, '\n' ∉ l) (hlast : ls.getLast? ≠ some []) :
    lines (['\n'].intercalate ls) = ls := by
  induction ls with
  | nil => rfl
  | cons l ls ih =>
    obtain ⟨hl, hrest⟩ := List.forall_mem_cons.mp hall
    cases ls with
    | nil =>
      have hone : ['\n'].intercalate [l] = l := by simp [List.intercalate]
      rw [hone, lines_of_not_mem hl (fun h => hlast (by rw [h]; rfl))]
    | cons m ls =>
      rw [List.getLast?_cons_cons] at hlast
      rw [intercalate_cons, lines_append hl, ih hrest hlast]

theorem lines_ne_nil (h : cs ≠ []) : lines cs ≠ [] := by
  cases cs with
  | nil => exact absurd rfl h
  | cons c cs =>
    rw [lines]
    split_ifs <;> exact List.cons_ne_nil _ _

/-- Only a newline at the end of the text leaves a last line without characters. -/
theorem getLast_lines {text : Line} (h : text.getLast? ≠ some '\n') :
    (lines text).getLast? ≠ some [] := by
  induction text with
  | nil => simp [lines]
  | cons c cs ih =>
    by_cases hnil : cs = []
    · subst hnil
      rw [lines, if_neg (fun hc => h (by rw [hc]; rfl))]
      simp [lines]
    · obtain ⟨l, ls, hls⟩ := List.exists_cons_of_ne_nil (lines_ne_nil hnil)
      obtain ⟨d, ds, rfl⟩ := List.exists_cons_of_ne_nil hnil
      rw [List.getLast?_cons_cons] at h
      have hlast := ih h
      rw [lines, hls]
      rw [hls] at hlast
      split_ifs with hc
      · rwa [List.getLast?_cons_cons]
      · cases ls with
        | nil => simp
        | cons m ls =>
          rw [List.getLast?_cons_cons] at hlast
          rwa [List.headD_cons, List.tail_cons, List.getLast?_cons_cons]

end Lines

/-! ## Values of several lines -/

section Values

/-- A line of a value: in one line, without blanks at its ends. -/
structure Clean (l : Line) : Prop where
  single : '\n' ∉ l
  stripped : strip l = l

theorem Clean.nil : Clean [] := ⟨List.not_mem_nil, rfl⟩

theorem Clean.strip (h : '\n' ∉ cs) : Clean (TrimmedLines.strip cs) :=
  ⟨fun hin => h (mem_of_mem_strip hin), strip_strip cs⟩

def bare (ls : List Line) : List Line := ls.rdropWhile (· == [])

theorem intercalate_concat (ls : List Line) (l : Line) :
    ['\n'].intercalate (ls ++ [l]) = ls.flatMap (· ++ ['\n']) ++ l := by
  induction ls with
  | nil => simp [List.intercalate]
  | cons m ls ih =>
    obtain ⟨k, ks, hks⟩ : ∃ k ks, ls ++ [l] = k :: ks :=
      List.exists_cons_of_ne_nil (by simp)
    rw [List.cons_append, hks, intercalate_cons, ← hks, ih, List.flatMap_cons]
    simp

theorem bare_concat_nil (ls : List Line) : bare (ls ++ [[]]) = bare ls :=
  List.rdropWhile_concat_pos _ _ _ rfl

theorem bare_concat {l : Line} (h : l ≠ []) (ls : List Line) : bare (ls ++ [l]) = ls ++ [l] :=
  List.rdropWhile_concat_neg _ _ _ (by simpa using h)

theorem joined_concat_nil (ls : List Line) : joined (ls ++ [[]]) = joined ls := by
  rw [joined, intercalate_concat, List.append_nil]
  induction ls using List.reverseRecOn with
  | nil => rfl
  | append_singleton ls l _ =>
    rw [List.flatMap_append, List.flatMap_singleton, ← List.append_assoc,
      rstrip_concat_space rfl, joined, intercalate_concat]

theorem joined_eq_bare (hall : ∀ l ∈ ls, Clean l) : joined ls = ['\n'].intercalate (bare ls) := by
  induction ls using List.reverseRecOn with
  | nil => rfl
  | append_singleton ls l ih =>
    obtain ⟨hls, hl⟩ := List.forall_mem_append.mp hall
    by_cases hnil : l = []
    · subst hnil
      rw [joined_concat_nil, bare_concat_nil, ih hls]
    · -- the last character of the last line is no blank, and so of the whole value
      rw [bare_concat hnil, joined, intercalate_concat]
      have hclean := (hl l List.mem_cons_self).stripped
      have hself : rstrip l = l := by rw [← hclean, rstrip_strip]
      have hspace := List.rdropWhile_eq_self_iff.mp hself hnil
      rw [← List.dropLast_append_getLast hnil, ← List.append_assoc,
        rstrip_append _ (Bool.eq_false_iff.mpr hspace)]
      rfl

theorem mem_of_mem_bare {l : Line} (h : l ∈ bare ls) : l ∈ ls :=
  (List.rdropWhile_prefix _ ls).subset h

theorem getLast_bare (ls : List Line) : (bare ls).getLast? ≠ some [] := by
  intro h
  have hne : bare ls ≠ [] := by
    intro hnil
    rw [hnil] at h
    cases h
  rw [List.getLast?_eq_some_getLast hne] at h
  have hlast : ((bare ls).getLast hne == []) = true := by rw [Option.some.inj h]; rfl
  exact List.rdropWhile_last_not (· == []) ls hne hlast

theorem lines_joined (hall : ∀ l ∈ ls, Clean l) : lines (joined ls) = bare ls := by
  rw [joined_eq_bare hall,
    lines_intercalate (fun l hl => (hall l (mem_of_mem_bare hl)).single) (getLast_bare ls)]

theorem getD_bare (ls : List Line) (k : ℕ) : (bare ls).getD k [] = ls.getD k [] := by
  have hsplit : bare ls ++ ls.rtakeWhile (· == []) = ls := List.rdropWhile_append_rtakeWhile
  by_cases hk : k < (bare ls).length
  · conv_rhs => rw [← hsplit]
    rw [List.getD_append _ _ _ _ hk]
  · have hk : (bare ls).length ≤ k := not_lt.mp hk
    have hout : (bare ls).getD k [] = [] := List.getD_eq_default _ _ hk
    conv_rhs => rw [← hsplit]
    rw [hout, List.getD_append_right _ _ _ _ hk]
    by_cases hin : k - (bare ls).length < (ls.rtakeWhile (· == [])).length
    · rw [List.getD_eq_getElem _ _ hin]
      have hblank := List.mem_rtakeWhile_imp (List.getElem_mem hin)
      simpa using hblank.symm
    · exact (List.getD_eq_default _ _ (not_lt.mp hin)).symm

theorem getD_of_joined (hls : ∀ l ∈ ls, Clean l) (hms : ∀ l ∈ ms, Clean l)
    (h : joined ls = joined ms) (k : ℕ) : ls.getD k [] = ms.getD k [] := by
  rw [← getD_bare ls, ← getD_bare ms, ← lines_joined hls, ← lines_joined hms, h]

theorem joined_blanks {l : Line} (hl : Clean l) (hms : ∀ m ∈ ms, m = []) :
    joined (l :: ms) = l := by
  induction ms using List.reverseRecOn with
  | nil =>
    rw [joined, List.intercalate, List.intersperse_singleton, List.flatten_singleton,
      ← hl.stripped, rstrip_strip]
  | append_singleton ms m ih =>
    obtain ⟨hms, hm⟩ := List.forall_mem_append.mp hms
    rw [hm m List.mem_cons_self, ← List.cons_append, joined_concat_nil, ih hms]

end Values

end TrimmedLines
