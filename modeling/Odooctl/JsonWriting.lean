import Odooctl.JsonText

/-!
# Writing JSON texts

`json.dumps` with any blanks behind its separators and any escapes that a reader undoes. What is
written of a value is read as that value again, but for the spelling of its floats.
-/
namespace JsonWriting

open PythonJson JsonText

/-! ## Styles -/

/-- Blank, tilde and what is between them. -/
def Printable (c : Char) : Prop := 32 ≤ c.toNat ∧ c.toNat ≤ 126

/-- What `repr` writes for a float, and the spelling that is read of that. -/
structure Floats where
  text : String → List Char
  spelling : String → String
  reads : ∀ t fuel rest, Stops rest →
    value (fuel + 1) (text t ++ rest) = some (.float (spelling t), rest)
  head : ∀ t, ∃ c cs, text t = c :: cs ∧ isBlank c = false ∧ c ≠ ']'
  printable : ∀ t, ∀ c ∈ text t, Printable c
  settled : ∀ t, text (spelling t) = text t

/-- How characters are escaped, and what follows a comma and a colon. -/
structure Style extends Floats where
  escape : Char → List Char
  itemBlanks : List Char
  keyBlanks : List Char
  escapes : ∀ c rest, stringBody (escape c ++ rest) = withChar c (stringBody rest)
  items_blank : ∀ c ∈ itemBlanks, isBlank c = true
  keys_blank : ∀ c ∈ keyBlanks, isBlank c = true

namespace Style

variable (w : Style)

def quote (s : String) : List Char := '"' :: (s.toList.flatMap w.escape ++ ['"'])

def joined : List (List Char) → List Char
  | [] => []
  | [text] => text
  | text :: texts => text ++ ',' :: (w.itemBlanks ++ joined texts)

def memberText (m : String × List Char) : List Char := w.quote m.1 ++ ':' :: (w.keyBlanks ++ m.2)

mutual

/-- `json.dumps`. -/
def write : Json → List Char
  | .null => ['n', 'u', 'l', 'l']
  | .bool true => ['t', 'r', 'u', 'e']
  | .bool false => ['f', 'a', 'l', 's', 'e']
  | .int i => intText i
  | .float t => w.text t
  | .str s => w.quote s
  | .list items => '[' :: (w.joined (writeEach items) ++ [']'])
  | .dict items => '{' :: (w.joined ((writeItems items).map w.memberText) ++ ['}'])

def writeEach : List Json → List (List Char)
  | [] => []
  | item :: items => write item :: writeEach items

def writeItems : Items → List (String × List Char)
  | [] => []
  | (key, item) :: items => (key, write item) :: writeItems items

end

end Style

/-! ## Values -/

mutual

/-- Every float is spelled as it would be read again. -/
def respell (fl : Floats) : Json → Json
  | .float t => .float (fl.spelling t)
  | .list items => .list (respellEach fl items)
  | .dict items => .dict (respellItems fl items)
  | .null => .null
  | .bool b => .bool b
  | .int i => .int i
  | .str s => .str s

def respellEach (fl : Floats) : List Json → List Json
  | [] => []
  | item :: items => respell fl item :: respellEach fl items

def respellItems (fl : Floats) : Items → Items
  | [] => []
  | (key, item) :: items => (key, respell fl item) :: respellItems fl items

end

mutual

/-- No mapping has a key twice. -/
def Distinct : Json → Prop
  | .list items => DistinctEach items
  | .dict items => DistinctItems items ∧ (items.map Prod.fst).Nodup
  | _ => True

def DistinctEach : List Json → Prop
  | [] => True
  | item :: items => Distinct item ∧ DistinctEach items

def DistinctItems : Items → Prop
  | [] => True
  | (_, item) :: items => Distinct item ∧ DistinctItems items

end

theorem distinctItems_iff {items : Items} :
    DistinctItems items ↔ ∀ m ∈ items, Distinct m.2 := by
  induction items with
  | nil => simp [DistinctItems]
  | cons m items ih => simp [DistinctItems, ih]

theorem respellItems_map (fl : Floats) (items : Items) :
    respellItems fl items = items.map fun m => (m.1, respell fl m.2) := by
  induction items with
  | nil => rfl
  | cons m items ih => simp [respellItems, ih]

/-! ## What is read is distinct -/

theorem setItem_keys (items : Items) (key : String) (item : Json) :
    (setItem items key item).map Prod.fst =
      if key ∈ items.map Prod.fst then items.map Prod.fst else items.map Prod.fst ++ [key] := by
  unfold setItem
  split
  · rw [List.map_map]
    apply List.map_congr_left
    intro m _
    by_cases hm : m.1 = key
    · simp [hm]
    · simp [hm]
  · simp

theorem distinct_setItem {items : Items} {key : String} {item : Json}
    (h : Distinct (.dict items)) (hitem : Distinct item) :
    Distinct (.dict (setItem items key item)) := by
  refine ⟨?_, ?_⟩
  · rw [distinctItems_iff]
    intro m hm
    unfold setItem at hm
    split at hm
    · obtain ⟨m', hm', rfl⟩ := List.mem_map.mp hm
      split
      · exact hitem
      · exact distinctItems_iff.mp h.1 m' hm'
    · rcases List.mem_append.mp hm with hm | hm
      · exact distinctItems_iff.mp h.1 m hm
      · rw [List.mem_singleton.mp hm]
        exact hitem
  · rw [setItem_keys]
    split
    · exact h.2
    next hnew =>
      rw [List.nodup_append]
      refine ⟨h.2, List.nodup_singleton _, ?_⟩
      rintro k hk k' hk' rfl
      rw [List.mem_singleton.mp hk'] at hk
      exact hnew hk

theorem distinct_toDict {pairs : Items} (h : DistinctItems pairs) :
    Distinct (.dict (toDict pairs)) := by
  unfold toDict
  have hempty : Distinct (.dict []) := ⟨trivial, List.nodup_nil⟩
  generalize ([] : Items) = done at hempty ⊢
  induction pairs generalizing done with
  | nil => exact hempty
  | cons m pairs ih => exact ih h.2 _ (distinct_setItem hempty h.1)

theorem distinct_atom {cs rest : List Char} {item : Json} (h : atom cs = some (item, rest)) :
    Distinct item := by
  unfold atom at h
  split at h
  next text item' hfound =>
    obtain ⟨rfl, -⟩ := Prod.mk.inj (Option.some.inj h)
    have hmem := List.mem_of_find?_eq_some hfound
    simp only [literals, List.mem_cons, Prod.mk.injEq, List.not_mem_nil, or_false] at hmem
    rcases hmem with ⟨-, rfl⟩ | ⟨-, rfl⟩ | ⟨-, rfl⟩ | ⟨-, rfl⟩ | ⟨-, rfl⟩ | ⟨-, rfl⟩ <;> trivial
  · unfold number at h
    simp only [Option.bind_eq_bind, Option.bind_eq_some_iff] at h
    obtain ⟨_, -, h⟩ := h
    split at h
    · obtain ⟨rfl, -⟩ := Prod.mk.inj (Option.some.inj h)
      trivial
    · obtain ⟨rfl, -⟩ := Prod.mk.inj (Option.some.inj h)
      trivial

/-- Of the three readers, one step of each from the others. -/
theorem distinct_readers (fuel : ℕ) :
    (∀ cs item rest, value fuel cs = some (item, rest) → Distinct item) ∧
      (∀ cs items rest, elements fuel cs = some (items, rest) → DistinctEach items) ∧
        ∀ cs items rest, members fuel cs = some (items, rest) → DistinctItems items := by
  induction fuel with
  | zero =>
    refine ⟨?_, ?_, ?_⟩ <;> (intro cs item rest h; cases h)
  | succ fuel ih =>
    obtain ⟨hvalue, helements, hmembers⟩ := ih
    refine ⟨?_, ?_, ?_⟩
    · intro cs item rest h
      simp only [value] at h
      split at h
      · obtain ⟨r, -, hr⟩ := Option.map_eq_some_iff.mp h
        rw [← (Prod.mk.inj hr).1]
        trivial
      · split at h
        · rw [← (Prod.mk.inj (Option.some.inj h)).1]
          exact ⟨trivial, List.nodup_nil⟩
        · obtain ⟨r, hread, hr⟩ := Option.map_eq_some_iff.mp h
          rw [← (Prod.mk.inj hr).1]
          exact distinct_toDict (hmembers _ _ _ hread)
      · split at h
        · rw [← (Prod.mk.inj (Option.some.inj h)).1]
          trivial
        · obtain ⟨r, hread, hr⟩ := Option.map_eq_some_iff.mp h
          rw [← (Prod.mk.inj hr).1]
          exact helements _ _ _ hread
      · exact distinct_atom h
    · intro cs items rest h
      simp only [elements, Option.bind_eq_bind, Option.bind_eq_some_iff] at h
      obtain ⟨⟨item, after⟩, hitem, h⟩ := h
      dsimp only at h
      split at h
      · rw [← (Prod.mk.inj (Option.some.inj h)).1]
        exact ⟨hvalue _ _ _ hitem, trivial⟩
      · obtain ⟨⟨others, after⟩, hothers, h⟩ := Option.bind_eq_some_iff.mp h
        rw [← (Prod.mk.inj (Option.some.inj h)).1]
        exact ⟨hvalue _ _ _ hitem, helements _ _ _ hothers⟩
      · cases h
    · intro cs items rest h
      simp only [members, Option.bind_eq_bind, Option.bind_eq_some_iff] at h
      obtain ⟨⟨name, after⟩, -, h⟩ := h
      obtain ⟨colon, -, h⟩ := h
      obtain ⟨⟨item, after⟩, hitem, h⟩ := h
      dsimp only at h
      split at h
      · rw [← (Prod.mk.inj (Option.some.inj h)).1]
        exact ⟨hvalue _ _ _ hitem, trivial⟩
      · obtain ⟨⟨others, after⟩, hothers, h⟩ := Option.bind_eq_some_iff.mp h
        rw [← (Prod.mk.inj (Option.some.inj h)).1]
        exact ⟨hvalue _ _ _ hitem, hmembers _ _ _ hothers⟩
      · cases h

theorem distinct_loads {text : String} {item : Json} (h : loads text = some item) :
    Distinct item := by
  unfold loads at h
  obtain ⟨⟨item', rest⟩, hvalue, h⟩ := Option.bind_eq_some_iff.mp h
  dsimp only at h
  split at h
  · cases h
  · obtain rfl := Option.some.inj h
    exact (distinct_readers _).1 _ _ _ hvalue

/-! ## The round trip -/

section RoundTrip

variable {w : Style} {fuel : ℕ} {rest : List Char}

theorem stringBody_quoted (s : String) (rest : List Char) :
    stringBody (s.toList.flatMap w.escape ++ '"' :: rest) = some (s.toList, rest) := by
  induction s.toList with
  | nil => simp [stringBody]
  | cons c cs ih =>
    rw [List.flatMap_cons, List.append_assoc, w.escapes, ih]
    rfl

theorem skip_blanks {blanks cs : List Char} (h : ∀ c ∈ blanks, isBlank c = true) :
    skip (blanks ++ cs) = skip cs := by
  induction blanks with
  | nil => rfl
  | cons c blanks ih =>
    have hc := h c List.mem_cons_self
    simp only [skip, List.cons_append, List.dropWhile_cons, hc, if_true]
    exact ih fun c hc => h c (List.mem_cons_of_mem _ hc)

theorem key_quoted (name : String) (rest : List Char) :
    key (w.quote name ++ rest) = some (name, rest) := by
  simp only [Style.quote, List.cons_append, List.append_assoc, List.nil_append, key]
  rw [stringBody_quoted]
  simp

theorem joined_cons {text : List Char} {texts : List (List Char)} (h : texts ≠ []) :
    w.joined (text :: texts) = text ++ ',' :: (w.itemBlanks ++ w.joined texts) := by
  cases texts with
  | nil => exact absurd rfl h
  | cons next texts => rfl

theorem joined_head (c : Char) (cs : List Char) (texts : List (List Char)) (after : List Char) :
    ∃ rest, w.joined ((c :: cs) :: texts) ++ after = c :: rest := by
  cases texts with
  | nil => exact ⟨_, rfl⟩
  | cons next texts => exact ⟨_, rfl⟩

theorem intText_head (i : ℤ) : ∃ c cs, intText i = c :: cs ∧ (c.isDigit = true ∨ c = '-') := by
  cases i with
  | negSucc n => exact ⟨'-', _, rfl, .inr rfl⟩
  | ofNat n =>
    have hall := isDigit_toDigits (n := n)
    cases hdigits : Nat.toDigits 10 n with
    | nil => exact absurd hdigits Nat.toDigits_ne_nil
    | cons c digits =>
      rw [hdigits] at hall
      exact ⟨c, digits, by rw [intText, hdigits], .inl (hall c List.mem_cons_self)⟩

theorem numeral_head {c : Char} (h : c.isDigit = true ∨ c = '-') :
    isBlank c = false ∧ c ≠ ']' := by
  rcases h with h | rfl
  · refine ⟨?_, ?_⟩
    · cases hblank : isBlank c with
      | false => rfl
      | true =>
        simp only [isBlank, Bool.or_eq_true, beq_iff_eq] at hblank
        obtain ((rfl | rfl) | rfl) | rfl := hblank <;> cases h
    · rintro rfl
      cases h
  · decide

theorem write_head (item : Json) :
    ∃ c cs, w.write item = c :: cs ∧ isBlank c = false ∧ c ≠ ']' := by
  cases item with
  | null => exact ⟨'n', _, rfl, by decide⟩
  | bool b => cases b <;> exact ⟨_, _, rfl, by decide⟩
  | float t => exact w.head t
  | str s => exact ⟨'"', _, rfl, by decide⟩
  | list items => exact ⟨'[', _, rfl, by decide⟩
  | dict items => exact ⟨'{', _, rfl, by decide⟩
  | int i =>
    obtain ⟨c, cs, htext, hc⟩ := intText_head i
    exact ⟨c, cs, by rw [Style.write, htext], numeral_head hc⟩

theorem members_start (name : String) (item : Json) (items : Items) (after : List Char) :
    ∃ rest, w.joined ((w.writeItems ((name, item) :: items)).map w.memberText) ++ after =
      '"' :: rest := by
  simp only [Style.writeItems, List.map_cons, Style.memberText, Style.quote, List.cons_append]
  exact joined_head _ _ _ _

theorem toDict_nodup {items : Items} (h : (items.map Prod.fst).Nodup) : toDict items = items :=
  toDict_onto [] (by simpa using h)

theorem respellItems_keys (fl : Floats) (items : Items) :
    (respellItems fl items).map Prod.fst = items.map Prod.fst := by
  rw [respellItems_map, List.map_map]
  rfl

mutual

/-- What is written is read again. -/
theorem value_write : ∀ (item : Json) (fuel : ℕ) (rest : List Char), Distinct item →
    2 * (w.write item).length ≤ fuel → Stops rest →
      value fuel (w.write item ++ rest) = some (respell w.toFloats item, rest)
  | .null, fuel, rest, _, hfuel, _ => by
    obtain ⟨fuel, rfl⟩ := Nat.exists_eq_succ_of_ne_zero (n := fuel) (by
      simp [Style.write] at hfuel
      omega)
    simp [Style.write, respell, value, atom, literals, List.isPrefixOf]
  | .bool true, fuel, rest, _, hfuel, _ => by
    obtain ⟨fuel, rfl⟩ := Nat.exists_eq_succ_of_ne_zero (n := fuel) (by
      simp [Style.write] at hfuel
      omega)
    simp [Style.write, respell, value, atom, literals, List.isPrefixOf]
  | .bool false, fuel, rest, _, hfuel, _ => by
    obtain ⟨fuel, rfl⟩ := Nat.exists_eq_succ_of_ne_zero (n := fuel) (by
      simp [Style.write] at hfuel
      omega)
    simp [Style.write, respell, value, atom, literals, List.isPrefixOf]
  | .float t, fuel, rest, _, hfuel, hrest => by
    obtain ⟨c, cs, htext, -⟩ := w.head t
    obtain ⟨fuel, rfl⟩ := Nat.exists_eq_succ_of_ne_zero (n := fuel) (by
      simp [Style.write, htext] at hfuel
      omega)
    exact w.reads t fuel rest hrest
  | .int i, fuel, rest, h, hfuel, hrest => by
    obtain ⟨c, cs, htext, -⟩ := intText_head i
    obtain ⟨fuel, rfl⟩ := Nat.exists_eq_succ_of_ne_zero (n := fuel) (by
      simp [Style.write, htext] at hfuel
      omega)
    exact value_intText i hrest
  | .str s, fuel, rest, _, hfuel, _ => by
    obtain ⟨fuel, rfl⟩ := Nat.exists_eq_succ_of_ne_zero (n := fuel) (by
      simp [Style.write, Style.quote] at hfuel
      omega)
    simp only [Style.write, Style.quote, respell, List.cons_append, List.append_assoc,
      List.nil_append, value]
    rw [stringBody_quoted]
    simp
  | .list [], fuel, rest, _, hfuel, _ => by
    obtain ⟨fuel, rfl⟩ := Nat.exists_eq_succ_of_ne_zero (n := fuel) (by
      simp [Style.write] at hfuel
      omega)
    simp [Style.write, Style.writeEach, Style.joined, respell, respellEach, value, skip, isBlank]
  | .list (item :: items), fuel, rest, h, hfuel, _ => by
    simp only [Style.write, List.length_cons, List.length_append, List.length_nil] at hfuel
    obtain ⟨fuel, rfl⟩ := Nat.exists_eq_succ_of_ne_zero (n := fuel) (by omega)
    have hitems := elements_write (item :: items) fuel rest (List.cons_ne_nil _ _) h (by omega)
    obtain ⟨c, cs, htext, hblank, hclose⟩ := write_head (w := w) item
    obtain ⟨after, hafter⟩ := joined_head (w := w) c cs (w.writeEach items) (']' :: rest)
    rw [Style.writeEach, htext, hafter] at hitems
    simp only [Style.write, Style.writeEach, htext, respell, List.cons_append, List.append_assoc,
      List.nil_append, hafter, value, skip_cons hblank]
    split
    · next heq => exact absurd (List.cons.inj heq).1 hclose
    · rw [hitems]
      rfl
  | .dict [], fuel, rest, _, hfuel, _ => by
    obtain ⟨fuel, rfl⟩ := Nat.exists_eq_succ_of_ne_zero (n := fuel) (by
      simp [Style.write] at hfuel
      omega)
    simp [Style.write, Style.writeItems, Style.joined, respell, respellItems, value, skip, isBlank]
  | .dict ((name, item) :: items), fuel, rest, h, hfuel, _ => by
    simp only [Style.write, List.length_cons, List.length_append, List.length_nil] at hfuel
    obtain ⟨fuel, rfl⟩ := Nat.exists_eq_succ_of_ne_zero (n := fuel) (by omega)
    have hitems := members_write ((name, item) :: items) fuel rest (List.cons_ne_nil _ _) h.1
      (by omega)
    obtain ⟨after, hafter⟩ := members_start (w := w) name item items ('}' :: rest)
    rw [hafter] at hitems
    have hblank : isBlank '"' = false := by decide
    have hkeys : ((respellItems w.toFloats ((name, item) :: items)).map Prod.fst).Nodup := by
      rw [respellItems_keys]
      exact h.2
    simp only [Style.write, respell, List.cons_append, List.append_assoc, List.nil_append, hafter,
      value, skip_cons hblank]
    change Option.map _ (members fuel ('"' :: after)) = _
    rw [hitems, Option.map_some, toDict_nodup hkeys]

theorem elements_write : ∀ (items : List Json) (fuel : ℕ) (rest : List Char), items ≠ [] →
    DistinctEach items → 2 * (w.joined (w.writeEach items)).length + 1 ≤ fuel →
      elements fuel (w.joined (w.writeEach items) ++ ']' :: rest) =
        some (respellEach w.toFloats items, rest)
  | [], _, _, hne, _, _ => absurd rfl hne
  | [item], fuel, rest, _, h, hfuel => by
    simp only [Style.writeEach, Style.joined] at hfuel ⊢
    obtain ⟨fuel, rfl⟩ := Nat.exists_eq_succ_of_ne_zero (n := fuel) (by omega)
    have hitem := value_write item fuel (']' :: rest) h.1 (by omega) (stops_close (by simp))
    have hblank : isBlank ']' = false := by decide
    simp [elements, hitem, skip_cons hblank, respellEach]
  | item :: next :: items, fuel, rest, _, h, hfuel => by
    rw [Style.writeEach, joined_cons (by simp [Style.writeEach])] at hfuel ⊢
    simp only [List.length_append, List.length_cons] at hfuel
    obtain ⟨fuel, rfl⟩ := Nat.exists_eq_succ_of_ne_zero (n := fuel) (by omega)
    have hitem := value_write item fuel
      (',' :: (w.itemBlanks ++ (w.joined (w.writeEach (next :: items)) ++ ']' :: rest))) h.1
      (by omega) (stops_close (by simp))
    have hitems := elements_write (next :: items) fuel rest (List.cons_ne_nil _ _) h.2 (by omega)
    obtain ⟨c, cs, htext, hskip, -⟩ := write_head (w := w) next
    obtain ⟨after, hafter⟩ := joined_head (w := w) c cs (w.writeEach items) (']' :: rest)
    have hblank : isBlank ',' = false := by decide
    rw [Style.writeEach, htext, hafter] at hitem hitems
    simp [Style.writeEach, htext, hafter, elements, hitem, hitems, skip_cons hblank,
      skip_blanks w.items_blank, skip_cons hskip, respellEach]

theorem members_write : ∀ (items : Items) (fuel : ℕ) (rest : List Char), items ≠ [] →
    DistinctItems items →
    2 * (w.joined ((w.writeItems items).map w.memberText)).length + 1 ≤ fuel →
      members fuel (w.joined ((w.writeItems items).map w.memberText) ++ '}' :: rest) =
        some (respellItems w.toFloats items, rest)
  | [], _, _, hne, _, _ => absurd rfl hne
  | [(name, item)], fuel, rest, _, h, hfuel => by
    simp only [Style.writeItems, List.map_cons, List.map_nil, Style.joined, Style.memberText,
      List.length_append, List.length_cons] at hfuel ⊢
    obtain ⟨fuel, rfl⟩ := Nat.exists_eq_succ_of_ne_zero (n := fuel) (by omega)
    have hitem := value_write item fuel ('}' :: rest) h.1 (by omega) (stops_close (by simp))
    obtain ⟨c, cs, htext, hskip, -⟩ := write_head (w := w) item
    rw [htext] at hitem
    have hblank : isBlank '}' = false := by decide
    have hcolon : isBlank ':' = false := by decide
    simp only [List.cons_append] at hitem
    simp [members, key_quoted, afterColon, htext, hitem, skip_cons hblank, skip_cons hcolon,
      skip_blanks w.keys_blank, skip_cons hskip, respellItems]
  | (name, item) :: (other, second) :: items, fuel, rest, _, h, hfuel => by
    rw [Style.writeItems, List.map_cons, joined_cons (by simp [Style.writeItems])] at hfuel ⊢
    simp only [List.length_append, List.length_cons, Style.memberText] at hfuel
    obtain ⟨fuel, rfl⟩ := Nat.exists_eq_succ_of_ne_zero (n := fuel) (by omega)
    have hitems := members_write ((other, second) :: items) fuel rest (List.cons_ne_nil _ _) h.2
      (by omega)
    obtain ⟨after, hafter⟩ := members_start (w := w) other second items ('}' :: rest)
    have hitem := value_write item fuel (',' :: (w.itemBlanks ++ '"' :: after)) h.1 (by omega)
      (stops_close (by simp))
    obtain ⟨c, cs, htext, hskip, -⟩ := write_head (w := w) item
    rw [htext, List.cons_append] at hitem
    rw [hafter] at hitems
    have hblank : isBlank ',' = false := by decide
    have hcolon : isBlank ':' = false := by decide
    have hquote : isBlank '"' = false := by decide
    simp [Style.memberText, members, key_quoted, afterColon, htext, hafter, hitem, hitems,
      skip_cons hblank, skip_cons hcolon, skip_blanks w.items_blank, skip_blanks w.keys_blank,
      skip_cons hskip, skip_cons hquote, respellItems]

end

/-- A value is read back from its text. -/
theorem loads_write {item : Json} (h : Distinct item)
    (hmark : (w.write item).head? ≠ some '\uFEFF') :
    loads (String.ofList (w.write item)) = some (respell w.toFloats item) := by
  obtain ⟨c, cs, htext, hblank, -⟩ := write_head (w := w) item
  have hvalue := value_write (w := w) item (2 * (w.write item).length + 2) [] h (by omega) stops_nil
  rw [htext, List.head?_cons, Ne, Option.some.injEq] at hmark
  rw [List.append_nil, htext] at hvalue
  rw [htext]
  simp only [loads, String.toList_ofList, skip_cons hblank, hvalue, Option.bind_eq_bind,
    Option.bind_some, List.head?_cons, Option.some.injEq, hmark]
  simp [skip]

end RoundTrip

/-! ## ASCII texts -/

/-- The four digits of a code unit. -/
def hex4 (n : ℕ) : List Char :=
  [hexDigit (n / 4096 % 16), hexDigit (n / 256 % 16), hexDigit (n / 16 % 16), hexDigit (n % 16)]

/-- With `ensure_ascii`: a character that is not printable is escaped by its code units. -/
def asciiEscape (c : Char) : List Char :=
  if c = '"' then ['\\', '"']
  else if c = '\\' then ['\\', '\\']
  else if c = '\n' then ['\\', 'n']
  else if c = '\r' then ['\\', 'r']
  else if c = '\t' then ['\\', 't']
  else if c = '\x08' then ['\\', 'b']
  else if c = '\x0c' then ['\\', 'f']
  else if 32 ≤ c.toNat ∧ c.toNat ≤ 126 then [c]
  else if c.toNat < 0x10000 then '\\' :: 'u' :: hex4 c.toNat
  else '\\' :: 'u' :: hex4 (0xd800 + (c.toNat - 0x10000) / 1024) ++
    '\\' :: 'u' :: hex4 (0xdc00 + (c.toNat - 0x10000) % 1024)

theorem codeUnit_hex4 {n : ℕ} (h : n < 0x10000) :
    codeUnit (hexDigit (n / 4096 % 16)) (hexDigit (n / 256 % 16)) (hexDigit (n / 16 % 16))
      (hexDigit (n % 16)) = some n := by
  simp only [codeUnit, hexValue_hexDigit (Nat.mod_lt _ (by decide : 16 > 0)), Option.bind_eq_bind,
    Option.bind_some, Option.some.injEq]
  omega

theorem stringBody_unit {n : ℕ} (h : n < 0x10000) (hhigh : isHigh n = false)
    (hlow : isLow n = false) (rest : List Char) :
    stringBody ('\\' :: 'u' :: (hex4 n ++ rest)) = withChar (Char.ofNat n) (stringBody rest) := by
  simp [hex4, stringBody, codeUnit_hex4 h, hhigh, hlow]

theorem stringBody_pair {high low : ℕ} (hhigh : 0xd800 ≤ high ∧ high ≤ 0xdbff)
    (hlow : 0xdc00 ≤ low ∧ low ≤ 0xdfff) (rest : List Char) :
    stringBody ('\\' :: 'u' :: (hex4 high ++ '\\' :: 'u' :: (hex4 low ++ rest))) =
      withChar (pair high low) (stringBody rest) := by
  have hunit := codeUnit_hex4 (n := high) (by omega)
  have hunit' := codeUnit_hex4 (n := low) (by omega)
  have hhigh : isHigh high = true := by simp [isHigh, hhigh]
  have hlow : isLow low = true := by simp [isLow, hlow]
  simp [hex4, stringBody, hunit, hunit', hhigh, hlow]

/-- A character beyond the sixteen-bit ones is its pair of code units. -/
theorem pair_split {n : ℕ} (hn : 0x10000 ≤ n) :
    pair (0xd800 + (n - 0x10000) / 1024) (0xdc00 + (n - 0x10000) % 1024) = Char.ofNat n := by
  have hcode : 0x10000 + (0xd800 + (n - 0x10000) / 1024 - 0xd800) * 1024 +
      (0xdc00 + (n - 0x10000) % 1024 - 0xdc00) = n := by omega
  rw [pair, hcode]

theorem stringBody_ascii (c : Char) (rest : List Char) :
    stringBody (asciiEscape c ++ rest) = withChar c (stringBody rest) := by
  have hvalid := c.valid
  have hbound : c.toNat < 0xd800 ∨ 0xdfff < c.toNat ∧ c.toNat < 0x110000 := hvalid
  unfold asciiEscape
  by_cases hquote : c = '"'
  · subst hquote
    simp [stringBody, unescape]
  by_cases hbackslash : c = '\\'
  · subst hbackslash
    simp [stringBody, unescape]
  by_cases hnewline : c = '\n'
  · subst hnewline
    simp [stringBody, unescape]
  by_cases hreturn : c = '\r'
  · subst hreturn
    simp [stringBody, unescape]
  by_cases htab : c = '\t'
  · subst htab
    simp [stringBody, unescape]
  by_cases hbell : c = '\x08'
  · subst hbell
    simp [stringBody, unescape]
  by_cases hfeed : c = '\x0c'
  · subst hfeed
    simp [stringBody, unescape]
  simp only [hquote, hbackslash, hnewline, hreturn, htab, hbell, hfeed, if_false]
  split
  next hprint =>
    have hcontrol : ¬ c.toNat < 32 := by omega
    simp [stringBody, hbackslash, hcontrol]
  split
  next hsmall =>
    have hhigh : isHigh c.toNat = false := by
      simp only [isHigh, Bool.and_eq_false_iff, decide_eq_false_iff_not]
      omega
    have hlow : isLow c.toNat = false := by
      simp only [isLow, Bool.and_eq_false_iff, decide_eq_false_iff_not]
      omega
    rw [List.cons_append, List.cons_append, stringBody_unit hsmall hhigh hlow, Char.ofNat_toNat]
  next hlarge =>
    have hsplit := pair_split (n := c.toNat) (by omega)
    rw [Char.ofNat_toNat] at hsplit
    simp only [List.cons_append, List.append_assoc]
    rw [stringBody_pair (by omega) (by omega), hsplit]

theorem printable_hexDigit {n : ℕ} (h : n < 16) : Printable (hexDigit n) := by
  unfold Printable
  revert n
  decide

theorem printable_hex4 {n : ℕ} {c : Char} (h : c ∈ hex4 n) : Printable c := by
  simp only [hex4, List.mem_cons, List.not_mem_nil, or_false] at h
  rcases h with rfl | rfl | rfl | rfl <;> exact printable_hexDigit (Nat.mod_lt _ (by decide))

theorem printable_ascii {c d : Char} (h : d ∈ asciiEscape c) : Printable d := by
  have hpair : ∀ m, d ∈ '\\' :: 'u' :: hex4 m → Printable d := by
    intro m hd
    rcases List.mem_cons.mp hd with rfl | hd
    · exact ⟨by decide, by decide⟩
    rcases List.mem_cons.mp hd with rfl | hd
    · exact ⟨by decide, by decide⟩
    · exact printable_hex4 hd
  have hshort : ∀ e, Printable e → d ∈ ['\\', e] → Printable d := by
    intro e he hd
    rcases List.mem_cons.mp hd with rfl | hd
    · exact ⟨by decide, by decide⟩
    · rwa [List.mem_singleton.mp hd]
  unfold asciiEscape at h
  split at h
  · exact hshort '"' (by simp [Printable]) h
  split at h
  · exact hshort '\\' (by simp [Printable]) h
  split at h
  · exact hshort 'n' (by simp [Printable]) h
  split at h
  · exact hshort 'r' (by simp [Printable]) h
  split at h
  · exact hshort 't' (by simp [Printable]) h
  split at h
  · exact hshort 'b' (by simp [Printable]) h
  split at h
  · exact hshort 'f' (by simp [Printable]) h
  split at h
  next hprint =>
    rw [List.mem_singleton.mp h]
    exact hprint
  split at h
  · exact hpair _ h
  · rcases List.mem_append.mp h with h | h
    · exact hpair _ h
    · exact hpair _ h

theorem space_blank : ∀ c ∈ [' '], isBlank c = true := by
  intro c hc
  rw [List.mem_singleton.mp hc]
  rfl

/-- `json.dumps` with its defaults. -/
def spaced (fl : Floats) : Style where
  toFloats := fl
  escape := asciiEscape
  itemBlanks := [' ']
  keyBlanks := [' ']
  escapes := stringBody_ascii
  items_blank := space_blank
  keys_blank := space_blank

/-- With `separators=(",", ":")`. -/
def compact (fl : Floats) : Style where
  toFloats := fl
  escape := asciiEscape
  itemBlanks := []
  keyBlanks := []
  escapes := stringBody_ascii
  items_blank := fun _ h => (List.not_mem_nil h).elim
  keys_blank := fun _ h => (List.not_mem_nil h).elim

/-! ## Printable texts -/

/-- Everything that the style itself writes is printable. -/
structure Style.Ascii (w : Style) : Prop where
  escape : ∀ c, ∀ d ∈ w.escape c, Printable d
  items : ∀ c ∈ w.itemBlanks, Printable c
  keys : ∀ c ∈ w.keyBlanks, Printable c

theorem spaced_ascii (fl : Floats) : (spaced fl).Ascii where
  escape := fun _ _ h => printable_ascii h
  items := by simp [spaced, Printable]
  keys := by simp [spaced, Printable]

section Printing

variable {w : Style}

theorem printable_cons {c d : Char} {cs : List Char} (hc : Printable c)
    (hcs : ∀ d ∈ cs, Printable d) (h : d ∈ c :: cs) : Printable d := by
  rcases List.mem_cons.mp h with rfl | h
  · exact hc
  · exact hcs d h

theorem printable_append {d : Char} {cs ds : List Char} (hcs : ∀ d ∈ cs, Printable d)
    (hds : ∀ d ∈ ds, Printable d) (h : d ∈ cs ++ ds) : Printable d := by
  rcases List.mem_append.mp h with h | h
  · exact hcs d h
  · exact hds d h

theorem printable_of_isDigit {c : Char} (h : c.isDigit = true) : Printable c := by
  simp only [Char.isDigit, Bool.and_eq_true, decide_eq_true_eq, UInt32.le_iff_toNat_le] at h
  obtain ⟨hlow, hhigh⟩ := h
  change 48 ≤ c.toNat at hlow
  change c.toNat ≤ 57 at hhigh
  exact ⟨by omega, by omega⟩

theorem printable_intText (i : ℤ) : ∀ c ∈ intText i, Printable c := by
  intro c hc
  cases i with
  | ofNat n => exact printable_of_isDigit (isDigit_toDigits c hc)
  | negSucc n =>
    rcases List.mem_cons.mp hc with rfl | hc
    · exact ⟨by decide, by decide⟩
    · exact printable_of_isDigit (isDigit_toDigits c hc)

theorem printable_quote (hw : w.Ascii) (s : String) : ∀ c ∈ w.quote s, Printable c := by
  have hmark : Printable '"' := ⟨by decide, by decide⟩
  intro c hc
  refine printable_cons hmark ?_ hc
  intro d hd
  refine printable_append ?_ (fun e he => by rwa [List.mem_singleton.mp he]) hd
  intro e he
  obtain ⟨c', -, he⟩ := List.mem_flatMap.mp he
  exact hw.escape c' e he

theorem printable_joined (hw : w.Ascii) {texts : List (List Char)}
    (h : ∀ text ∈ texts, ∀ c ∈ text, Printable c) : ∀ c ∈ w.joined texts, Printable c := by
  induction texts with
  | nil => exact fun c hc => by cases hc
  | cons text texts ih =>
    have htext := h text List.mem_cons_self
    cases htexts : texts with
    | nil => exact htext
    | cons next others =>
      rw [← htexts, joined_cons (by simp [htexts])]
      intro c hc
      refine printable_append htext ?_ hc
      intro d hd
      refine printable_cons ⟨by decide, by decide⟩ ?_ hd
      exact fun e he => printable_append hw.items (ih fun t ht => h t (List.mem_cons_of_mem _ ht)) he

theorem printable_bracketed {first last : Char} {cs : List Char} (hfirst : Printable first)
    (hlast : Printable last) (hcs : ∀ c ∈ cs, Printable c) :
    ∀ c ∈ first :: (cs ++ [last]), Printable c := by
  intro c hc
  refine printable_cons hfirst ?_ hc
  exact fun d hd => printable_append hcs (fun e he => by rwa [List.mem_singleton.mp he]) hd

mutual

theorem printable_write (hw : w.Ascii) : ∀ item : Json, ∀ c ∈ w.write item, Printable c
  | .null => by simp [Style.write, Printable]
  | .bool true => by simp [Style.write, Printable]
  | .bool false => by simp [Style.write, Printable]
  | .int i => printable_intText i
  | .float t => w.printable t
  | .str s => printable_quote hw s
  | .list items => by
    rw [Style.write]
    exact printable_bracketed ⟨by decide, by decide⟩ ⟨by decide, by decide⟩
      (printable_joined hw (printable_each hw items))
  | .dict items => by
    rw [Style.write]
    apply printable_bracketed ⟨by decide, by decide⟩ ⟨by decide, by decide⟩
    apply printable_joined hw
    intro text htext
    obtain ⟨m, hm, rfl⟩ := List.mem_map.mp htext
    intro c hc
    refine printable_append (printable_quote hw m.1) ?_ hc
    intro d hd
    refine printable_cons ⟨by decide, by decide⟩ ?_ hd
    exact fun e he => printable_append hw.keys (printable_items hw items m hm) he

theorem printable_each (hw : w.Ascii) :
    ∀ items : List Json, ∀ text ∈ w.writeEach items, ∀ c ∈ text, Printable c
  | [] => by simp [Style.writeEach]
  | item :: items => by
    intro text htext
    rcases List.mem_cons.mp htext with rfl | htext
    · exact printable_write hw item
    · exact printable_each hw items text htext

theorem printable_items (hw : w.Ascii) :
    ∀ items : Items, ∀ m ∈ w.writeItems items, ∀ c ∈ m.2, Printable c
  | [] => by simp [Style.writeItems]
  | (key, item) :: items => by
    intro m hm
    rcases List.mem_cons.mp hm with rfl | hm
    · exact printable_write hw item
    · exact printable_items hw items m hm

end

mutual

/-- What is read again is written as before. -/
theorem write_respell : ∀ item : Json, w.write (respell w.toFloats item) = w.write item
  | .null | .bool _ | .int _ | .str _ => rfl
  | .float t => w.settled t
  | .list items => by rw [respell, Style.write, Style.write, writeEach_respell items]
  | .dict items => by rw [respell, Style.write, Style.write, writeItems_respell items]

theorem writeEach_respell :
    ∀ items : List Json, w.writeEach (respellEach w.toFloats items) = w.writeEach items
  | [] => rfl
  | item :: items => by
    rw [respellEach, Style.writeEach, Style.writeEach, write_respell item, writeEach_respell items]

theorem writeItems_respell :
    ∀ items : Items, w.writeItems (respellItems w.toFloats items) = w.writeItems items
  | [] => rfl
  | (key, item) :: items => by
    rw [respellItems, Style.writeItems, Style.writeItems, write_respell item,
      writeItems_respell items]

end

end Printing

/-! ## Keys in order -/

mutual

/-- With `sort_keys=True`. -/
def sort_keys : Json → Json
  | .list items => .list (sortEach items)
  | .dict items => .dict ((sortItems items).insertionSort fun x y => x.1 ≤ y.1)
  | .null => .null
  | .bool b => .bool b
  | .int i => .int i
  | .float t => .float t
  | .str s => .str s

def sortEach : List Json → List Json
  | [] => []
  | item :: items => sort_keys item :: sortEach items

def sortItems : Items → Items
  | [] => []
  | (key, item) :: items => (key, sort_keys item) :: sortItems items

end

theorem sortItems_keys (items : Items) : (sortItems items).map Prod.fst = items.map Prod.fst := by
  induction items with
  | nil => rfl
  | cons m items ih => simp [sortItems, ih]

mutual

theorem distinct_sort_keys : ∀ item : Json, Distinct item → Distinct (sort_keys item)
  | .null, _ | .bool _, _ | .int _, _ | .float _, _ | .str _, _ => trivial
  | .list items, h => distinct_sortEach items h
  | .dict items, h => by
    have hperm := List.perm_insertionSort (fun x y => x.1 ≤ y.1) (sortItems items)
    refine ⟨?_, ?_⟩
    · rw [distinctItems_iff]
      intro m hm
      exact distinctItems_iff.mp (distinct_sortItems items h.1) m (hperm.mem_iff.mp hm)
    · rw [(hperm.map Prod.fst).nodup_iff, sortItems_keys]
      exact h.2

theorem distinct_sortEach : ∀ items : List Json, DistinctEach items → DistinctEach (sortEach items)
  | [], _ => trivial
  | item :: items, h => ⟨distinct_sort_keys item h.1, distinct_sortEach items h.2⟩

theorem distinct_sortItems : ∀ items : Items, DistinctItems items → DistinctItems (sortItems items)
  | [], _ => trivial
  | (_, item) :: items, h => ⟨distinct_sort_keys item h.1, distinct_sortItems items h.2⟩

end

mutual

theorem sort_respell (fl : Floats) :
    ∀ item : Json, sort_keys (respell fl item) = respell fl (sort_keys item)
  | .null | .bool _ | .int _ | .float _ | .str _ => rfl
  | .list items => by rw [respell, sort_keys, sort_keys, respell, sortEach_respell fl items]
  | .dict items => by
    rw [respell, sort_keys, sort_keys, respell, sortItems_respell fl items, respellItems_map,
      respellItems_map]
    congr 1
    apply Eq.symm
    apply List.map_insertionSort
    exact fun _ _ _ _ => Iff.rfl

theorem sortEach_respell (fl : Floats) :
    ∀ items : List Json, sortEach (respellEach fl items) = respellEach fl (sortEach items)
  | [] => rfl
  | item :: items => by
    rw [respellEach, sortEach, sortEach, respellEach, sort_respell fl item,
      sortEach_respell fl items]

theorem sortItems_respell (fl : Floats) :
    ∀ items : Items, sortItems (respellItems fl items) = respellItems fl (sortItems items)
  | [] => rfl
  | (key, item) :: items => by
    rw [respellItems, sortItems, sortItems, respellItems, sort_respell fl item,
      sortItems_respell fl items]

end

/-- What a text with sorted keys says of a value. -/
def content (fl : Floats) (item : Json) : Json := respell fl (sort_keys item)

/-- Such a text tells values apart, up to the order of keys and the spelling of floats. -/
theorem content_of_write {w : Style} {item other : Json} (hitem : Distinct item)
    (hother : Distinct other) (h : w.write (sort_keys item) = w.write (sort_keys other))
    (hmark : (w.write (sort_keys item)).head? ≠ some '\uFEFF') :
    content w.toFloats item = content w.toFloats other := by
  have hread := loads_write (w := w) (distinct_sort_keys item hitem) hmark
  have hread' := loads_write (w := w) (distinct_sort_keys other hother) (h ▸ hmark)
  rw [h, hread'] at hread
  exact (Option.some.inj hread).symm

end JsonWriting
