import Mathlib.Data.List.Sort
import Mathlib.Data.List.TakeDrop
import Mathlib.Data.List.TakeWhile
import Mathlib.Data.String.Basic
import Mathlib.Tactic.IntervalCases
import Odooctl.PythonJson

/-!
# JSON texts

`json.loads` and `json.dumps` with `ensure_ascii=False`, the shortest separators and
`sort_keys=True`, without the limits on the length of a numeral and on the depth of a text. What
`repr` makes of a float is a parameter. A text that escapes a lone surrogate is rejected: no
string of characters holds one.
-/
namespace JsonText

open PythonJson

/-! ## Writing -/

def hexDigit (n : ℕ) : Char := if n < 10 then Char.ofNat (48 + n) else Char.ofNat (87 + n)

def escape (c : Char) : List Char :=
  if c = '"' then ['\\', '"']
  else if c = '\\' then ['\\', '\\']
  else if c = '\n' then ['\\', 'n']
  else if c = '\r' then ['\\', 'r']
  else if c = '\t' then ['\\', 't']
  else if c = '\x08' then ['\\', 'b']
  else if c = '\x0c' then ['\\', 'f']
  else if c.toNat < 32 then
    ['\\', 'u', '0', '0', hexDigit (c.toNat / 16), hexDigit (c.toNat % 16)]
  else [c]

def quote (s : String) : List Char := '"' :: (s.toList.flatMap escape ++ ['"'])

def intText : ℤ → List Char
  | .ofNat n => Nat.toDigits 10 n
  | .negSucc n => '-' :: Nat.toDigits 10 (n + 1)

def commas : List (List Char) → List Char
  | [] => []
  | [text] => text
  | text :: texts => text ++ ',' :: commas texts

/-- A member of an object. -/
def memberText (m : String × List Char) : List Char := quote m.1 ++ ':' :: m.2

section Dumps

variable (floatText : String → List Char)

mutual

def dumps : Json → List Char
  | .null => ['n', 'u', 'l', 'l']
  | .bool true => ['t', 'r', 'u', 'e']
  | .bool false => ['f', 'a', 'l', 's', 'e']
  | .int i => intText i
  | .float text => floatText text
  | .str s => quote s
  | .list items => '[' :: (commas (dumpsEach items) ++ [']'])
  | .dict items =>
    '{' :: (commas (((dumpsItems items).mergeSort fun x y => x.1 ≤ y.1).map memberText) ++ ['}'])

def dumpsEach : List Json → List (List Char)
  | [] => []
  | item :: items => dumps item :: dumpsEach items

def dumpsItems : Items → List (String × List Char)
  | [] => []
  | (key, item) :: items => (key, dumps item) :: dumpsItems items

end

end Dumps

/-! ## Reading -/

def isBlank (c : Char) : Bool := c == ' ' || c == '\t' || c == '\n' || c == '\r'

def skip (cs : List Char) : List Char := cs.dropWhile isBlank

def hexValue (c : Char) : Option ℕ :=
  if '0' ≤ c ∧ c ≤ '9' then some (c.toNat - 48)
  else if 'a' ≤ c ∧ c ≤ 'f' then some (c.toNat - 87)
  else if 'A' ≤ c ∧ c ≤ 'F' then some (c.toNat - 55)
  else none

/-- The code unit of four digits. -/
def codeUnit (a b c d : Char) : Option ℕ := do
  let a ← hexValue a
  let b ← hexValue b
  let c ← hexValue c
  let d ← hexValue d
  some (4096 * a + 256 * b + 16 * c + d)

def isHigh (n : ℕ) : Bool := 0xd800 ≤ n && n ≤ 0xdbff

def isLow (n : ℕ) : Bool := 0xdc00 ≤ n && n ≤ 0xdfff

/-- What a letter after a backslash stands for. -/
def unescape : Char → Option Char
  | '"' => some '"'
  | '\\' => some '\\'
  | '/' => some '/'
  | 'b' => some '\x08'
  | 'f' => some '\x0c'
  | 'n' => some '\n'
  | 'r' => some '\r'
  | 't' => some '\t'
  | _ => none

def pair (high low : ℕ) : Char := Char.ofNat (0x10000 + (high - 0xd800) * 1024 + (low - 0xdc00))

/-- One more character in front of a string. -/
def withChar (c : Char) : Option (List Char × List Char) → Option (List Char × List Char) :=
  Option.map fun r => (c :: r.1, r.2)

/-- What follows the opening quotation mark of a string, up to the closing one. -/
def stringBody : List Char → Option (List Char × List Char)
  | [] => none
  | '"' :: rest => some ([], rest)
  | '\\' :: 'u' :: a :: b :: c :: d :: rest => do
    let unit ← codeUnit a b c d
    if isHigh unit then
      match rest with
      | '\\' :: 'u' :: a :: b :: c :: d :: rest => do
        let low ← codeUnit a b c d
        if isLow low then withChar (pair unit low) (stringBody rest) else none
      | _ => none
    else if isLow unit then none
    else withChar (Char.ofNat unit) (stringBody rest)
  | '\\' :: c :: rest => do
    let c ← unescape c
    withChar c (stringBody rest)
  | c :: rest => if c.toNat < 32 then none else withChar c (stringBody rest)

/-- The digits of an integer without a sign: a zero begins no longer one. -/
def intDigits : List Char → Option (List Char × List Char)
  | '0' :: rest => some (['0'], rest)
  | c :: rest => if c.isDigit then some ((c :: rest).span Char.isDigit) else none
  | [] => none

/-- A fraction, where one with a digit follows. -/
def fraction (cs : List Char) : List Char × List Char :=
  match cs with
  | '.' :: rest =>
    let (digits, after) := rest.span Char.isDigit
    if digits = [] then ([], cs) else ('.' :: digits, after)
  | _ => ([], cs)

def sign : List Char → List Char × List Char
  | '+' :: rest => (['+'], rest)
  | '-' :: rest => (['-'], rest)
  | rest => ([], rest)

/-- An exponent, where one with a digit follows. -/
def exponent (cs : List Char) : List Char × List Char :=
  match cs with
  | c :: rest =>
    let (mark, after) := sign rest
    let (digits, after) := after.span Char.isDigit
    if (c = 'e' ∨ c = 'E') ∧ digits ≠ [] then (c :: mark ++ digits, after) else ([], cs)
  | [] => ([], [])

def minus : List Char → List Char × List Char
  | '-' :: rest => (['-'], rest)
  | rest => ([], rest)

def intValue (negative : Bool) (digits : List Char) : ℤ :=
  if negative then -Nat.ofDigitChars 10 digits 0 else Nat.ofDigitChars 10 digits 0

def number (cs : List Char) : Option (Json × List Char) := do
  let (mark, rest) := minus cs
  let (digits, rest) ← intDigits rest
  let (frac, rest) := fraction rest
  let (exp, rest) := exponent rest
  if frac = [] ∧ exp = [] then some (.int (intValue (mark ≠ []) digits), rest)
  else some (.float (String.ofList (mark ++ digits ++ frac ++ exp)), rest)

def literals : List (List Char × Json) :=
  [("null".toList, .null), ("true".toList, .bool true), ("false".toList, .bool false),
    ("NaN".toList, .float "nan"), ("Infinity".toList, .float "inf"),
    ("-Infinity".toList, .float "-inf")]

def atom (cs : List Char) : Option (Json × List Char) :=
  match literals.find? fun l => l.1.isPrefixOf cs with
  | some (text, item) => some (item, cs.drop text.length)
  | none => number cs

/-- A key that is repeated keeps its place and takes its last value. -/
def setItem (items : Items) (key : String) (item : Json) : Items :=
  if key ∈ items.map Prod.fst then items.map fun m => if m.1 = key then (key, item) else m
  else items ++ [(key, item)]

def toDict (pairs : Items) : Items := pairs.foldl (fun items m => setItem items m.1 m.2) []

def key (cs : List Char) : Option (String × List Char) :=
  match cs with
  | '"' :: rest => (stringBody rest).map fun r => (String.ofList r.1, r.2)
  | _ => none

/-- What follows a colon. -/
def afterColon (cs : List Char) : Option (List Char) :=
  match skip cs with
  | ':' :: rest => some (skip rest)
  | _ => none

-- Of two calls in a row at least one takes a character, so that twice the length is fuel enough.
mutual

def value : ℕ → List Char → Option (Json × List Char)
  | 0, _ => none
  | fuel + 1, cs =>
    match cs with
    | '"' :: rest => (stringBody rest).map fun r => (.str (String.ofList r.1), r.2)
    | '{' :: rest =>
      match skip rest with
      | '}' :: rest => some (.dict [], rest)
      | rest => (members fuel rest).map fun r => (.dict (toDict r.1), r.2)
    | '[' :: rest =>
      match skip rest with
      | ']' :: rest => some (.list [], rest)
      | rest => (elements fuel rest).map fun r => (.list r.1, r.2)
    | _ => atom cs

def elements : ℕ → List Char → Option (List Json × List Char)
  | 0, _ => none
  | fuel + 1, cs => do
    let (item, rest) ← value fuel cs
    match skip rest with
    | ']' :: rest => some ([item], rest)
    | ',' :: rest => do
      let (items, rest) ← elements fuel (skip rest)
      some (item :: items, rest)
    | _ => none

def members : ℕ → List Char → Option (Items × List Char)
  | 0, _ => none
  | fuel + 1, cs => do
    let (name, rest) ← key cs
    let rest ← afterColon rest
    let (item, rest) ← value fuel rest
    match skip rest with
    | '}' :: rest => some ([(name, item)], rest)
    | ',' :: rest => do
      let (items, rest) ← members fuel (skip rest)
      some ((name, item) :: items, rest)
    | _ => none

end

/-- A byte order mark is refused. -/
def loads (text : String) : Option Json := do
  let cs := text.toList
  let (item, rest) ← value (2 * cs.length + 2) (skip cs)
  if cs.head? = some '\uFEFF' ∨ skip rest ≠ [] then none else some item

/-! ## Strings -/

theorem hexValue_hexDigit {n : ℕ} (h : n < 16) : hexValue (hexDigit n) = some n := by
  revert n
  decide

theorem stringBody_escape (c : Char) (rest : List Char) :
    stringBody (escape c ++ rest) = withChar c (stringBody rest) := by
  unfold escape
  by_cases hquote : c = '"'
  · subst hquote
    simp [stringBody, unescape]
  by_cases hbackslash : c = '\\'
  · subst hbackslash
    simp [stringBody, unescape]
  by_cases hnewline : c = '\n'
  · subst hnewline
    simp [stringBody, unescape]
  by_cases hreturn : c = '\r'
  · subst hreturn
    simp [stringBody, unescape]
  by_cases htab : c = '\t'
  · subst htab
    simp [stringBody, unescape]
  by_cases hbell : c = '\x08'
  · subst hbell
    simp [stringBody, unescape]
  by_cases hfeed : c = '\x0c'
  · subst hfeed
    simp [stringBody, unescape]
  by_cases hcontrol : c.toNat < 32
  · have hunit : codeUnit '0' '0' (hexDigit (c.toNat / 16)) (hexDigit (c.toNat % 16)) =
        some c.toNat := by
      have hzero : hexValue '0' = some 0 := by decide
      have hhigh := hexValue_hexDigit (n := c.toNat / 16) (by omega)
      have hlow := hexValue_hexDigit (n := c.toNat % 16) (by omega)
      simp only [codeUnit, hzero, hhigh, hlow, Option.bind_eq_bind, Option.bind_some,
        Option.some.injEq]
      omega
    have hplain : isHigh c.toNat = false ∧ isLow c.toNat = false := by
      simp only [isHigh, isLow, Bool.and_eq_false_iff, decide_eq_false_iff_not]
      omega
    simp [hquote, hbackslash, hnewline, hreturn, htab, hbell, hfeed, hcontrol, stringBody, hunit,
      hplain, Char.ofNat_toNat]
  · simp [hquote, hbackslash, hnewline, hreturn, htab, hbell, hfeed, hcontrol, stringBody]

theorem stringBody_escaped (cs rest : List Char) :
    stringBody (cs.flatMap escape ++ '"' :: rest) = some (cs, rest) := by
  induction cs with
  | nil => simp [stringBody]
  | cons c cs ih =>
    rw [List.flatMap_cons, List.append_assoc, stringBody_escape, ih]
    rfl

/-- A string is read as it was written. -/
theorem stringBody_quote (s : String) (rest : List Char) :
    stringBody (s.toList.flatMap escape ++ ['"'] ++ rest) = some (s.toList, rest) := by
  rw [List.append_assoc]
  exact stringBody_escaped s.toList rest

/-! ## Integers -/

/-- What follows continues no numeral. -/
def Stops (rest : List Char) : Prop :=
  ∀ c ∈ rest.head?, c.isDigit = false ∧ c ≠ '.' ∧ c ≠ 'e' ∧ c ≠ 'E'

theorem stops_nil : Stops [] := by
  intro c hc
  cases hc

theorem stops_cons {c : Char} {rest : List Char}
    (h : c.isDigit = false ∧ c ≠ '.' ∧ c ≠ 'e' ∧ c ≠ 'E') : Stops (c :: rest) := by
  intro d hd
  cases hd
  exact h

theorem span_digits {digits rest : List Char} (hdigits : ∀ c ∈ digits, c.isDigit = true)
    (hrest : Stops rest) : (digits ++ rest).span Char.isDigit = (digits, rest) := by
  rw [List.span_eq_takeWhile_dropWhile]
  induction digits with
  | nil =>
    cases rest with
    | nil => rfl
    | cons c rest =>
      have hc := (hrest c rfl).1
      simp [hc]
  | cons c digits ih =>
    have hc := hdigits c List.mem_cons_self
    have hrest := ih fun d hd => hdigits d (List.mem_cons_of_mem c hd)
    rw [Prod.mk.injEq] at hrest
    simp [hc, hrest.1, hrest.2]

/-- No numeral begins with a zero and goes on. -/
theorem toDigits_head {n : ℕ} (h : 0 < n) :
    ∃ c digits, Nat.toDigits 10 n = c :: digits ∧ c ≠ '0' := by
  induction n using Nat.strong_induction_on with
  | _ n ih =>
    by_cases hsmall : n < 10
    · refine ⟨n.digitChar, [], Nat.toDigits_of_lt_base hsmall, ?_⟩
      interval_cases n <;> decide
    · obtain ⟨c, digits, hdigits, hc⟩ := ih (n / 10) (by omega) (by omega)
      refine ⟨c, digits ++ [(n % 10).digitChar], ?_, hc⟩
      rw [Nat.toDigits_of_base_le (by decide) (by omega), hdigits]
      rfl

theorem isDigit_toDigits {n : ℕ} : ∀ c ∈ Nat.toDigits 10 n, c.isDigit = true :=
  fun _ hc => Nat.isDigit_of_mem_toDigits (by decide) (by decide) hc

theorem intDigits_toDigits (n : ℕ) {rest : List Char} (hrest : Stops rest) :
    intDigits (Nat.toDigits 10 n ++ rest) = some (Nat.toDigits 10 n, rest) := by
  by_cases hzero : n = 0
  · subst hzero
    rfl
  · obtain ⟨c, digits, hdigits, hc⟩ := toDigits_head (Nat.pos_of_ne_zero hzero)
    have hall := isDigit_toDigits (n := n)
    rw [hdigits] at hall ⊢
    have hdigit := hall c List.mem_cons_self
    have hspan := span_digits hall hrest
    simp only [List.cons_append] at hspan ⊢
    unfold intDigits
    split
    · next heq => exact absurd (List.cons.inj heq).1 hc
    · next heq =>
      obtain ⟨rfl, rfl⟩ := List.cons.inj heq
      rw [if_pos hdigit, hspan]
    · next heq => cases heq

theorem fraction_stops {rest : List Char} (hrest : Stops rest) : fraction rest = ([], rest) := by
  cases rest with
  | nil => rfl
  | cons c rest =>
    have hc := hrest c rfl
    simp [fraction, hc.2.1]

theorem exponent_stops {rest : List Char} (hrest : Stops rest) : exponent rest = ([], rest) := by
  cases rest with
  | nil => rfl
  | cons c rest =>
    have hc := hrest c rfl
    simp [exponent, hc.2.2]

theorem minus_toDigits (n : ℕ) (rest : List Char) :
    minus (Nat.toDigits 10 n ++ rest) = ([], Nat.toDigits 10 n ++ rest) := by
  have hall := isDigit_toDigits (n := n)
  cases hdigits : Nat.toDigits 10 n with
  | nil => exact absurd hdigits Nat.toDigits_ne_nil
  | cons c digits =>
    rw [hdigits] at hall
    have hc := hall c List.mem_cons_self
    simp only [List.cons_append]
    unfold minus
    split
    · next heq =>
      obtain ⟨rfl, -⟩ := List.cons.inj heq
      cases hc
    · rfl

/-- An integer is read as it was written. -/
theorem number_intText (i : ℤ) {rest : List Char} (hrest : Stops rest) :
    number (intText i ++ rest) = some (.int i, rest) := by
  have hvalue : ∀ n, Nat.ofDigitChars 10 (Nat.toDigits 10 n) 0 = n :=
    fun n => Nat.ofDigitChars_toDigits (by decide) (by decide)
  cases i with
  | ofNat n =>
    simp only [number, intText, minus_toDigits, Option.bind_eq_bind, intDigits_toDigits n hrest,
      Option.bind_some, fraction_stops hrest, exponent_stops hrest]
    simp [intValue, hvalue]
  | negSucc n =>
    simp only [number, intText, List.cons_append, minus, Option.bind_eq_bind,
      intDigits_toDigits (n + 1) hrest, Option.bind_some, fraction_stops hrest,
      exponent_stops hrest]
    simp [intValue, hvalue]
    omega

/-! ## Round trip -/

mutual

/-- Values that are written in one way only: without floats, and the keys of objects in order. -/
def Canonical : Json → Prop
  | .float _ => False
  | .list items => CanonicalEach items
  | .dict items => CanonicalItems items ∧ items.Pairwise fun x y => x.1 < y.1
  | _ => True

def CanonicalEach : List Json → Prop
  | [] => True
  | item :: items => Canonical item ∧ CanonicalEach items

def CanonicalItems : Items → Prop
  | [] => True
  | (_, item) :: items => Canonical item ∧ CanonicalItems items

end

section RoundTrip

variable {f : String → List Char} {fuel : ℕ} {rest : List Char}

theorem skip_cons {c : Char} {cs : List Char} (h : isBlank c = false) :
    skip (c :: cs) = c :: cs := by
  simp [skip, h]

theorem dumpsItems_map (items : Items) : dumpsItems f items =
    items.map fun m => (m.1, dumps f m.2) := by
  induction items with
  | nil => rfl
  | cons m items ih =>
    obtain ⟨key, item⟩ := m
    rw [dumpsItems, ih]
    rfl

/-- Keys in order are written in that order. -/
theorem dumps_sorted {items : Items} (h : items.Pairwise fun x y => x.1 < y.1) :
    dumps f (.dict items) =
      '{' :: (commas ((dumpsItems f items).map memberText) ++ ['}']) := by
  have hsorted : (dumpsItems f items).Pairwise
      fun x y => (decide (x.1 ≤ y.1)) = true := by
    rw [dumpsItems_map, List.pairwise_map]
    apply h.imp
    intro x y hlt
    exact decide_eq_true (le_of_lt hlt)
  rw [dumps, List.mergeSort_of_pairwise hsorted]

theorem setItem_new {items : Items} {key : String} {item : Json}
    (h : key ∉ items.map Prod.fst) : setItem items key item = items ++ [(key, item)] :=
  if_neg h

theorem toDict_onto (done : Items) {items : Items} (h : ((done ++ items).map Prod.fst).Nodup) :
    items.foldl (fun items m => setItem items m.1 m.2) done = done ++ items := by
  induction items generalizing done with
  | nil => simp
  | cons m items ih =>
    have hnew : m.1 ∉ done.map Prod.fst := by
      intro hm
      rw [List.map_append, List.nodup_append] at h
      exact h.2.2 m.1 hm m.1 (by simp) rfl
    rw [List.foldl_cons, setItem_new hnew, ih _ (by simpa using h)]
    simp

/-- Without repeated keys a mapping is the list of its items. -/
theorem toDict_sorted {items : Items} (h : items.Pairwise fun x y => x.1 < y.1) :
    toDict items = items := by
  apply toDict_onto []
  rw [List.nil_append, List.nodup_iff_pairwise_ne, List.pairwise_map]
  exact h.imp fun hlt => ne_of_lt hlt

theorem dumps_head {item : Json} (h : Canonical item) :
    ∃ c cs, dumps f item = c :: cs ∧ isBlank c = false ∧ c ≠ ']' ∧ c ≠ '\uFEFF' := by
  cases item with
  | null => exact ⟨'n', _, rfl, by decide⟩
  | bool b => cases b <;> exact ⟨_, _, rfl, by decide⟩
  | float text => cases h
  | str s => exact ⟨'"', _, rfl, by decide⟩
  | list items => exact ⟨'[', _, rfl, by decide⟩
  | dict items => exact ⟨'{', _, by rw [dumps], by decide⟩
  | int i =>
    cases i with
    | negSucc n => exact ⟨'-', _, rfl, by decide⟩
    | ofNat n =>
      have hall := isDigit_toDigits (n := n)
      cases hdigits : Nat.toDigits 10 n with
      | nil => exact absurd hdigits Nat.toDigits_ne_nil
      | cons c digits =>
        rw [hdigits] at hall
        have hc := hall c List.mem_cons_self
        refine ⟨c, digits, by rw [dumps, intText, hdigits], ?_, ?_, ?_⟩
        · cases hblank : isBlank c with
          | false => rfl
          | true =>
            simp only [isBlank, Bool.or_eq_true, beq_iff_eq] at hblank
            obtain ((rfl | rfl) | rfl) | rfl := hblank <;> cases hc
        · rintro rfl
          cases hc
        · rintro rfl
          cases hc

/-- A text that begins with a digit or a sign and a digit is a number. -/
theorem atom_number {c : Char} {cs : List Char}
    (h : c.isDigit = true ∨ c = '-' ∧ ∃ d ds, cs = d :: ds ∧ d.isDigit = true) :
    atom (c :: cs) = number (c :: cs) := by
  have hnone : literals.find? (fun l => l.1.isPrefixOf (c :: cs)) = none := by
    rw [List.find?_eq_none]
    intro l hl hprefix
    rcases h with h | ⟨rfl, d, ds, rfl, hd⟩
    · simp only [literals, List.mem_cons, List.not_mem_nil, or_false] at hl
      obtain rfl | rfl | rfl | rfl | rfl | rfl := hl <;>
        (simp [List.isPrefixOf] at hprefix; rw [← hprefix.1] at h; cases h)
    · simp only [literals, List.mem_cons, List.not_mem_nil, or_false] at hl
      obtain rfl | rfl | rfl | rfl | rfl | rfl := hl
      all_goals simp [List.isPrefixOf] at hprefix
      rw [← hprefix.1] at hd
      cases hd
  rw [atom, hnone]

theorem value_atom {c : Char} {cs : List Char} (h : c ≠ '"' ∧ c ≠ '{' ∧ c ≠ '[') :
    value (fuel + 1) (c :: cs) = atom (c :: cs) := by
  simp only [value]
  split
  · next heq => exact absurd (List.cons.inj heq).1 h.1
  · next heq => exact absurd (List.cons.inj heq).1 h.2.1
  · next heq => exact absurd (List.cons.inj heq).1 h.2.2
  · rfl

theorem value_number {c : Char} {cs : List Char}
    (h : c.isDigit = true ∨ c = '-' ∧ ∃ d ds, cs = d :: ds ∧ d.isDigit = true) :
    value (fuel + 1) (c :: cs) = number (c :: cs) := by
  rw [← atom_number h]
  apply value_atom
  rcases h with h | ⟨rfl, -⟩
  · refine ⟨?_, ?_, ?_⟩ <;> (rintro rfl; cases h)
  · decide

theorem value_intText (i : ℤ) (hrest : Stops rest) :
    value (fuel + 1) (intText i ++ rest) = some (.int i, rest) := by
  rw [← number_intText i hrest]
  cases i with
  | ofNat n =>
    have hall := isDigit_toDigits (n := n)
    cases hdigits : Nat.toDigits 10 n with
    | nil => exact absurd hdigits Nat.toDigits_ne_nil
    | cons c digits =>
      rw [hdigits] at hall
      simp only [intText, hdigits, List.cons_append]
      exact value_number (.inl (hall c List.mem_cons_self))
  | negSucc n =>
    have hall := isDigit_toDigits (n := n + 1)
    cases hdigits : Nat.toDigits 10 (n + 1) with
    | nil => exact absurd hdigits Nat.toDigits_ne_nil
    | cons c digits =>
      rw [hdigits] at hall
      simp only [intText, hdigits, List.cons_append]
      exact value_number (.inr ⟨rfl, c, _, rfl, hall c List.mem_cons_self⟩)

theorem stops_close {c : Char} (h : c = ']' ∨ c = '}' ∨ c = ',') : Stops (c :: rest) := by
  apply stops_cons
  rcases h with rfl | rfl | rfl <;> decide

theorem commas_cons {text : List Char} {texts : List (List Char)} (h : texts ≠ []) :
    commas (text :: texts) = text ++ ',' :: commas texts := by
  cases texts with
  | nil => exact absurd rfl h
  | cons next texts => rfl

/-- A text of several items begins as its first item does. -/
theorem commas_head (c : Char) (cs : List Char) (texts : List (List Char)) (after : List Char) :
    ∃ rest, commas ((c :: cs) :: texts) ++ after = c :: rest := by
  cases texts with
  | nil => exact ⟨_, rfl⟩
  | cons next texts => exact ⟨_, rfl⟩

theorem key_quote (name : String) (rest : List Char) :
    key (quote name ++ rest) = some (name, rest) := by
  simp only [quote, List.cons_append, key]
  rw [stringBody_quote]
  simp

theorem members_head (name : String) (item : Json) (items : Items) (after : List Char) :
    ∃ rest, commas ((dumpsItems f ((name, item) :: items)).map memberText) ++ after =
      '"' :: rest := by
  simp only [dumpsItems, List.map_cons, memberText, quote, List.cons_append]
  exact commas_head _ _ _ _

mutual

/-- What is written is read again. -/
theorem value_dumps : ∀ (item : Json) (fuel : ℕ) (rest : List Char), Canonical item →
    2 * (dumps f item).length ≤ fuel → Stops rest →
      value fuel (dumps f item ++ rest) = some (item, rest)
  | .null, fuel, rest, _, hfuel, _ => by
    obtain ⟨fuel, rfl⟩ := Nat.exists_eq_succ_of_ne_zero (n := fuel) (by
      simp [dumps] at hfuel
      omega)
    simp [dumps, value, atom, literals, List.isPrefixOf]
  | .bool true, fuel, rest, _, hfuel, _ => by
    obtain ⟨fuel, rfl⟩ := Nat.exists_eq_succ_of_ne_zero (n := fuel) (by
      simp [dumps] at hfuel
      omega)
    simp [dumps, value, atom, literals, List.isPrefixOf]
  | .bool false, fuel, rest, _, hfuel, _ => by
    obtain ⟨fuel, rfl⟩ := Nat.exists_eq_succ_of_ne_zero (n := fuel) (by
      simp [dumps] at hfuel
      omega)
    simp [dumps, value, atom, literals, List.isPrefixOf]
  | .float _, _, _, h, _, _ => h.elim
  | .int i, fuel, rest, h, hfuel, hrest => by
    obtain ⟨c, cs, htext, -⟩ := dumps_head (f := f) h
    rw [htext] at hfuel
    obtain ⟨fuel, rfl⟩ := Nat.exists_eq_succ_of_ne_zero (n := fuel) (by simp at hfuel; omega)
    rw [dumps]
    exact value_intText i hrest
  | .str s, fuel, rest, _, hfuel, _ => by
    obtain ⟨fuel, rfl⟩ := Nat.exists_eq_succ_of_ne_zero (n := fuel) (by
      simp [dumps, quote] at hfuel
      omega)
    simp only [dumps, quote, List.cons_append, value]
    rw [stringBody_quote]
    simp
  | .list [], fuel, rest, _, hfuel, _ => by
    obtain ⟨fuel, rfl⟩ := Nat.exists_eq_succ_of_ne_zero (n := fuel) (by
      simp [dumps] at hfuel
      omega)
    simp [dumps, dumpsEach, commas, value, skip, isBlank]
  | .list (item :: items), fuel, rest, h, hfuel, _ => by
    simp only [dumps, List.length_cons, List.length_append, List.length_nil] at hfuel
    obtain ⟨fuel, rfl⟩ := Nat.exists_eq_succ_of_ne_zero (n := fuel) (by omega)
    have hitems := elements_dumps (item :: items) fuel rest (List.cons_ne_nil _ _) h (by omega)
    obtain ⟨c, cs, htext, hblank, hclose, -⟩ := dumps_head (f := f) h.1
    obtain ⟨after, hafter⟩ := commas_head c cs (dumpsEach f items)
      (']' :: rest)
    rw [dumpsEach, htext, hafter] at hitems
    simp only [dumps, dumpsEach, htext, List.cons_append, List.append_assoc, List.nil_append,
      hafter, value, skip_cons hblank]
    split
    · next heq => exact absurd (List.cons.inj heq).1 hclose
    · rw [hitems]
      rfl
  | .dict [], fuel, rest, _, hfuel, _ => by
    obtain ⟨fuel, rfl⟩ := Nat.exists_eq_succ_of_ne_zero (n := fuel) (by
      simp [dumps] at hfuel
      omega)
    simp [dumps, dumpsItems, commas, value, skip, isBlank]
  | .dict ((name, item) :: items), fuel, rest, h, hfuel, _ => by
    rw [dumps_sorted h.2] at hfuel ⊢
    simp only [List.length_cons, List.length_append, List.length_nil] at hfuel
    obtain ⟨fuel, rfl⟩ := Nat.exists_eq_succ_of_ne_zero (n := fuel) (by omega)
    have hitems := members_dumps ((name, item) :: items) fuel rest (List.cons_ne_nil _ _) h.1
      (by omega)
    obtain ⟨after, hafter⟩ := members_head (f := f) name item items ('}' :: rest)
    rw [hafter] at hitems
    have hblank : isBlank '"' = false := by decide
    simp only [List.cons_append, List.append_assoc, List.nil_append, hafter, value,
      skip_cons hblank]
    change Option.map _ (members fuel ('"' :: after)) = _
    rw [hitems, Option.map_some, toDict_sorted h.2]

theorem elements_dumps : ∀ (items : List Json) (fuel : ℕ) (rest : List Char), items ≠ [] →
    CanonicalEach items → 2 * (commas (dumpsEach f items)).length + 1 ≤ fuel →
      elements fuel (commas (dumpsEach f items) ++ ']' :: rest) = some (items, rest)
  | [], _, _, hne, _, _ => absurd rfl hne
  | [item], fuel, rest, _, h, hfuel => by
    simp only [dumpsEach, commas] at hfuel ⊢
    obtain ⟨fuel, rfl⟩ := Nat.exists_eq_succ_of_ne_zero (n := fuel) (by omega)
    have hitem := value_dumps item fuel (']' :: rest) h.1 (by omega) (stops_close (by simp))
    have hblank : isBlank ']' = false := by decide
    simp [elements, hitem, skip_cons hblank]
  | item :: next :: items, fuel, rest, _, h, hfuel => by
    rw [dumpsEach, commas_cons (by simp [dumpsEach])] at hfuel ⊢
    simp only [List.length_append, List.length_cons] at hfuel
    obtain ⟨fuel, rfl⟩ := Nat.exists_eq_succ_of_ne_zero (n := fuel) (by omega)
    have hitem := value_dumps item fuel
      (',' :: (commas (dumpsEach f (next :: items)) ++ ']' :: rest)) h.1 (by omega)
      (stops_close (by simp))
    have hitems := elements_dumps (next :: items) fuel rest (List.cons_ne_nil _ _) h.2 (by omega)
    obtain ⟨c, cs, htext, hskip, -⟩ := dumps_head (f := f) h.2.1
    obtain ⟨after, hafter⟩ := commas_head c cs (dumpsEach f items)
      (']' :: rest)
    have hblank : isBlank ',' = false := by decide
    rw [dumpsEach, htext, hafter] at hitem hitems
    simp [dumpsEach, htext, hafter, elements, hitem, hitems, skip_cons hblank, skip_cons hskip]

theorem members_dumps : ∀ (items : Items) (fuel : ℕ) (rest : List Char), items ≠ [] →
    CanonicalItems items →
    2 * (commas ((dumpsItems f items).map memberText)).length + 1 ≤ fuel →
      members fuel (commas ((dumpsItems f items).map memberText) ++ '}' :: rest) =
        some (items, rest)
  | [], _, _, hne, _, _ => absurd rfl hne
  | [(name, item)], fuel, rest, _, h, hfuel => by
    simp only [dumpsItems, List.map_cons, List.map_nil, commas, memberText, List.length_append,
      List.length_cons] at hfuel ⊢
    obtain ⟨fuel, rfl⟩ := Nat.exists_eq_succ_of_ne_zero (n := fuel) (by omega)
    have hitem := value_dumps item fuel ('}' :: rest) h.1 (by omega) (stops_close (by simp))
    obtain ⟨c, cs, htext, hskip, -⟩ := dumps_head (f := f) h.1
    rw [htext] at hitem
    have hblank : isBlank '}' = false := by decide
    have hcolon : isBlank ':' = false := by decide
    simp only [List.cons_append] at hitem
    simp [members, key_quote, afterColon, htext, hitem, skip_cons hblank, skip_cons hcolon,
      skip_cons hskip]
  | (name, item) :: (other, second) :: items, fuel, rest, _, h, hfuel => by
    rw [dumpsItems, List.map_cons, commas_cons (by simp [dumpsItems])] at hfuel ⊢
    simp only [List.length_append, List.length_cons, memberText] at hfuel
    obtain ⟨fuel, rfl⟩ := Nat.exists_eq_succ_of_ne_zero (n := fuel) (by omega)
    have hitems := members_dumps ((other, second) :: items) fuel rest (List.cons_ne_nil _ _) h.2
      (by omega)
    obtain ⟨after, hafter⟩ := members_head (f := f) other second items
      ('}' :: rest)
    have hitem := value_dumps item fuel (',' :: '"' :: after) h.1 (by omega)
      (stops_close (by simp))
    obtain ⟨c, cs, htext, hskip, -⟩ := dumps_head (f := f) h.1
    rw [htext, List.cons_append] at hitem
    rw [hafter] at hitems
    have hblank : isBlank ',' = false := by decide
    have hcolon : isBlank ':' = false := by decide
    have hquote : isBlank '"' = false := by decide
    simp [memberText, members, key_quote, afterColon, htext, hafter, hitem, hitems,
      skip_cons hblank, skip_cons hcolon, skip_cons hskip, skip_cons hquote]

end

/-- A canonical value is read back from its text. -/
theorem loads_dumps {item : Json} {tail : List Char} (h : Canonical item)
    (htail : ∀ c ∈ tail, isBlank c = true) :
    loads (String.ofList (dumps f item ++ tail)) = some item := by
  have hstops : Stops tail := by
    intro c hc
    have hblank := htail c (List.mem_of_mem_head? hc)
    simp only [isBlank, Bool.or_eq_true, beq_iff_eq] at hblank
    obtain ((rfl | rfl) | rfl) | rfl := hblank <;> decide
  have hskip : skip tail = [] := List.dropWhile_eq_nil_iff.mpr htail
  obtain ⟨c, cs, htext, hblank, -, hmark⟩ := dumps_head (f := f) h
  have hvalue := value_dumps (f := f) item
    (2 * (dumps f item ++ tail).length + 2) tail h (by simp; omega) hstops
  rw [htext, List.cons_append] at hvalue ⊢
  simp only [loads, String.toList_ofList, skip_cons hblank, hvalue, Option.bind_eq_bind,
    Option.bind_some, List.head?_cons, Option.some.injEq, hmark, hskip]
  simp

end RoundTrip

end JsonText
