import Mathlib.Data.List.DropRight
import Mathlib.Tactic.IntervalCases
import Odooctl.HexNumerals

/-!
# `int(text, base)`

The numeral may stand between blanks, behind a sign, and with single underscores between
its digits; for base 16 the mark `0x` may stand before it. The decimal digits and blanks of
other scripts count as the ASCII ones.
-/
namespace PythonIntegers

open HexNumerals

/-- The zeros of the runs of decimal digits in Unicode 14. -/
def decimalZeros : List ℕ :=
  [0x30, 0x660, 0x6f0, 0x7c0, 0x966, 0x9e6, 0xa66, 0xae6, 0xb66, 0xbe6, 0xc66, 0xce6, 0xd66,
    0xde6, 0xe50, 0xed0, 0xf20, 0x1040, 0x1090, 0x17e0, 0x1810, 0x1946, 0x19d0, 0x1a80, 0x1a90,
    0x1b50, 0x1bb0, 0x1c40, 0x1c50, 0xa620, 0xa8d0, 0xa900, 0xa9d0, 0xa9f0, 0xaa50, 0xabf0,
    0xff10, 0x104a0, 0x10d30, 0x11066, 0x110f0, 0x11136, 0x111d0, 0x112f0, 0x11450, 0x114d0,
    0x11650, 0x116c0, 0x11730, 0x118e0, 0x11950, 0x11c50, 0x11d50, 0x11da0, 0x16a60, 0x16ac0,
    0x16b50, 0x1d7ce, 0x1d7d8, 0x1d7e2, 0x1d7ec, 0x1d7f6, 0x1e140, 0x1e2f0, 0x1e950, 0x1fbf0]

/-- `str.isspace` beyond ASCII. -/
def isWideSpace (c : Char) : Bool :=
  [0x85, 0xa0, 0x1680, 0x2028, 0x2029, 0x202f, 0x205f, 0x3000].contains c.toNat ||
  (0x2000 ≤ c.toNat && c.toNat ≤ 0x200a)

def isBlank (c : Char) : Bool := c == ' ' || (9 ≤ c.toNat && c.toNat ≤ 13)

/-- A character as ASCII: a blank, a digit, or itself; what is neither is no numeral. -/
def toAscii (c : Char) : Char :=
  if c.toNat < 128 then c
  else if isWideSpace c then ' '
  else match decimalZeros.find? fun first => first ≤ c.toNat && c.toNat < first + 10 with
    | some first => digitChar (c.toNat - first)
    | none => '?'

/-- What a letter or a digit counts for; 36 stands for no digit of any base. -/
def digitOf (c : Char) : ℕ :=
  if '0' ≤ c ∧ c ≤ '9' then c.toNat - 48
  else if 'a' ≤ c ∧ c ≤ 'z' then c.toNat - 87
  else if 'A' ≤ c ∧ c ≤ 'Z' then c.toNat - 55
  else 36

/-- The digits after the first one, with at most one underscore before each. -/
def moreDigits (base : ℕ) : ℕ → List Char → Option ℕ
  | n, [] => some n
  | _, ['_'] => none
  | n, '_' :: c :: cs =>
    if digitOf c < base then moreDigits base (base * n + digitOf c) cs else none
  | n, c :: cs => if digitOf c < base then moreDigits base (base * n + digitOf c) cs else none

def digits (base : ℕ) : List Char → Option ℕ
  | [] => none
  | c :: cs => if digitOf c < base then moreDigits base (digitOf c) cs else none

def isMark (c : Char) : Bool := c == 'x' || c == 'X'

/-- The numeral without its sign. -/
def magnitude (base : ℕ) (cs : List Char) : Option ℕ :=
  if base = 16 ∧ cs.head? = some '0' ∧ (cs.drop 1).head?.any isMark then
    match cs.drop 2 with
    | '_' :: rest => digits base rest
    | rest => digits base rest
  else digits base cs

/-- `str.strip` of the characters that `p` picks. -/
def trim (p : Char → Bool) (cs : List Char) : List Char := (cs.dropWhile p).rdropWhile p

/-- `int(text, base)` for base 10 or 16, without the limit on the length of a decimal
numeral; `none` is a `ValueError`. -/
def int (base : ℕ) (text : List Char) : Option ℤ :=
  match trim isBlank (text.map toAscii) with
  | '+' :: rest => (magnitude base rest).map Int.ofNat
  | '-' :: rest => (magnitude base rest).map fun n => -Int.ofNat n
  | rest => (magnitude base rest).map Int.ofNat

/-! ## Plain hexadecimal numerals -/

theorem digitOf_hex {c : Char} (h : isHexDigit c = true) :
    digitOf c = digitValue c ∧ c ≠ '_' ∧ c ≠ '+' ∧ c ≠ '-' ∧ isBlank c = false ∧
      isMark c = false ∧ toAscii c = c := by
  have hc := toNat_of_isHexDigit h
  have hchar : Char.ofNat c.toNat = c := Char.ofNat_toNat c
  have hcases : ∀ n, 48 ≤ n ∧ n ≤ 57 ∨ 65 ≤ n ∧ n ≤ 70 →
      digitOf (Char.ofNat n) = digitValue (Char.ofNat n) ∧ Char.ofNat n ≠ '_' ∧
      Char.ofNat n ≠ '+' ∧ Char.ofNat n ≠ '-' ∧ isBlank (Char.ofNat n) = false ∧
      isMark (Char.ofNat n) = false ∧ toAscii (Char.ofNat n) = Char.ofNat n := by
    intro n hn
    have hlt : n < 71 := by omega
    interval_cases n <;> first | decide | omega
  rw [← hchar]
  exact hcases _ hc

theorem moreDigits_hex {cs : List Char} (h : ∀ c ∈ cs, isHexDigit c = true) (n : ℕ) :
    moreDigits 16 n cs = some (cs.foldl (fun n c => 16 * n + digitValue c) n) := by
  induction cs generalizing n with
  | nil => rfl
  | cons c cs ih =>
    have hc := h c List.mem_cons_self
    obtain ⟨hdigit, hunderscore, -⟩ := digitOf_hex hc
    have hlt : digitOf c < 16 := hdigit ▸ digitValue_lt hc
    rw [moreDigits, if_pos hlt, hdigit, List.foldl_cons]
    · exact ih (fun d hd => h d (List.mem_cons_of_mem c hd)) _
    · exact fun heq _ => absurd heq hunderscore
    · exact fun _ _ heq _ => absurd heq hunderscore

theorem dropWhile_blank {cs : List Char} (h : ∀ c ∈ cs, isHexDigit c = true) :
    cs.dropWhile isBlank = cs := by
  cases cs with
  | nil => rfl
  | cons c cs =>
    have hblank := (digitOf_hex (h c List.mem_cons_self)).2.2.2.2.1
    simp [List.dropWhile, hblank]

/-- A run of hexadecimal digits is read as its value. -/
theorem int_hex {cs : List Char} (h : ∀ c ∈ cs, isHexDigit c = true) (hne : cs ≠ []) :
    int 16 cs = some (value cs : ℤ) := by
  have hascii : cs.map toAscii = cs := by
    have hself : ∀ c ∈ cs, toAscii c = id c := fun c hc => (digitOf_hex (h c hc)).2.2.2.2.2.2
    rw [List.map_congr_left hself, List.map_id]
  have hreverse : ∀ c ∈ cs.reverse, isHexDigit c = true :=
    fun c hc => h c (List.mem_reverse.mp hc)
  have htrim : trim isBlank cs = cs := by
    rw [trim, dropWhile_blank h, List.rdropWhile, dropWhile_blank hreverse, List.reverse_reverse]
  obtain ⟨c, rest, rfl⟩ := List.exists_cons_of_ne_nil hne
  have hc := h c List.mem_cons_self
  obtain ⟨hdigit, -, hplus, hminus, -⟩ := digitOf_hex hc
  have hrest : ∀ d ∈ rest, isHexDigit d = true := fun d hd => h d (List.mem_cons_of_mem c hd)
  have hmark : (rest.head?.any isMark) = false := by
    cases rest with
    | nil => rfl
    | cons d ds => exact (digitOf_hex (hrest d List.mem_cons_self)).2.2.2.2.2.1
  have hmagnitude : magnitude 16 (c :: rest) = some (value (c :: rest)) := by
    rw [magnitude, if_neg (by simp [hmark]), digits, if_pos (hdigit ▸ digitValue_lt hc),
      moreDigits_hex hrest, hdigit, value, List.foldl_cons, Nat.mul_zero, Nat.zero_add]
  rw [int, hascii, htrim]
  split
  · next heq => exact absurd (List.cons.inj heq).1 hplus
  · next heq => exact absurd (List.cons.inj heq).1 hminus
  · rw [hmagnitude]
    rfl

example : int 16 "\t-0x_1f ".toList = some (-31) ∧ int 10 "1__0".toList = none := by decide

end PythonIntegers
