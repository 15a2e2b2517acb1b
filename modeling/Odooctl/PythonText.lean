import Mathlib.Algebra.Order.Ring.Nat
import Mathlib.Data.Int.Notation
import Mathlib.Data.List.Basic

/-! # Python strings as the source uses them -/
namespace PythonText

/-- `s.encode("utf-8")[:limit].decode("utf-8", errors="ignore")`: the longest prefix of
whole characters that fits. -/
def truncateUtf8 : List Char → ℕ → List Char
  | [], _ => []
  | c :: cs, limit =>
    if c.utf8Size ≤ limit then c :: truncateUtf8 cs (limit - c.utf8Size) else []

def utf8Length (cs : List Char) : ℕ := (cs.map Char.utf8Size).sum

theorem truncateUtf8_isPrefix (cs : List Char) (limit : ℕ) :
    (truncateUtf8 cs limit).IsPrefix cs := by
  induction cs generalizing limit with
  | nil => simp [truncateUtf8]
  | cons c cs ih =>
    unfold truncateUtf8
    split
    · exact (List.prefix_cons_inj c).mpr (ih _)
    · exact List.nil_prefix

theorem utf8Length_truncateUtf8 (cs : List Char) (limit : ℕ) :
    utf8Length (truncateUtf8 cs limit) ≤ limit := by
  induction cs generalizing limit with
  | nil => simp [truncateUtf8, utf8Length]
  | cons c cs ih =>
    unfold truncateUtf8
    split
    · have := ih (limit - c.utf8Size)
      simp only [utf8Length, List.map_cons, List.sum_cons] at this ⊢
      omega
    · simp [utf8Length]

theorem truncateUtf8_of_le {cs : List Char} {limit : ℕ} (h : utf8Length cs ≤ limit) :
    truncateUtf8 cs limit = cs := by
  induction cs generalizing limit with
  | nil => rfl
  | cons c cs ih =>
    simp only [utf8Length, List.map_cons, List.sum_cons] at h ih
    have hc : c.utf8Size ≤ limit := by omega
    rw [truncateUtf8, if_pos hc, ih (by omega)]

theorem length_le_utf8Length (cs : List Char) : cs.length ≤ utf8Length cs := by
  induction cs with
  | nil => simp [utf8Length]
  | cons c cs ih =>
    have hc : 1 ≤ c.utf8Size := Char.utf8Size_pos c
    simp only [utf8Length, List.map_cons, List.sum_cons, List.length_cons] at ih ⊢
    omega

theorem utf8Length_append (cs ds : List Char) :
    utf8Length (cs ++ ds) = utf8Length cs + utf8Length ds := by
  simp [utf8Length]

/-- Where every character takes one byte, characters are cut like bytes. -/
theorem truncateUtf8_of_ascii {cs : List Char} (h : ∀ c ∈ cs, c.utf8Size = 1) (limit : ℕ) :
    truncateUtf8 cs limit = cs.take limit := by
  induction cs generalizing limit with
  | nil => simp [truncateUtf8]
  | cons c cs ih =>
    have hc : c.utf8Size = 1 := h c List.mem_cons_self
    have hcs := ih (fun d hd => h d (List.mem_cons_of_mem c hd))
    cases limit with
    | zero => simp [truncateUtf8, hc]
    | succ n => simp [truncateUtf8, hc, hcs]

theorem utf8Size_of_isAlphanum {c : Char} (h : c.isAlphanum = true) : c.utf8Size = 1 := by
  delta Char.isAlphanum Char.isAlpha Char.isUpper Char.isLower Char.isDigit at h
  simp only [Bool.or_eq_true, Bool.and_eq_true, decide_eq_true_eq, UInt32.le_iff_toNat_le,
    ge_iff_le] at h
  have hc : c.val.toNat ≤ 127 := by
    have : 'Z'.val.toNat = 90 := rfl
    have : 'z'.val.toNat = 122 := rfl
    have : '9'.val.toNat = 57 := rfl
    omega
  have hle : c.val ≤ 0x7F := UInt32.le_iff_toNat_le.mpr hc
  simp [Char.utf8Size, hle]

def hexDigit (n : Fin 16) : Char :=
  if n.val < 10 then Char.ofNat (48 + n.val) else Char.ofNat (87 + n.val)

def zeroDigit : Fin 16 := 0

theorem utf8Size_hexDigit (n : Fin 16) : (hexDigit n).utf8Size = 1 := by
  revert n
  decide

theorem utf8Length_hexDigits (ns : List (Fin 16)) :
    utf8Length (ns.map hexDigit) = ns.length := by
  induction ns with
  | nil => rfl
  | cons n ns ih =>
    simp only [utf8Length, List.map_cons, List.sum_cons, utf8Size_hexDigit,
      List.length_cons] at ih ⊢
    omega

def escaped (quote c : Char) : List Char :=
  if c = quote ∨ c = '\\' then ['\\', c]
  else if c = '\n' then ['\\', 'n']
  else if c = '\r' then ['\\', 'r']
  else if c = '\t' then ['\\', 't']
  else if c.toNat < 32 ∨ c.toNat = 127 then
    ['\\', 'x', hexDigit (Fin.ofNat 16 (c.toNat / 16)), hexDigit (Fin.ofNat 16 c.toNat)]
  else [c]

/-- Python's `repr` of a string: double quotes only around a text with single ones and no double. -/
def quoted (s : String) : String :=
  let cs := s.toList
  let quote := if cs.contains '\'' ∧ ¬ cs.contains '"' then '"' else '\''
  String.ofList (quote :: cs.flatMap (escaped quote) ++ [quote])

/-- `sub in text`. -/
def containsText (text sub : String) : Bool := text.toList.tails.any sub.toList.isPrefixOf

end PythonText
