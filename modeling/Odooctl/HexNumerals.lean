import Mathlib.Data.List.Induction
import Mathlib.Data.Nat.Notation
import Mathlib.Tactic.Ring

/-!
# Hexadecimal numerals of a fixed width

Upper-case digits, most significant first. `padded w` and `value` are inverse to each
other between the numbers below `16 ^ w` and the numerals of width `w`.
-/
namespace HexNumerals

def isHexDigit (c : Char) : Bool := ('0' ≤ c && c ≤ '9') || ('A' ≤ c && c ≤ 'F')

def digitChar (n : ℕ) : Char := if n < 10 then Char.ofNat (48 + n) else Char.ofNat (55 + n)

def digitValue (c : Char) : ℕ := if c.toNat < 65 then c.toNat - 48 else c.toNat - 55

/-- `int(s, 16)`. -/
def value (cs : List Char) : ℕ := cs.foldl (fun n c => 16 * n + digitValue c) 0

/-- The last `w` digits of `n`. -/
def padded : ℕ → ℕ → List Char
  | 0, _ => []
  | w + 1, n => padded w (n / 16) ++ [digitChar (n % 16)]

theorem digitValue_digitChar {n : ℕ} (h : n < 16) : digitValue (digitChar n) = n := by
  revert n
  decide

theorem isHexDigit_digitChar {n : ℕ} (h : n < 16) : isHexDigit (digitChar n) = true := by
  revert n
  decide

theorem toNat_of_isHexDigit {c : Char} (h : isHexDigit c = true) :
    48 ≤ c.toNat ∧ c.toNat ≤ 57 ∨ 65 ≤ c.toNat ∧ c.toNat ≤ 70 := by
  simp only [isHexDigit, Bool.or_eq_true, Bool.and_eq_true, decide_eq_true_eq, Char.le_def,
    UInt32.le_iff_toNat_le] at h
  exact h

theorem digitValue_lt {c : Char} (h : isHexDigit c = true) : digitValue c < 16 := by
  have hc := toNat_of_isHexDigit h
  unfold digitValue
  split <;> omega

theorem digitChar_digitValue {c : Char} (h : isHexDigit c = true) :
    digitChar (digitValue c) = c := by
  have hc := toNat_of_isHexDigit h
  have hchar : Char.ofNat c.toNat = c := Char.ofNat_toNat c
  unfold digitChar digitValue
  split
  · next hlow =>
    have hn : c.toNat - 48 < 10 := by omega
    rw [if_pos hn, show 48 + (c.toNat - 48) = c.toNat by omega, hchar]
  · next hhigh =>
    have hn : ¬ c.toNat - 55 < 10 := by omega
    rw [if_neg hn, show 55 + (c.toNat - 55) = c.toNat by omega, hchar]

theorem value_append_singleton (cs : List Char) (c : Char) :
    value (cs ++ [c]) = 16 * value cs + digitValue c := by
  simp [value]

theorem value_append (cs ds : List Char) :
    value (cs ++ ds) = value cs * 16 ^ ds.length + value ds := by
  induction ds using List.reverseRecOn with
  | nil => simp [value]
  | append_singleton ds c ih =>
    rw [← List.append_assoc, value_append_singleton, value_append_singleton, ih,
      List.length_append, List.length_singleton]
    ring

@[simp] theorem length_padded (w n : ℕ) : (padded w n).length = w := by
  induction w generalizing n with
  | zero => rfl
  | succ w ih => rw [padded, List.length_append, ih, List.length_singleton]

theorem all_padded (w n : ℕ) : (padded w n).all isHexDigit = true := by
  induction w generalizing n with
  | zero => rfl
  | succ w ih =>
    have hn : n % 16 < 16 := Nat.mod_lt _ (by decide)
    simp [padded, List.all_append, ih, isHexDigit_digitChar hn]

theorem value_padded (w n : ℕ) : value (padded w n) = n % 16 ^ w := by
  induction w generalizing n with
  | zero => simp [padded, value, Nat.mod_one]
  | succ w ih =>
    have hn : n % 16 < 16 := Nat.mod_lt _ (by decide)
    rw [padded, value_append_singleton, ih, digitValue_digitChar hn, Nat.pow_succ, Nat.mul_comm _ 16,
      Nat.mod_mul]
    omega

theorem value_padded_of_lt {w n : ℕ} (h : n < 16 ^ w) : value (padded w n) = n := by
  rw [value_padded, Nat.mod_eq_of_lt h]

theorem value_lt {cs : List Char} (h : cs.all isHexDigit = true) : value cs < 16 ^ cs.length := by
  induction cs using List.reverseRecOn with
  | nil => simp [value]
  | append_singleton cs c ih =>
    simp only [List.all_append, List.all_cons, List.all_nil, Bool.and_true, Bool.and_eq_true] at h
    have hcs := ih h.1
    have hc := digitValue_lt h.2
    rw [value_append_singleton, List.length_append, List.length_singleton, Nat.pow_succ]
    omega

theorem padded_value {cs : List Char} (h : cs.all isHexDigit = true) :
    padded cs.length (value cs) = cs := by
  induction cs using List.reverseRecOn with
  | nil => rfl
  | append_singleton cs c ih =>
    simp only [List.all_append, List.all_cons, List.all_nil, Bool.and_true, Bool.and_eq_true] at h
    have hc := digitValue_lt h.2
    have hdiv : (16 * value cs + digitValue c) / 16 = value cs := by omega
    have hmod : (16 * value cs + digitValue c) % 16 = digitValue c := by omega
    rw [value_append_singleton, List.length_append, List.length_singleton, padded, hdiv, hmod,
      ih h.1, digitChar_digitValue h.2]

theorem digitValue_lt_iff {c d : Char} (hc : isHexDigit c = true) (hd : isHexDigit d = true) :
    digitValue c < digitValue d ↔ c < d := by
  have hc' := toNat_of_isHexDigit hc
  have hd' := toNat_of_isHexDigit hd
  have hlt : c < d ↔ c.toNat < d.toNat := by
    rw [Char.lt_def, UInt32.lt_iff_toNat_lt]
    rfl
  rw [hlt, digitValue, digitValue]
  split <;> split <;> omega

/-- Numerals of one width are ordered like their values. -/
theorem value_lt_iff {cs ds : List Char} (hc : ∀ c ∈ cs, isHexDigit c = true)
    (hd : ∀ d ∈ ds, isHexDigit d = true) (hlen : cs.length = ds.length) :
    value cs < value ds ↔ cs < ds := by
  induction cs generalizing ds with
  | nil =>
    obtain rfl : ds = [] := List.length_eq_zero_iff.mp hlen.symm
    simp
  | cons c cs ih =>
    cases ds with
    | nil => cases hlen
    | cons d ds =>
      have hlength : cs.length = ds.length := Nat.succ.inj hlen
      have htail := ih (fun e he => hc e (List.mem_cons_of_mem c he))
        (fun e he => hd e (List.mem_cons_of_mem d he)) hlength
      have hcs : value cs < 16 ^ ds.length := by
        rw [← hlength]
        exact value_lt (List.all_eq_true.mpr fun e he => hc e (List.mem_cons_of_mem c he))
      have hds : value ds < 16 ^ ds.length :=
        value_lt (List.all_eq_true.mpr fun e he => hd e (List.mem_cons_of_mem d he))
      have hfirst := digitValue_lt_iff (hc c List.mem_cons_self) (hd d List.mem_cons_self)
      have hsame : digitValue c = digitValue d → c = d := by
        intro heq
        rw [← digitChar_digitValue (hc c List.mem_cons_self), heq,
          digitChar_digitValue (hd d List.mem_cons_self)]
      have hhead : ∀ (e : Char) (es : List Char),
          value (e :: es) = digitValue e * 16 ^ es.length + value es := by
        intro e es
        have happend := value_append [e] es
        simpa [value] using happend
      rw [List.cons_lt_cons_iff, ← htail, ← hfirst, hhead, hhead, hlength]
      generalize 16 ^ ds.length = width at hcs hds
      constructor
      · intro h
        rcases Nat.lt_trichotomy (digitValue c) (digitValue d) with hlt | heq | hgt
        · exact Or.inl hlt
        · rw [heq] at h
          exact Or.inr ⟨hsame heq, by omega⟩
        · have hwidth := Nat.mul_le_mul_right width hgt
          rw [Nat.succ_mul] at hwidth
          omega
      · rintro (hlt | ⟨rfl, hlt⟩)
        · have hwidth := Nat.mul_le_mul_right width hlt
          rw [Nat.succ_mul] at hwidth
          omega
        · omega

end HexNumerals
