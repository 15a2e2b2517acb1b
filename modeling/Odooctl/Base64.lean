import Mathlib.Data.Nat.Notation
import Mathlib.Logic.Basic

/-!
# Base64

The standard alphabet with padding. The reader is a tolerant one: it skips what is not in the
alphabet and stops where the padding of a quantum is complete.
-/
namespace Base64

def digitChar (n : ℕ) : Char :=
  if n < 26 then Char.ofNat (65 + n)
  else if n < 52 then Char.ofNat (71 + n)
  else if n < 62 then Char.ofNat (n - 4)
  else if n = 62 then '+'
  else '/'

def digitValue (c : Char) : Option ℕ :=
  let n := c.toNat
  if 65 ≤ n ∧ n ≤ 90 then some (n - 65)
  else if 97 ≤ n ∧ n ≤ 122 then some (n - 71)
  else if 48 ≤ n ∧ n ≤ 57 then some (n + 4)
  else if n = 43 then some 62
  else if n = 47 then some 63
  else none

def encode : List UInt8 → List Char
  | [] => []
  | [a] => [digitChar (a.toNat / 4), digitChar (a.toNat % 4 * 16), '=', '=']
  | [a, b] =>
    [digitChar (a.toNat / 4), digitChar (a.toNat % 4 * 16 + b.toNat / 16),
      digitChar (b.toNat % 16 * 4), '=']
  | a :: b :: c :: rest =>
    digitChar (a.toNat / 4) :: digitChar (a.toNat % 4 * 16 + b.toNat / 16) ::
      digitChar (b.toNat % 16 * 4 + c.toNat / 64) :: digitChar (c.toNat % 64) :: encode rest

/-- The bytes of what remains of a text. `position` counts the digits of the quantum so far,
`left` are the bits of them that are not in a byte yet. -/
def decodeFrom (position left pads : ℕ) : List Char → Option (List UInt8)
  | [] => if position = 0 then some [] else none
  | c :: cs =>
    if c = '=' then
      if position < 2 then decodeFrom position left pads cs
      else if 4 ≤ position + (pads + 1) then some []
      else decodeFrom position left (pads + 1) cs
    else
      match digitValue c with
      | none => decodeFrom position left pads cs
      | some v =>
        match position with
        | 0 => decodeFrom 1 v 0 cs
        | 1 => (decodeFrom 2 (v % 16) 0 cs).map (UInt8.ofNat (left * 4 + v / 16) :: ·)
        | 2 => (decodeFrom 3 (v % 4) 0 cs).map (UInt8.ofNat (left * 16 + v / 4) :: ·)
        | _ => (decodeFrom 0 0 0 cs).map (UInt8.ofNat (left * 64 + v) :: ·)

def decode (cs : List Char) : Option (List UInt8) := decodeFrom 0 0 0 cs

theorem digitValue_digitChar {n : ℕ} (h : n < 64) : digitValue (digitChar n) = some n := by
  revert n
  decide

theorem digitChar_ne_pad {n : ℕ} (h : n < 64) : digitChar n ≠ '=' := by
  intro hpad
  have hvalue := digitValue_digitChar h
  rw [hpad] at hvalue
  cases hvalue

section Digits

variable {n left pads : ℕ} (h : n < 64) (cs : List Char)
include h

theorem decodeFrom_first : decodeFrom 0 left pads (digitChar n :: cs) = decodeFrom 1 n 0 cs := by
  rw [decodeFrom, if_neg (digitChar_ne_pad h), digitValue_digitChar h]
  rfl

theorem decodeFrom_second : decodeFrom 1 left pads (digitChar n :: cs) =
    (decodeFrom 2 (n % 16) 0 cs).map (UInt8.ofNat (left * 4 + n / 16) :: ·) := by
  rw [decodeFrom, if_neg (digitChar_ne_pad h), digitValue_digitChar h]
  rfl

theorem decodeFrom_third : decodeFrom 2 left pads (digitChar n :: cs) =
    (decodeFrom 3 (n % 4) 0 cs).map (UInt8.ofNat (left * 16 + n / 4) :: ·) := by
  rw [decodeFrom, if_neg (digitChar_ne_pad h), digitValue_digitChar h]
  rfl

theorem decodeFrom_fourth : decodeFrom 3 left pads (digitChar n :: cs) =
    (decodeFrom 0 0 0 cs).map (UInt8.ofNat (left * 64 + n) :: ·) := by
  rw [decodeFrom, if_neg (digitChar_ne_pad h), digitValue_digitChar h]
  rfl

end Digits

theorem ofNat_eq {a : UInt8} {n : ℕ} (h : n = a.toNat) : UInt8.ofNat n = a := by
  rw [h, UInt8.ofNat_toNat]

theorem decodeFrom_encode (left pads : ℕ) (bytes : List UInt8) :
    decodeFrom 0 left pads (encode bytes) = some bytes := by
  induction bytes using encode.induct generalizing left pads with
  | case1 => rfl
  | case2 a =>
    have ha := a.toNat_lt
    rw [encode, decodeFrom_first (by omega), decodeFrom_second (by omega),
      ofNat_eq (a := a) (by omega)]
    rfl
  | case3 a b =>
    have ha := a.toNat_lt
    have hb := b.toNat_lt
    rw [encode, decodeFrom_first (by omega), decodeFrom_second (by omega),
      decodeFrom_third (by omega), ofNat_eq (a := a) (by omega), ofNat_eq (a := b) (by omega)]
    rfl
  | case4 a b c rest ih =>
    have ha := a.toNat_lt
    have hb := b.toNat_lt
    have hc := c.toNat_lt
    rw [encode, decodeFrom_first (by omega), decodeFrom_second (by omega),
      decodeFrom_third (by omega), decodeFrom_fourth (by omega), ih, ofNat_eq (a := a) (by omega),
      ofNat_eq (a := b) (by omega), ofNat_eq (a := c) (by omega)]
    rfl

theorem decode_encode (bytes : List UInt8) : decode (encode bytes) = some bytes :=
  decodeFrom_encode 0 0 bytes

end Base64
