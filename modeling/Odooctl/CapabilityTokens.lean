import Odooctl.NonceStore
import Odooctl.PythonJson

/-!
# Capability tokens

`verify` of `security/tokens.py`. A token is any sequence of code points, so it may hold
what no encoding accepts. The signature and the decoding of base64 and JSON are parameters.
-/
namespace CapabilityTokens

open PitrRestoreRecord NonceStore PythonJson

/-- Text by code points; a lone surrogate is one. -/
abbrev Text := List ℕ

def isSurrogate (c : ℕ) : Bool := 0xD800 ≤ c && c ≤ 0xDFFF

def isAscii (text : Text) : Bool := text.all fun c => c < 128

def encodable (text : Text) : Bool := text.all fun c => !isSurrogate c

/-- `text.split(".")`. -/
def splitDots (text : Text) : List Text := text.splitOn 46

inductive TokenFailure where
  | tokenInvalid (message : String)
  | tokenExpired (message : String)
  | tokenScopeError (message : String)
  | unicodeEncodeError
  | typeError (message : String)
  | attributeError (message : String)
  deriving DecidableEq, Repr

/-- The subclasses of `TokenError`. -/
def TokenFailure.isTokenError : TokenFailure → Bool
  | .tokenInvalid _ | .tokenExpired _ | .tokenScopeError _ => true
  | _ => false

/-- `_sign` with the shared key, and `json.loads` of `_b64decode`, which is `none` where
either raises. -/
structure Keyed where
  sign : Text → Text
  decode : Text → Option Json
  sign_ascii : ∀ text, isAscii (sign text) = true

theorem isAscii_signature : ∀ _ : Text, isAscii [115] = true := fun _ => rfl

def EPOCH : Timestamp := 62135596800 * 1000000

/-- `int(time.time())`; the clock reads a time after the epoch. -/
def epoch_seconds (now : Timestamp) : ℤ := ((now : ℤ) - EPOCH) / 1000000

/-- `datetime.fromtimestamp(exp, tz=timezone.utc)`; `none` where it raises. -/
def fromtimestamp (exp : ℤ) : Option Timestamp :=
  let instant : ℤ := EPOCH + exp * 1000000
  if 0 ≤ instant ∧ instant ≤ LAST_INSTANT then some instant.toNat else none

def verify (key : Keyed) (token : Text) (action environment project : String)
    (now : Timestamp) : Except TokenFailure Items :=
  match splitDots token with
  | [h, p, sig] =>
    if encodable h = false ∨ encodable p = false then .error .unicodeEncodeError
    else if isAscii sig = false then
      .error (.typeError "comparing strings with non-ASCII characters is not supported")
    else if sig ≠ key.sign (h ++ 46 :: p) then .error (.tokenInvalid "signature mismatch")
    else match key.decode p with
    | none => .error (.tokenInvalid "payload not decodable")
    | some (.dict payload) =>
      match (get payload "exp").bind Json.asInt with
      | none => .error (.tokenExpired "token has expired")
      | some exp =>
        if epoch_seconds now ≥ exp then .error (.tokenExpired "token has expired")
        else if holds payload "act" action = false then
          .error (.tokenScopeError s!"token not valid for action '{action}'")
        else if holds payload "env" environment = false then
          .error (.tokenScopeError s!"token not valid for environment '{environment}'")
        else if holds payload "proj" project = false then
          .error (.tokenScopeError s!"token not valid for project '{project}'")
        else .ok payload
    | some _ => .error (.attributeError "object has no attribute 'get'")
  | _ => .error (.tokenInvalid "token must have three segments")

/-- The payload a token carries. -/
def payload? (key : Keyed) (token : Text) : Option Items :=
  match splitDots token with
  | [_, p, _] =>
    match key.decode p with
    | some (.dict payload) => some payload
    | _ => none
  | _ => none

/-- What a verified token says. -/
structure Verified (key : Keyed) (token : Text) (action environment project : String)
    (now : Timestamp) (payload : Items) : Prop where
  carried : payload? key token = some payload
  unexpired : ∃ exp, (get payload "exp").bind Json.asInt = some exp ∧ epoch_seconds now < exp
  action : get payload "act" = some (.str action)
  environment : get payload "env" = some (.str environment)
  project : get payload "proj" = some (.str project)

variable {key : Keyed} {token : Text} {action environment project : String} {now : Timestamp}
  {payload : Items}

theorem verified_of_verify
    (h : verify key token action environment project now = .ok payload) :
    Verified key token action environment project now payload := by
  simp only [verify] at h
  split at h
  swap
  · cases h
  next hd p sig hsplit =>
  split at h
  · cases h
  split at h
  · cases h
  split at h
  · cases h
  split at h
  · cases h
  · next payload' hdecode =>
    split at h
    · cases h
    next exp hexp =>
    split at h
    · cases h
    next hnow =>
    split at h
    · cases h
    next hact =>
    split at h
    · cases h
    next henv =>
    split at h
    · cases h
    next hproj =>
    obtain rfl : payload' = payload := Except.ok.inj h
    refine ⟨by simp only [payload?, hsplit, hdecode], ⟨exp, hexp, Int.not_le.mp hnow⟩, ?_, ?_, ?_⟩
    · exact holds_iff.mp (by simpa using hact)
    · exact holds_iff.mp (by simpa using henv)
    · exact holds_iff.mp (by simpa using hproj)
  · cases h

/-- A token string on which `verify` returns or raises a `TokenError`. -/
def WellFormed (key : Keyed) (token : Text) : Prop :=
  ∀ h p sig, splitDots token = [h, p, sig] →
    encodable h = true ∧ encodable p = true ∧ isAscii sig = true ∧
      (sig = key.sign (h ++ 46 :: p) → ∀ v, key.decode p = some v → ∃ items, v = .dict items)

/-- Exactly the well-formed token strings raise nothing but a `TokenError`. -/
theorem verify_total_iff : WellFormed key token ↔
    ∀ e, verify key token action environment project now = .error e → e.isTokenError = true := by
  constructor
  · intro hw e he
    simp only [verify] at he
    split at he
    · next h p sig hsplit =>
      obtain ⟨hh, hp, hsig, hdict⟩ := hw h p sig hsplit
      rw [if_neg (by simp [hh, hp]), if_neg (by simp [hsig])] at he
      split at he
      · cases he
        rfl
      next hsigned =>
      split at he
      · cases he
        rfl
      · split at he
        · cases he
          rfl
        split at he
        · cases he
          rfl
        split at he
        · cases he
          rfl
        split at he
        · cases he
          rfl
        split at he
        · cases he
          rfl
        · cases he
      · next v hnot hdecode =>
        obtain ⟨items, rfl⟩ := hdict (not_not.mp hsigned) _ hdecode
        exact absurd rfl (hnot items)
    · cases he
      rfl
  · intro h hd p sig hsplit
    simp only [verify, hsplit] at h
    have hencodable : encodable hd = true ∧ encodable p = true := by
      by_contra hnot
      have hbad : encodable hd = false ∨ encodable p = false := by
        by_cases hh : encodable hd = true
        · exact .inr (by simpa [hh] using hnot)
        · exact .inl (by simpa using hh)
      rw [if_pos hbad] at h
      exact absurd (h _ rfl) (by decide)
    rw [if_neg (by simp [hencodable])] at h
    have hascii : isAscii sig = true := by
      by_contra hnot
      rw [if_pos (by simpa using hnot)] at h
      exact absurd (h _ rfl) (by decide)
    rw [if_neg (by simp [hascii])] at h
    refine ⟨hencodable.1, hencodable.2, hascii, ?_⟩
    intro hsigned v hv
    rw [if_neg (not_not.mpr hsigned), hv] at h
    cases v with
    | dict items => exact ⟨items, rfl⟩
    | null => exact absurd (h _ rfl) (by decide)
    | bool b => exact absurd (h _ rfl) (by decide)
    | int i => exact absurd (h _ rfl) (by decide)
    | float t => exact absurd (h _ rfl) (by decide)
    | str s => exact absurd (h _ rfl) (by decide)
    | list l => exact absurd (h _ rfl) (by decide)

end CapabilityTokens
