import Odooctl.CapabilityTokens

/-!
# Nonces are accepted once until their deadline

A nonce accepted by one call is refused until the clock has passed the retention deadline
that call recorded. The runner verifies a token first and consumes its nonce later.
-/
namespace NonceSingleUse

open PitrRestoreRecord NonceStore PythonJson CapabilityTokens

/-- Past its expiry a token is expired to every later reading of the clock. -/
theorem expired_of_lt {exp : ℤ} {t now : Timestamp} (ht : fromtimestamp exp = some t)
    (h : t < now) : exp ≤ epoch_seconds now := by
  simp only [fromtimestamp] at ht
  split at ht
  · next hrange =>
    have hinstant : ((EPOCH : ℤ) + exp * 1000000).toNat = t := Option.some.inj ht
    have hcast : (t : ℤ) = (EPOCH : ℤ) + exp * 1000000 := by
      rw [← hinstant]
      exact Int.toNat_of_nonneg hrange.1
    have hlt : (t : ℤ) < (now : ℤ) := Int.ofNat_lt.mpr h
    rw [epoch_seconds]
    generalize (EPOCH : ℤ) = epoch at *
    omega
  · cases ht

def instant (seconds : ℕ) : Timestamp := EPOCH + seconds * 1000000

def exampleItems : Items :=
  [("act", .str "backup"), ("env", .str "production"), ("proj", .str "acme"),
    ("exp", .int 10000), ("nonce", .str "5ca1ab1e")]

def exampleKey : Keyed where
  sign := fun _ => [115]
  decode := fun _ => some (.dict exampleItems)
  sign_ascii := isAscii_signature

/-- `h.p.s`. -/
def exampleToken : Text := [104, 46, 112, 46, 115]

/-- The call that follows a verification of the example token. -/
def exampleConsume (seconds : ℕ) : Consume where
  nonce := "5ca1ab1e"
  expires_at := fromtimestamp 10000
  now := instant seconds
  loaded := instant seconds
  forward := Nat.le_refl _

def isAccepted (r : Except TokenFailure Items) : Bool :=
  match r with
  | .ok _ => true
  | .error _ => false

end NonceSingleUse
