import Mathlib.Data.UInt
import Odooctl.Base64
import Odooctl.PythonJson
import Odooctl.SecretStore

/-!
# Envelopes of the secret store

`encrypt` and `decrypt` of `security/secrets.py` on the mapping of base64 texts that the file
holds. The MAC is that of the nonce and the ciphertext written one after the other.
-/
namespace SecretEnvelopes

open PythonJson SecretStore

/-- `base64.b64decode`; all that it raises is caught. -/
def b64decode : Json → Option Bytes
  | .str s => if s.toList.all fun c => c.toNat < 128 then Base64.decode s.toList else none
  | _ => none

def b64encode (bytes : Bytes) : Json := .str (String.ofList (Base64.encode bytes))

/-- `base64.b64decode(envelope[name])`. -/
def field (envelope : Json) (name : String) : Option Bytes :=
  match envelope with
  | .dict items => (PythonJson.get items name).bind b64decode
  | _ => none

def read_envelope (envelope : Json) : Option Envelope := do
  let nonce ← field envelope "nonce"
  let ct ← field envelope "ct"
  let mac ← field envelope "mac"
  return { nonce, ct, mac }

def write_envelope (e : Envelope) : Json :=
  .dict [("nonce", b64encode e.nonce), ("ct", b64encode e.ct), ("mac", b64encode e.mac)]

variable (H : Hashes)

/-- `encrypt`, with the random nonce it draws. -/
def encrypt (key nonce : Bytes) (plaintext : String) : Json :=
  write_envelope (SecretStore.encrypt H key nonce plaintext)

def decrypt (key : Bytes) (envelope : Json) : Except SecretFailure String :=
  match read_envelope envelope with
  | none => .error (.decryption "malformed ciphertext envelope")
  | some e => SecretStore.decrypt H key e

/-! ## The file's texts -/

theorem digitChar_ascii {n : ℕ} (h : n < 64) : (Base64.digitChar n).toNat < 128 := by
  revert n
  decide

theorem encode_ascii (bytes : Bytes) : ∀ c ∈ Base64.encode bytes, c.toNat < 128 := by
  induction bytes using Base64.encode.induct with
  | case1 => exact fun c hc => absurd hc List.not_mem_nil
  | case2 a =>
    have ha := a.toNat_lt
    simp only [Base64.encode, List.forall_mem_cons]
    exact ⟨digitChar_ascii (by omega), digitChar_ascii (by omega), by decide, by decide,
      fun c hc => absurd hc List.not_mem_nil⟩
  | case3 a b =>
    have ha := a.toNat_lt
    have hb := b.toNat_lt
    simp only [Base64.encode, List.forall_mem_cons]
    exact ⟨digitChar_ascii (by omega), digitChar_ascii (by omega), digitChar_ascii (by omega),
      by decide, fun c hc => absurd hc List.not_mem_nil⟩
  | case4 a b c rest ih =>
    have ha := a.toNat_lt
    have hb := b.toNat_lt
    have hc := c.toNat_lt
    simp only [Base64.encode, List.forall_mem_cons]
    exact ⟨digitChar_ascii (by omega), digitChar_ascii (by omega), digitChar_ascii (by omega),
      digitChar_ascii (by omega), ih⟩

theorem b64decode_b64encode (bytes : Bytes) : b64decode (b64encode bytes) = some bytes := by
  have hascii : (Base64.encode bytes).all (fun c => c.toNat < 128) = true := by
    rw [List.all_eq_true]
    exact fun c hc => decide_eq_true (encode_ascii bytes c hc)
  rw [b64encode, b64decode, String.toList_ofList, if_pos hascii, Base64.decode_encode]

/-- An envelope is read as it was written. -/
theorem read_write (e : Envelope) : read_envelope (write_envelope e) = some e := by
  have hnonce : field (write_envelope e) "nonce" = some e.nonce := b64decode_b64encode e.nonce
  have hct : field (write_envelope e) "ct" = some e.ct := b64decode_b64encode e.ct
  have hmac : field (write_envelope e) "mac" = some e.mac := b64decode_b64encode e.mac
  rw [read_envelope, hnonce, hct, hmac]
  rfl

/-! ## What decryption accepts -/

/-- A call of `encrypt` with the key. -/
structure Encrypted where
  nonce : Bytes
  plaintext : String
  drawn : nonce.length = 16

def Encrypted.envelope (key : Bytes) (c : Encrypted) : Envelope :=
  SecretStore.encrypt H key c.nonce c.plaintext

/-- The envelope carries the MAC of its nonce and ciphertext. -/
def Verifies (key : Bytes) (e : Envelope) : Prop :=
  e.mac = H.hmac (derive_subkeys H key).2 (e.nonce ++ e.ct)

/-- Only `encrypt` computes MACs with the key. -/
def Unforged (key : Bytes) (made : List Encrypted) (e : Envelope) : Prop :=
  Verifies H key e → ∃ c ∈ made, (c.envelope H key).nonce ++ (c.envelope H key).ct = e.nonce ++ e.ct

/-- The module's own error, or the text that this nonce and ciphertext were made of. -/
def Authentic (key : Bytes) (made : List Encrypted) (envelope : Json) :
    Except SecretFailure String → Prop
  | .error (.decryption _) => True
  | .error _ => False
  | .ok text => ∃ c ∈ made, c.plaintext = text ∧ ∃ e, read_envelope envelope = some e ∧
      e.nonce = (c.envelope H key).nonce ∧ e.ct = (c.envelope H key).ct

section Accepted

variable {H} {key : Bytes} {made : List Encrypted} {e : Envelope}

theorem decrypt_forged (h : ¬ Verifies H key e) : SecretStore.decrypt H key e =
    .error (.decryption "authentication failed (wrong key or tampered data)") := if_pos h

/-- Past the check there is no error of the module any more. -/
theorem decrypt_verified (h : Verifies H key e) :
    (∃ text, SecretStore.decrypt H key e = .ok text) ∨
      ∃ message, SecretStore.decrypt H key e = .error (.value message) := by
  have hright : ¬ e.mac ≠ H.hmac (derive_subkeys H key).2 (e.nonce ++ e.ct) := not_not_intro h
  rw [SecretStore.decrypt, if_neg hright]
  dsimp only
  split
  · exact Or.inl ⟨_, rfl⟩
  · exact Or.inr ⟨_, rfl⟩

/-- A nonce and a ciphertext that encryption made are decrypted to what they were made of. -/
theorem decrypt_made {c : Encrypted} (hverifies : Verifies H key e)
    (hnonce : e.nonce = (c.envelope H key).nonce) (hct : e.ct = (c.envelope H key).ct) :
    SecretStore.decrypt H key e = .ok c.plaintext := by
  have hmac : e.mac = (c.envelope H key).mac := by
    rw [Verifies, hnonce, hct] at hverifies
    exact hverifies
  have heq : e = c.envelope H key := by
    calc e = ⟨e.nonce, e.ct, e.mac⟩ := rfl
      _ = c.envelope H key := by rw [hnonce, hct, hmac]
  rw [heq]
  exact decrypt_encrypt H key c.nonce c.plaintext

/-- What was encrypted is decrypted, and an envelope that no one could forge is rejected or
decrypted to what it was made of, exactly if its nonce has the length of those that
`encrypt` draws or its MAC is wrong. -/
theorem decrypt_authentic_iff (envelope : Json)
    (hmac : ∀ e, read_envelope envelope = some e → Unforged H key made e) :
    (∀ nonce plaintext, decrypt H key (encrypt H key nonce plaintext) = .ok plaintext) ∧
      (Authentic H key made envelope (decrypt H key envelope) ↔
        ∀ e, read_envelope envelope = some e → Verifies H key e → e.nonce.length = 16) := by
  constructor
  · intro nonce plaintext
    rw [decrypt, encrypt, read_write]
    exact decrypt_encrypt H key nonce plaintext
  cases hread : read_envelope envelope with
  | none =>
    rw [decrypt, hread]
    exact iff_of_true trivial fun e he => by cases he
  | some e =>
    have hunforged := hmac e hread
    rw [decrypt, hread]
    dsimp only
    constructor
    · intro h e' he' hverifies
      obtain rfl := Option.some.inj he'
      rcases decrypt_verified hverifies with ⟨text, htext⟩ | ⟨message, herror⟩
      · rw [htext] at h
        obtain ⟨c, -, -, e', he', hnonce, -⟩ := h
        obtain rfl : e = e' := Option.some.inj (hread.symm.trans he')
        rw [hnonce]
        exact c.drawn
      · rw [herror] at h
        exact h.elim
    · intro h
      by_cases hverifies : Verifies H key e
      · obtain ⟨c, hc, hsame⟩ := hunforged hverifies
        -- of one length, the nonces are the same part of the authenticated text
        have hlength : (c.envelope H key).nonce.length = e.nonce.length := by
          rw [h e rfl hverifies]
          exact c.drawn
        obtain ⟨hnonce, hct⟩ := List.append_inj hsame hlength
        rw [decrypt_made hverifies hnonce.symm hct.symm]
        exact ⟨c, hc, rfl, e, hread, hnonce.symm, hct.symm⟩
      · rw [decrypt_forged hverifies]
        exact trivial

end Accepted

/-! ## Bytes moved between the fields -/

/-- A hash of 32 equal bytes. -/
def exampleHashes : Hashes where
  sha256 := fun x => x
  hmac := fun key message => List.replicate 32 (key.sum + message.sum)
  hmac_length := fun _ _ => List.length_replicate

def exampleKey : Bytes := [169]

/-- `encrypt` of one letter with a nonce of zeros but for its last byte. -/
def exampleCall (last : UInt8) : Encrypted where
  nonce := List.replicate 15 0 ++ [last]
  plaintext := "A"
  drawn := rfl

/-- The last byte of the nonce becomes the first of the ciphertext. -/
def moved (e : Envelope) : Envelope :=
  ⟨e.nonce.dropLast, e.nonce.getLast?.toList ++ e.ct, e.mac⟩

def movedEnvelope (last : UInt8) : Json :=
  write_envelope (moved ((exampleCall last).envelope exampleHashes exampleKey))

theorem movedEnvelope_unforged (last : UInt8) : ∀ e, read_envelope (movedEnvelope last) = some e →
    Unforged exampleHashes exampleKey [exampleCall last] e := by
  intro e he _
  obtain rfl := Option.some.inj ((read_write _).symm.trans he)
  refine ⟨exampleCall last, List.mem_singleton_self _, ?_⟩
  simp [moved, Encrypted.envelope, SecretStore.encrypt, exampleCall]

/-- Bytes moved from the nonce to the ciphertext pass the check. One such envelope is decrypted
to a text that was never encrypted, another raises an error that is not the module's. -/
theorem moved_bytes_accepted :
    (∀ last e, read_envelope (movedEnvelope last) = some e →
      Unforged exampleHashes exampleKey [exampleCall last] e) ∧
    decrypt exampleHashes exampleKey (movedEnvelope 0) = .ok "\x00A" ∧
    ¬ Authentic exampleHashes exampleKey [exampleCall 0] (movedEnvelope 0)
      (decrypt exampleHashes exampleKey (movedEnvelope 0)) ∧
    decrypt exampleHashes exampleKey (movedEnvelope 255) = .error (.value "invalid utf-8") := by
  have htext : decrypt exampleHashes exampleKey (movedEnvelope 0) = .ok "\x00A" := by
    decide +kernel
  refine ⟨movedEnvelope_unforged, htext, ?_, by decide +kernel⟩
  rw [htext]
  intro h
  obtain ⟨c, hc, hplain, -⟩ := h
  rw [List.mem_singleton.mp hc] at hplain
  exact absurd hplain (by decide)

/-- An envelope that is stored as it was made is decrypted to what it was made of. -/
theorem stored_envelope_authentic :
    Authentic exampleHashes exampleKey [exampleCall 7]
      (encrypt exampleHashes exampleKey (exampleCall 7).nonce "A")
      (decrypt exampleHashes exampleKey
        (encrypt exampleHashes exampleKey (exampleCall 7).nonce "A")) := by
  have hread := read_write ((exampleCall 7).envelope exampleHashes exampleKey)
  refine (decrypt_authentic_iff _ ?_).2.mpr ?_
  · intro e he _
    obtain rfl := Option.some.inj (hread.symm.trans he)
    exact ⟨exampleCall 7, List.mem_singleton_self _, rfl⟩
  · intro e he _
    obtain rfl := Option.some.inj (hread.symm.trans he)
    rfl

end SecretEnvelopes
