import Mathlib.Algebra.Order.Ring.Nat
import Mathlib.Data.List.Zip
import Odooctl.EffectPrograms

/-!
# The local secret store

`security/secrets.py`: the cipher, and a store that works on a copy of its file in memory and
rewrites the file as a whole. The two hash functions of the standard library are parameters.
What a file holds is the mapping that `json.loads` reads from it.
-/
namespace SecretStore

open EffectPrograms

abbrev Bytes := List UInt8

/-! ## The cipher -/

structure Hashes where
  sha256 : Bytes → Bytes
  hmac : Bytes → Bytes → Bytes
  hmac_length : ∀ key message, (hmac key message).length = 32

structure Envelope where
  nonce : Bytes
  ct : Bytes
  mac : Bytes
  deriving DecidableEq, Repr

inductive SecretFailure where
  | not_found (name : String)
  | decryption (message : String)
  | value (message : String)
  | json (message : String)
  | os (message : String)
  deriving DecidableEq, Repr

def encode (text : String) : Bytes := text.toUTF8.data.toList

def decode (bytes : Bytes) : Option String := String.fromUTF8? ⟨bytes.toArray⟩

variable (H : Hashes)

def derive_subkeys (key : Bytes) : Bytes × Bytes :=
  (H.sha256 (encode "odooctl-enc\x00" ++ key), H.sha256 (encode "odooctl-mac\x00" ++ key))

/-- `counter.to_bytes(8, "big")`. -/
def counter_bytes (counter : ℕ) : Bytes :=
  (List.range 8).map fun i => UInt8.ofNat (counter / 256 ^ (7 - i))

/-- The `while` of the keystream; a turn adds a block, so there are at most `length` turns. -/
def keystream_loop (enc_key nonce : Bytes) (length : ℕ) : ℕ → ℕ → Bytes → Bytes
  | 0, _, out => out
  | turns + 1, counter, out =>
    if out.length < length then
      keystream_loop enc_key nonce length turns (counter + 1)
        (out ++ H.hmac enc_key (nonce ++ counter_bytes counter))
    else out

def keystream (enc_key nonce : Bytes) (length : ℕ) : Bytes :=
  (keystream_loop H enc_key nonce length length 0 []).take length

def xor_bytes (x y : Bytes) : Bytes := List.zipWith (· ^^^ ·) x y

/-- `encrypt`, with the random nonce it draws. -/
def encrypt (key nonce : Bytes) (plaintext : String) : Envelope :=
  let raw := encode plaintext
  let ct := xor_bytes raw (keystream H (derive_subkeys H key).1 nonce raw.length)
  ⟨nonce, ct, H.hmac (derive_subkeys H key).2 (nonce ++ ct)⟩

def decrypt (key : Bytes) (envelope : Envelope) : Except SecretFailure String :=
  if envelope.mac ≠ H.hmac (derive_subkeys H key).2 (envelope.nonce ++ envelope.ct) then
    .error (.decryption "authentication failed (wrong key or tampered data)")
  else
    let ks := keystream H (derive_subkeys H key).1 envelope.nonce envelope.ct.length
    match decode (xor_bytes envelope.ct ks) with
    | some text => .ok text
    | none => .error (.value "invalid utf-8")

theorem decode_encode (text : String) : decode (encode text) = some text := by
  have hvalid : ByteArray.IsValidUTF8 ⟨(encode text).toArray⟩ := text.isValidUTF8
  exact dif_pos hvalid

theorem keystream_loop_length {enc_key nonce : Bytes} {length turns counter : ℕ} {out : Bytes}
    (h : length ≤ out.length + turns) :
    length ≤ (keystream_loop H enc_key nonce length turns counter out).length := by
  induction turns generalizing counter out with
  | zero => exact h
  | succ turns ih =>
    rw [keystream_loop]
    split
    · apply ih
      rw [List.length_append, H.hmac_length]
      omega
    · omega

theorem keystream_length (enc_key nonce : Bytes) (length : ℕ) :
    (keystream H enc_key nonce length).length = length := by
  have hlong : length ≤ (keystream_loop H enc_key nonce length length 0 []).length :=
    keystream_loop_length H (by simp)
  rw [keystream, List.length_take, Nat.min_eq_left hlong]

theorem xor_bytes_length {x y : Bytes} (h : y.length = x.length) :
    (xor_bytes x y).length = x.length := by
  rw [xor_bytes, List.length_zipWith, h, Nat.min_self]

theorem xor_bytes_cancel {x y : Bytes} (h : y.length = x.length) :
    xor_bytes (xor_bytes x y) y = x := by
  induction x generalizing y with
  | nil => rfl
  | cons a x ih =>
    cases y with
    | nil => cases h
    | cons b y =>
      have hrest := ih (y := y) (Nat.succ.inj h)
      simp only [xor_bytes, List.zipWith_cons_cons] at hrest ⊢
      rw [hrest, UInt8.xor_assoc, UInt8.xor_self, UInt8.xor_zero]

/-- What was encrypted with a key is decrypted with it. -/
theorem decrypt_encrypt (key nonce : Bytes) (plaintext : String) :
    decrypt H key (encrypt H key nonce plaintext) = .ok plaintext := by
  have hks := keystream_length H (derive_subkeys H key).1 nonce (encode plaintext).length
  simp only [decrypt, encrypt, ne_eq, not_true_eq_false, if_false, xor_bytes_length hks,
    xor_bytes_cancel hks, decode_encode]

/-! ## The store -/

/-- An entry of `secrets`. A key the entry lacks is `none`. -/
structure SecretEntry where
  source : String
  cipher : Option Envelope := none
  env_var : Option String := none
  version : Option ℤ := none
  created_at : Option String := none
  rotated_at : Option String := none
  rotation_interval_days : Option ℤ := none
  deriving DecidableEq, Repr

abbrev Secrets := Std.ExtTreeMap String SecretEntry compare

structure SecretRecord where
  name : String
  source : String
  version : ℤ
  created_at : String
  rotated_at : String
  rotation_interval_days : Option ℤ
  env_var : Option String
  deriving DecidableEq, Repr

def SecretEntry.record (name : String) (entry : SecretEntry) : SecretRecord where
  name := name
  source := entry.source
  version := entry.version.getD 1
  created_at := entry.created_at.getD ""
  rotated_at := entry.rotated_at.getD ""
  rotation_interval_days := entry.rotation_interval_days
  env_var := entry.env_var

def metadata (data : Secrets) (name : String) : Except SecretFailure SecretRecord :=
  match data[name]? with
  | none => .error (.not_found name)
  | some entry => .ok (entry.record name)

def get (key : Bytes) (environ : String → Option String) (data : Secrets) (name : String) :
    Except SecretFailure String :=
  match data[name]? with
  | none => .error (.not_found name)
  | some entry =>
    if entry.source = "stored" then
      match entry.cipher with
      | some envelope => decrypt H key envelope
      | none => .error (.value "'cipher'")
    else match entry.env_var with
    | none => .error (.value "'env_var'")
    | some env_var => match environ env_var with
      | none => .error (.not_found
          s!"environment variable {env_var} for secret '{name}' is not set")
      | some value => .ok value

inductive StoreCall where
  | exists_file
  | read_file
  | utcnow
  | token_bytes (count : ℕ)
  | open_temporary
  | write (descriptor : ℕ) (data : Secrets)
  | replace

abbrev StoreCall.Answer : StoreCall → Type
  | .exists_file => Bool
  | .read_file => Except String Secrets
  | .utcnow => String
  | .token_bytes _ => Bytes
  | .open_temporary => Except String ℕ
  | .write _ _ | .replace => Except String Unit

abbrev Files : Interface := ⟨StoreCall, StoreCall.Answer⟩

abbrev SecretM := Prog Files SecretFailure

def ask (o : StoreCall) : SecretM o.Answer := .perform (F := Files) o .ok

/-- `_load` of a new instance. -/
def load : SecretM Secrets := do
  if ← ask .exists_file then .perform (F := Files) .read_file (Except.mapError .json)
  else .pure ∅

/-- `_save`: the temporary file is truncated, written and put in the place of the file. -/
def save (data : Secrets) : SecretM Unit := do
  let descriptor ← .perform (F := Files) .open_temporary (Except.mapError .os)
  .perform (F := Files) (.write descriptor data) (Except.mapError .os)
  .perform (F := Files) .replace (Except.mapError .os)

inductive Call where
  | put (name value : String) (rotation_interval_days : Option ℤ)
  | put_reference (name env_var : String) (rotation_interval_days : Option ℤ)
  | rotate (name : String) (new_value : Option String)
  | delete (name : String)
  deriving DecidableEq, Repr

def Call.name : Call → String
  | .put name _ _ | .put_reference name _ _ | .rotate name _ | .delete name => name

variable (key : Bytes)

def encrypted (value : String) : SecretM Envelope := do
  let nonce ← ask (.token_bytes 16)
  .pure (encrypt H key nonce value)

/-- The entry a call leaves in memory under its name, before it saves. -/
def new_entry (data : Secrets) : Call → SecretM (Option SecretEntry)
  | .put name value rotation_interval_days => do
    let now ← ask .utcnow
    let entry := data[name]?
    let cipher ← encrypted H key value
    .pure (some {
      source := "stored"
      cipher := some cipher
      version := some 1
      created_at := some ((entry.bind SecretEntry.created_at).getD now)
      rotated_at := some now
      rotation_interval_days :=
        rotation_interval_days.or (entry.bind SecretEntry.rotation_interval_days) })
  | .put_reference name env_var rotation_interval_days => do
    let now ← ask .utcnow
    let entry := data[name]?
    .pure (some {
      source := "env"
      env_var := some env_var
      version := some ((entry.bind SecretEntry.version).getD 1)
      created_at := some ((entry.bind SecretEntry.created_at).getD now)
      rotated_at := some ((entry.bind SecretEntry.rotated_at).getD now)
      rotation_interval_days :=
        rotation_interval_days.or (entry.bind SecretEntry.rotation_interval_days) })
  | .rotate name new_value =>
    match data[name]? with
    | none => .raise (.not_found name)
    | some entry => do
      let now ← ask .utcnow
      let rotated := { entry with
        version := some (entry.version.getD 1 + 1)
        rotated_at := some now }
      if entry.source = "stored" then
        match new_value with
        | none => .raise (.value "rotating a stored secret requires a new value")
        | some value => do
          let cipher ← encrypted H key value
          .pure (some { rotated with cipher := some cipher })
      else .pure (some rotated)
  | .delete name =>
    match data[name]? with
    | none => .raise (.not_found name)
    | some _ => .pure none

def Secrets.set (data : Secrets) (name : String) : Option SecretEntry → Secrets
  | some entry => data.insert name entry
  | none => data.erase name

/-- What a call returns to its caller: `delete` returns nothing. -/
abbrev Returned := Except SecretFailure (Option SecretRecord)

/-- One call on an instance with a copy in memory: the copy afterwards and what the call
returns. The copy keeps the change also where saving it fails. -/
def call (c : Call) (data : Secrets) : SecretM (Secrets × Returned) := do
  match ← Prog.attempt (ε := SecretFailure) (new_entry H key data c) with
  | .error e => .pure (data, .error e)
  | .ok entry => do
    let data' := Secrets.set data c.name entry
    match ← Prog.attempt (ε := SecretFailure) (save data') with
    | .error e => .pure (data', .error e)
    | .ok () => .pure (data', .ok (entry.map (SecretEntry.record c.name)))

def calls : List Call → Secrets → SecretM (List Returned)
  | [], _ => .pure []
  | c :: cs, data => do
    let (data', returned) ← call H key c data
    let rest ← calls cs data'
    .pure (returned :: rest)

/-- An instance is opened and used. -/
def instance_calls (cs : List Call) : SecretM (List Returned) := do
  let data ← load
  calls H key cs data

end SecretStore
