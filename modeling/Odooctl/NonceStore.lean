import Mathlib.Data.List.Pairwise
import Odooctl.CheckedLists
import Odooctl.PitrRestoreRecord

/-!
# Consumed nonces

`NonceStore` of `runner/worker.py`. A stored text is what `fromisoformat` makes of it, one
without a time zone being UTC; instants are microseconds from the first instant there is.
A call reads the clock before it takes the file in and once more while it does.
-/
namespace NonceStore

open CheckedLists PitrRestoreRecord

abbrev Map (α : Type) := Std.ExtTreeMap String α compare

def NONCE_RETENTION_SECONDS : ℕ := 7200

def RETENTION : Timestamp := NONCE_RETENTION_SECONDS * 1000000

/-- `datetime.max`. -/
def LAST_INSTANT : Timestamp := 3652059 * 86400000000 - 1

inductive NonceFailure where
  | overflow
  deriving DecidableEq, Repr

/-- `now + timedelta(seconds=NONCE_RETENTION_SECONDS)`. -/
def after_retention (now : Timestamp) : Except NonceFailure Timestamp :=
  if LAST_INSTANT < now + RETENTION then .error .overflow
  else .ok (now + RETENTION)

theorem after_retention_eq {now t : Timestamp} (h : after_retention now = .ok t) :
    t = now + RETENTION := by
  simp only [after_retention] at h
  split at h
  · cases h
  · exact (Except.ok.inj h).symm

inductive Expiry where
  | at (instant : Timestamp)
  | unparsable (text : String)
  deriving DecidableEq, Repr

def Expiry.parses : Expiry → Bool
  | .at _ => true
  | .unparsable _ => false

/-- What is under `"nonces"` in the file: a map, the legacy list or anything else. -/
inductive NonceFile where
  | missing
  | corrupt
  | nonces (entries : Map Expiry)
  | legacy (names : List String)
  | other

def load : NonceFile → Timestamp → Except NonceFailure (Map Expiry)
  | .missing, _ => .ok ∅
  | .corrupt, _ => .ok ∅
  | .nonces entries, now => do
    let _ ← after_retention now
    .ok entries
  | .legacy names, now => do
    let default_expiry ← after_retention now
    .ok (.ofList (names.map fun n => (n, Expiry.at default_expiry)))
  | .other, now => do
    let _ ← after_retention now
    .ok ∅

/-- What the purge makes of one entry. -/
def Expiry.kept (now fresh : Timestamp) : Expiry → Option Expiry
  | .at expiry => if expiry ≥ now then some (.at expiry) else none
  | .unparsable _ => some (.at fresh)

def purge (nonces : Map Expiry) (now : Timestamp) : Except NonceFailure (Map Expiry) :=
  if nonces.all fun _ e => e.parses then .ok (nonces.filterMap fun _ e => e.kept now now)
  else do
    let fresh ← after_retention now
    .ok (nonces.filterMap fun _ e => e.kept now fresh)

/-- One call and the two readings of its clock. -/
structure Consume where
  nonce : String
  expires_at : Option Timestamp
  now : Timestamp
  loaded : Timestamp
  forward : now ≤ loaded

/-- The retention deadline the call records if it succeeds. -/
def Consume.deadline (c : Consume) : Timestamp :=
  max (c.now + RETENTION) (c.expires_at.getD 0)

def consume (file : NonceFile) (c : Consume) : Except NonceFailure (Bool × NonceFile) := do
  let stored ← load file c.loaded
  let nonces ← purge stored c.now
  if c.nonce ∈ nonces then .ok (false, .nonces nonces)
  else do
    let floor ← after_retention c.now
    let expiry := match c.expires_at with
      | some expires_at => max floor expires_at
      | none => floor
    .ok (true, .nonces (nonces.insert c.nonce (.at expiry)))

/-- A call that raises leaves the file alone. -/
def step (file : NonceFile) (c : Consume) : Except NonceFailure Bool × NonceFile :=
  match consume file c with
  | .ok (accepted, file') => (.ok accepted, file')
  | .error e => (.error e, file)

def outcomes : NonceFile → List Consume → List (Except NonceFailure Bool)
  | _, [] => []
  | file, c :: cs => (step file c).1 :: outcomes (step file c).2 cs

/-- A clock that never runs backwards. -/
def Forward (calls : List Consume) : Prop := calls.Pairwise fun c d => c.loaded ≤ d.now

/-! ## A consumed nonce stays blocked -/

variable {file : NonceFile} {c : Consume} {n : String} {d : Timestamp}

/-- The file keeps the nonce up to the deadline. -/
def Blocked (n : String) (d : Timestamp) : NonceFile → Prop
  | .nonces entries => ∃ e, entries[n]? = some (.at e) ∧ d ≤ e
  | _ => False

theorem getElem?_purge {nonces kept : Map Expiry} {now e : Timestamp}
    (h : purge nonces now = .ok kept) (hn : nonces[n]? = some (.at e)) (he : now ≤ e) :
    kept[n]? = some (.at e) := by
  have hkept : ∀ fresh, (Expiry.at e).kept now fresh = some (.at e) := by
    intro fresh
    simp [Expiry.kept, he]
  simp only [purge] at h
  split at h
  · cases h
    rw [Std.ExtTreeMap.getElem?_filterMap', hn]
    exact hkept now
  · cases hf : after_retention now with
    | error e =>
      rw [hf] at h
      cases h
    | ok fresh =>
      rw [hf] at h
      cases h
      rw [Std.ExtTreeMap.getElem?_filterMap', hn]
      exact hkept fresh

/-- What a call that returns has done. -/
theorem consume_cases {accepted : Bool} {file' : NonceFile}
    (h : consume file c = .ok (accepted, file')) : ∃ stored nonces,
      load file c.loaded = .ok stored ∧ purge stored c.now = .ok nonces ∧
      ((accepted = false ∧ c.nonce ∈ nonces ∧ file' = .nonces nonces) ∨
        (accepted = true ∧ c.nonce ∉ nonces ∧
          file' = .nonces (nonces.insert c.nonce (.at c.deadline)))) := by
  simp only [consume] at h
  obtain ⟨stored, hstored, h⟩ := bind_eq_ok.mp h
  obtain ⟨nonces, hnonces, h⟩ := bind_eq_ok.mp h
  refine ⟨stored, nonces, hstored, hnonces, ?_⟩
  by_cases hn : c.nonce ∈ nonces
  · rw [if_pos hn] at h
    cases h
    exact .inl ⟨rfl, hn, rfl⟩
  · rw [if_neg hn] at h
    obtain ⟨floor, hfloor, h⟩ := bind_eq_ok.mp h
    obtain rfl := after_retention_eq hfloor
    have hdeadline : (match c.expires_at with
        | some expires_at => max (c.now + RETENTION) expires_at
        | none => c.now + RETENTION) = c.deadline := by
      cases he : c.expires_at with
      | none => simp [Consume.deadline, he]
      | some t => simp [Consume.deadline, he]
    rw [hdeadline] at h
    cases h
    exact .inr ⟨rfl, hn, rfl⟩

/-- An accepted nonce is kept up to its deadline. -/
theorem blocked_of_accepted (h : (step file c).1 = .ok true) :
    Blocked c.nonce c.deadline (step file c).2 := by
  simp only [step] at h ⊢
  split at h
  · next accepted file' hc =>
    obtain rfl : accepted = true := Except.ok.inj h
    obtain ⟨stored, nonces, -, -, ⟨hf, -⟩ | ⟨-, -, rfl⟩⟩ := consume_cases hc
    · cases hf
    · refine ⟨c.deadline, ?_, Nat.le_refl _⟩
      simp
  · cases h

theorem step_ok {accepted : Bool} {file' : NonceFile}
    (h : consume file c = .ok (accepted, file')) : step file c = (.ok accepted, file') := by
  rw [step, h]

theorem step_error {e : NonceFailure} (h : consume file c = .error e) :
    step file c = (.error e, file) := by
  rw [step, h]

theorem blocked_of_purged {entries nonces : Map Expiry} {now e : Timestamp}
    (hload : load (.nonces entries) now = .ok nonces) (he : entries[n]? = some (.at e)) :
    nonces[n]? = some (.at e) := by
  rw [load] at hload
  obtain ⟨-, -, hload⟩ := bind_eq_ok.mp hload
  rwa [← Except.ok.inj hload]

/-- Up to the deadline a call neither accepts the nonce nor forgets it. -/
theorem blocked_step (hb : Blocked n d file) (hd : c.now ≤ d) :
    Blocked n d (step file c).2 ∧ (c.nonce = n → (step file c).1 ≠ .ok true) := by
  cases hc : consume file c with
  | error e =>
    rw [step_error hc]
    exact ⟨hb, fun _ h => by cases h⟩
  | ok result =>
  obtain ⟨accepted, file'⟩ := result
  rw [step_ok hc]
  obtain ⟨stored, nonces, hload, hpurge, hcase⟩ := consume_cases hc
  have hstored : ∃ e, stored[n]? = some (.at e) ∧ d ≤ e := by
    cases file with
    | nonces entries =>
      obtain ⟨e, he, hde⟩ := hb
      exact ⟨e, blocked_of_purged hload he, hde⟩
    | missing => exact hb.elim
    | corrupt => exact hb.elim
    | legacy names => exact hb.elim
    | other => exact hb.elim
  obtain ⟨e, he, hde⟩ := hstored
  have hkept := getElem?_purge hpurge he (Nat.le_trans hd hde)
  have hmem : n ∈ nonces := by
    rw [Std.ExtTreeMap.mem_iff_isSome_getElem?, hkept]
    rfl
  rcases hcase with ⟨rfl, -, rfl⟩ | ⟨rfl, hnot, rfl⟩
  · exact ⟨⟨e, hkept, hde⟩, fun _ h => by cases h⟩
  · have hne : c.nonce ≠ n := by
      intro heq
      rw [heq] at hnot
      exact hnot hmem
    refine ⟨⟨e, ?_, hde⟩, fun heq => absurd heq hne⟩
    rw [Std.ExtTreeMap.getElem?_insert]
    simpa [hne] using hkept

/-- As long as the clock has not passed the deadline no call accepts the nonce. -/
theorem blocked_outcomes {calls : List Consume} {j : ℕ} {cj : Consume} (hb : Blocked n d file)
    (hclock : Forward calls) (hj : calls[j]? = some cj) (hn : cj.nonce = n)
    (hout : (outcomes file calls)[j]? = some (.ok true)) : d < cj.now := by
  induction calls generalizing file j with
  | nil => cases hj
  | cons c calls ih =>
    obtain ⟨hc, hrest⟩ := List.pairwise_cons.mp hclock
    by_cases hd : c.now ≤ d
    · obtain ⟨hblocked, hrefused⟩ := blocked_step hb hd
      cases j with
      | zero =>
        obtain rfl : c = cj := Option.some.inj hj
        exact absurd (Option.some.inj hout) (hrefused hn)
      | succ j => exact ih hblocked hrest hj hout
    · cases j with
      | zero =>
        obtain rfl : c = cj := Option.some.inj hj
        exact Nat.lt_of_not_le hd
      | succ j =>
        have hlate := hc cj (List.mem_of_getElem? hj)
        have hforward := c.forward
        exact Nat.lt_of_lt_of_le (Nat.lt_of_not_le hd) (Nat.le_trans hforward hlate)

theorem accepted_twice {calls : List Consume} (hclock : Forward calls) {i j : ℕ} {ci cj : Consume}
    (hij : i < j) (hi : calls[i]? = some ci) (hj : calls[j]? = some cj)
    (hn : ci.nonce = cj.nonce) (houti : (outcomes file calls)[i]? = some (.ok true))
    (houtj : (outcomes file calls)[j]? = some (.ok true)) : ci.deadline < cj.now := by
  induction calls generalizing file i j with
  | nil => cases hi
  | cons c calls ih =>
    obtain ⟨-, hrest⟩ := List.pairwise_cons.mp hclock
    cases j with
    | zero => cases hij
    | succ j =>
      cases i with
      | zero =>
        obtain rfl : c = ci := Option.some.inj hi
        have hb := blocked_of_accepted (Option.some.inj houti)
        exact blocked_outcomes hb hrest hj hn.symm houtj
      | succ i => exact ih hrest (Nat.lt_of_succ_lt_succ hij) hi hj houti houtj

end NonceStore
