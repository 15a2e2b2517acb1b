import Odooctl.EffectPrograms
import Odooctl.JsonWriting
import Odooctl.PythonIntegers
import Odooctl.S3Objects
import Odooctl.TrimmedLines

/-!
# The audit log

`AuditStore` of `operations/audit.py`: one JSON entry a line, chained by their hashes, and a
high-water mark beside the log that says how many there were. A call holds the lock of the log
from before its first read, so that calls come one after another.
-/
namespace AuditLog

open EffectPrograms PythonJson JsonText JsonWriting
open S3Objects (is_digest)
open TrimmedLines (strip)

/-- How the store computes. `tag` is the hexadecimal hash of a text, keyed or not; `trunc` is
`int` of a float and `str_of` is `str` of what is neither a text nor an integer. -/
structure Audit where
  floats : Floats
  tag : List Char → String
  hexdigest : ∀ text, is_digest (tag text) = true
  trunc : String → Except String ℤ
  str_of : Json → String

/-! ## Entries -/

/-- What is read back is not checked, so that every field may be any value. -/
structure AuditEntry where
  actor : Json
  action : Json
  target : Json
  params_redacted : Json
  outcome : Json
  op_id : Json
  timestamp : Json
  prev_hash : Json := .str ""
  current_hash : Json := .str ""

def AuditEntry.to_dict (e : AuditEntry) : Items :=
  [("prev_hash", e.prev_hash), ("actor", e.actor), ("action", e.action), ("target", e.target),
    ("params_redacted", e.params_redacted), ("outcome", e.outcome), ("op_id", e.op_id),
    ("timestamp", e.timestamp)]

def AuditEntry.record (e : AuditEntry) : Items :=
  e.to_dict ++ [("current_hash", e.current_hash)]

def from_dict : Json → Option AuditEntry
  | .dict d => do
    let actor ← get d "actor"
    let action ← get d "action"
    let target ← get d "target"
    let outcome ← get d "outcome"
    let timestamp ← get d "timestamp"
    return {
      actor, action, target, outcome, timestamp,
      prev_hash := (get d "prev_hash").getD (.str ""),
      current_hash := (get d "current_hash").getD (.str ""),
      params_redacted := (get d "params_redacted").getD (.dict []),
      op_id := (get d "op_id").getD (.str "") }
  | _ => none

section Reading

variable (a : Audit)

def to_json (e : AuditEntry) : List Char := (spaced a.floats).write (.dict e.record)

/-- The text that the hash of an entry is made of. -/
def entry_text (e : AuditEntry) (prev_hash : Json) : List Char :=
  (compact a.floats).write (sort_keys (.dict (setItem e.to_dict "prev_hash" prev_hash)))

def hash_entry (e : AuditEntry) (prev_hash : Json) : String := a.tag (entry_text a e prev_hash)

/-! ## The files -/

/-- Where `splitlines` breaks a text. -/
def isBreak (c : Char) : Bool :=
  c.toNat ∈ [0x0A, 0x0B, 0x0C, 0x0D, 0x1C, 0x1D, 0x1E, 0x85, 0x2028, 0x2029]

def splitlines : List Char → List (List Char)
  | [] => []
  | '\r' :: '\n' :: rest => [] :: splitlines rest
  | c :: rest =>
    if isBreak c then [] :: splitlines rest
    else match splitlines rest with
      | [] => [[c]]
      | line :: lines => (c :: line) :: lines

/-- The lines that are not blank; an absent file has none. -/
def written_lines (log : Option (List Char)) : List (List Char) :=
  ((splitlines (log.getD [])).map strip).filter (· ≠ [])

def count_lines (log : Option (List Char)) : ℕ := (written_lines log).length

def last_hash (log : Option (List Char)) : Json :=
  match (written_lines log).getLast?.bind fun line => loads (String.ofList line) with
  | some (.dict d) => (get d "current_hash").getD (.str "")
  | _ => .str ""

/-- Lines that hold no entry are passed over. -/
def load_chain (log : Option (List Char)) : List AuditEntry :=
  (written_lines log).filterMap fun line => (loads (String.ofList line)).bind from_dict

/-- The text that the code of a high-water mark is made of. -/
def mark_text (count : ℤ) (last_hash : String) : List Char :=
  intText count ++ ':' :: last_hash.toList

def hwm_mac (count : ℤ) (last_hash : String) : String := a.tag (mark_text count last_hash)

def hwm_payload (count : ℕ) (last_hash : String) : Json :=
  .dict [("count", .int count), ("last_hash", .str last_hash),
    ("mac", .str (hwm_mac a count last_hash))]

/-- `None` also for a file that is not JSON, and for `null`. -/
def read_hwm (hwm : Option (List Char)) : Option Json :=
  match hwm.bind fun text => loads (String.ofList text) with
  | some .null => none
  | payload => payload

/-! ## Verification -/

/-- `verify_chain`, from an entry whose predecessor has this hash. -/
def verify_from (prev_hash : String) : List AuditEntry → Bool
  | [] => true
  | e :: rest =>
    e.prev_hash.asStr == some prev_hash &&
      e.current_hash.asStr == some (hash_entry a e (.str prev_hash)) &&
        verify_from (hash_entry a e (.str prev_hash)) rest

def verify_chain (entries : List AuditEntry) : Bool := verify_from a "" entries

def int_of : Json → Except String ℤ
  | .int i => .ok i
  | .bool b => .ok b.toInt
  | .float t => a.trunc t
  | .str s => match PythonIntegers.int 10 s.toList with
    | some i => .ok i
    | none => .error s!"invalid literal for int() with base 10: {PythonText.quoted s}"
  | _ => .error "int() argument must be a string, a bytes-like object or a real number"

def str : Json → String
  | .str s => s
  | .int i => String.ofList (intText i)
  | value => a.str_of value

/-- `hmac.compare_digest` of two texts. -/
def compare_digest (given expected : String) : Except String Bool :=
  if given.toList.all fun c => c.toNat < 128 then .ok (given = expected)
  else .error "comparing strings with non-ASCII characters is not supported"

/-- The entry that a high-water mark counts up to has the hash that it names. -/
def ends_at (entries : List AuditEntry) (count : ℤ) (last_hash : String) : Bool :=
  count ≤ entries.length &&
    (count ≤ 0 || (entries[count.toNat - 1]?).any fun e => e.current_hash.asStr == some last_hash)

def check_mark (entries : List AuditEntry) (d : Items) : Except String Bool := do
  let count ← int_of a ((get d "count").getD (.int 0))
  let last_hash := str a ((get d "last_hash").getD (.str ""))
  let same ← compare_digest (str a ((get d "mac").getD (.str ""))) (hwm_mac a count last_hash)
  return same && ends_at entries count last_hash

def verify (log hwm : Option (List Char)) : Except String Bool :=
  if verify_chain a (load_chain log) = false then .ok false
  else match read_hwm hwm with
    | none => .ok true
    | some (.dict d) => check_mark a (load_chain log) d
    | some _ => .error "object has no attribute 'get'"

/-! ## Appending -/

end Reading

inductive AuditCall where
  | read_log
  | append_log (text : List Char)
  | write_tmp (text : List Char)
  | replace_hwm
  deriving DecidableEq, Repr

abbrev AuditCall.Answer : AuditCall → Type
  | .read_log => Except String (Option (List Char))
  | _ => Except String Unit

abbrev Files : Interface := ⟨AuditCall, AuditCall.Answer⟩

abbrev AuditM := Prog Files String

def read_log : AuditM (Option (List Char)) := .perform (F := Files) .read_log id

def append_log (text : List Char) : AuditM Unit := .perform (F := Files) (.append_log text) id

variable (a : Audit)

def write_hwm (count : ℕ) (last_hash : String) : AuditM Unit := do
  .perform (F := Files) (.write_tmp ((spaced a.floats).write (hwm_payload a count last_hash))) id
  .perform (F := Files) .replace_hwm id

/-- The entry with its links filled in. -/
def linked (prev_hash : Json) (e : AuditEntry) : AuditEntry :=
  let e := { e with prev_hash }
  { e with current_hash := .str (hash_entry a e prev_hash) }

def append (entry : AuditEntry) : AuditM AuditEntry := do
  let log ← read_log
  let entry := linked a (last_hash log) entry
  let log ← read_log
  append_log (to_json a entry ++ ['\n'])
  write_hwm a (count_lines log + 1) (hash_entry a entry entry.prev_hash)
  return entry

end AuditLog
