import Odooctl.InterleavedPrograms
import Mathlib.Data.Nat.Notation

/-!
# The lock of an environment

`EnvironmentLock` of `operations/locks.py`, one `O_EXCL` file. Any number of threads, of one
process or of several, take its file steps in any order and may die. Each file is known by
the create that made it, so that a removal can be judged by what it removes.
-/
namespace EnvironmentLocks

open EffectPrograms InterleavedPrograms

/-! ## File steps -/

structure Payload where
  pid : ℕ
  op_id : String
  deriving DecidableEq, Repr

inductive Opened where
  | descriptor (fd : ℕ)
  | file_exists
  | failed (message : String)
  deriving DecidableEq, Repr

/-- What `os.kill(pid, 0)` returns or raises. -/
inductive Signalled where
  | delivered
  | no_such_process
  | not_permitted
  | failed (message : String)
  deriving DecidableEq, Repr

inductive LockCall where
  | ensure_parent
  | open_exclusive
  | write_and_close (fd : ℕ) (payload : Payload)
  | read_payload
  | kill (pid : ℕ)
  | unlink
  | work
  deriving DecidableEq, Repr

/-- The payload is `none` where the file cannot be read or parsed. -/
abbrev LockCall.Answer : LockCall → Type
  | .open_exclusive => Opened
  | .read_payload => Option Payload
  | .kill _ => Signalled
  | _ => Except String Unit

def Lock : Interface := ⟨LockCall, LockCall.Answer⟩

inductive LockFailure where
  | lockAcquisition (message : String)
  | osError (message : String)
  deriving DecidableEq, Repr

abbrev LockM := Prog Lock LockFailure

def ask (o : LockCall) : LockM o.Answer := .call (F := Lock) o .pure

/-- A call whose failure is raised. -/
def send (o : LockCall) (h : o.Answer = Except String Unit) : LockM Unit :=
  .perform (F := Lock) o fun r => (cast h r).mapError .osError

/-! ## The lock -/

structure EnvironmentLock where
  env : String
  op_id : String
  pid : ℕ

variable (lock : EnvironmentLock)

def raise_locked (detail : String) : LockM Unit :=
  .raise (.lockAcquisition s!"Environment '{lock.env}' is locked{detail}")

/-- The exclusive create and the payload, or what an existing file leads to. -/
def create_or (on_exists : LockM Unit) : LockM Unit := do
  match ← ask .open_exclusive with
  | .descriptor fd => send (.write_and_close fd ⟨lock.pid, lock.op_id⟩) rfl
  | .file_exists => on_exists
  | .failed message => .raise (.osError message)

/-- `_try_create(retried=True)`. -/
def retry_create : LockM Unit := create_or lock (raise_locked lock " (race on stale lock removal)")

def handle_existing : LockM Unit := do
  match ← ask .read_payload with
  | none => raise_locked lock " (unreadable lock file)"
  | some data =>
    match ← ask (.kill data.pid) with
    | .no_such_process =>
      send .unlink rfl
      retry_create lock
    | .failed message => .raise (.osError message)
    | .delivered | .not_permitted =>
      raise_locked lock s!" by operation '{data.op_id}' (PID {data.pid})"

def try_create : LockM Unit := create_or lock (handle_existing lock)

/-- `__enter__` of a thread that does not hold the lock. -/
def enter : LockM Unit := do
  send .ensure_parent rfl
  try_create lock

/-- What a thread does: work, and blocks under the lock, which may be nested. -/
inductive Body where
  | done
  | work (next : Body)
  | locked (op_id : String) (inner next : Body)

/-- `held` says that the path is among the locks of the thread: such a thread enters and
leaves without a file step. -/
def Body.run (env : String) (pid : ℕ) : Bool → Body → LockM Unit
  | _, .done => .pure ()
  | held, .work next => do
    send .work rfl
    next.run env pid held
  | true, .locked _ inner next => do
    inner.run env pid true
    next.run env pid true
  | false, .locked op_id inner next => do
    enter ⟨env, op_id, pid⟩
    Prog.ensuring (inner.run env pid true) (send .unlink rfl)
    next.run env pid false

/-- One block after another, whatever each of them raises. -/
def thread (env : String) (pid : ℕ) : List Body → LockM Unit
  | [] => .pure ()
  | body :: bodies => do
    let _ ← Prog.attempt (ε := LockFailure) (body.run env pid false)
    thread env pid bodies

/-! ## The lock file among threads -/

variable {ι : Type}

/-- `creator` is `none` for a file from before. -/
structure LockFile (ι : Type) where
  serial : ℕ
  creator : Option ι
  payload : Option Payload

/-- `read` notes the file that a thread read last, `holds` the one that its acquire created,
from the successful acquire to the release. -/
structure Disk (ι : Type) where
  file : Option (LockFile ι)
  created : ℕ
  alive : ι → Bool
  read : ι → Option ℕ
  holds : ι → Option ℕ

section Effects

variable [DecidableEq ι] (s : Disk ι) (i : ι)

def Disk.create : Disk ι :=
  { s with file := some ⟨s.created, some i, none⟩, created := s.created + 1 }

/-- The bytes go to the file that was opened, be it linked or not. -/
def Disk.write (fd : ℕ) (payload : Option Payload) : Disk ι :=
  { s with file := s.file.map fun f => if f.serial = fd then { f with payload } else f }

def Disk.acquire (fd : ℕ) : Disk ι := { s with holds := Function.update s.holds i (some fd) }

def Disk.note_read : Disk ι :=
  { s with read := Function.update s.read i (s.file.map LockFile.serial) }

def Disk.release : Disk ι := { s with holds := Function.update s.holds i none }

def Disk.unlink : Disk ι := { s with file := none }

def Disk.die : Disk ι := { s with alive := Function.update s.alive i false }

end Effects

/-- The steps of a live thread. A write may be cut short, and a signal is refused for want
of a process only where no live thread has the PID. -/
def lockWorld [DecidableEq ι] (pid : ι → ℕ) (i : ι) : World Lock (Disk ι) := fun o s r t =>
  s.alive i = true ∧ match (o : LockCall), r with
  | .open_exclusive, r =>
    (s.file = none ∧ r = .descriptor s.created ∧ t = s.create i) ∨
    (s.file ≠ none ∧ r = .file_exists ∧ t = s) ∨ (∃ message, r = .failed message) ∧ t = s
  | .write_and_close fd payload, r => ∃ written, (written = none ∨ written = some payload) ∧
    ((r = .ok () ∧ t = (s.write fd written).acquire i fd) ∨
      (∃ message, r = .error message) ∧ t = s.write fd written)
  | .read_payload, r => (∀ p, r = some p → ∃ f, s.file = some f ∧ f.payload = some p) ∧
    t = s.note_read i
  | .kill p, r => (r = .no_such_process → ∀ j, s.alive j = true → pid j ≠ p) ∧ t = s
  | .unlink, r => (r = .ok () ∧ t = s.unlink.release i) ∨
    (∃ message, r = .error message) ∧ t = s.release i
  | .ensure_parent, _ | .work, _ => t = s

/-- The step meets the condition: what a contender removes as stale is the file that it read,
or nobody alive has created it. -/
def Met (i : ι) (o : LockCall) (s : Disk ι) : Prop :=
  match o with
  | .unlink => s.holds i = none → ∀ f, s.file = some f →
      s.read i = some f.serial ∨ ∀ j, f.creator = some j → s.alive j = false
  | _ => True

def timelyWorld [DecidableEq ι] (pid : ι → ℕ) (i : ι) : World Lock (Disk ι) := fun o s r t =>
  lockWorld pid i o s r t ∧ Met i o s

/-! ## Deaths -/

def Deaths (ι : Type) : Interface := ⟨ι, fun _ => Unit⟩

def deaths : List ι → Prog (Deaths ι) LockFailure Unit
  | [] => .pure ()
  | i :: rest => .call (F := Deaths ι) i fun _ => deaths rest

def deathWorld [DecidableEq ι] : World (Deaths ι) (Disk ι) := fun i s _ t => t = s.die i

/-- Deaths are `none`, threads are numbered by `ι`. -/
abbrev interfaces (ι : Type) : Option ι → Interface
  | none => Deaths ι
  | some _ => Lock

abbrev Parties (ι : Type) :=
  Pool (interfaces ι) (fun _ => LockFailure) (fun _ => Unit)

def parties (env : String) (pid : ι → ℕ) (bodies : ι → List Body) (dying : List ι) : Parties ι
  | none => deaths dying
  | some i => thread env (pid i) (bodies i)

def worlds [DecidableEq ι] (steps : ι → World Lock (Disk ι)) :
    (i : Option ι) → World (interfaces ι i) (Disk ι)
  | none => deathWorld
  | some i => steps i

/-- No lock file, or one that nobody here created; nobody holds the lock. -/
structure Start (s : Disk ι) : Prop where
  left_over : ∀ f, s.file = some f → f.creator = none ∧ f.serial < s.created
  free : ∀ i, s.holds i = none

end EnvironmentLocks
