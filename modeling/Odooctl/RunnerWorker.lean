import Odooctl.AccessControl
import Odooctl.CapabilityTokens
import Odooctl.EffectPrograms

/-!
# The runner

`claim_and_run` and `_execute_entry` of `runner/worker.py` with the queue and the operation
store they use. Every rename, unlink, load and save is one operation. `resolve` is the part
of `_dispatch` that decides which service function is called.
-/
namespace RunnerWorker

open EffectPrograms PitrRestoreRecord NonceStore PythonJson CapabilityTokens AccessControl

/-! ## Records -/

inductive OperationStatus where
  | queued
  | running
  | succeeded
  | failed
  | cancelled
  deriving DecidableEq, Repr

def OperationStatus.terminal : OperationStatus → Bool
  | .succeeded | .failed | .cancelled => true
  | _ => false

structure Operation where
  id : String
  kind : String
  project : String
  environment : String
  status : OperationStatus
  actor : String
  params_redacted : Items
  result_ref : Option String
  error : Option String

structure QueueEntry where
  op_id : String
  kind : String
  project : String
  environment : String
  actor : String
  params_redacted : Json
  token : Text

structure Event where
  op_id : String
  seq : ℕ
  level : String
  phase : String
  message : String
  deriving DecidableEq, Repr

structure AuditEntry where
  actor : String
  action : String
  target : String
  params_redacted : Json
  outcome : String
  op_id : String

/-! ## Operations -/

/-- The file operations of one project, and the call of a service function. -/
inductive RunnerCall (C : Type) where
  | list_pending
  | claim (stem : String)
  | read_running (stem : String)
  | mark_corrupt (stem : String)
  | load (op_id : String)
  | save (op : Operation)
  | complete (op_id : String)
  | fail (op_id : String)
  | now
  | consume (nonce : Json) (expires_at : Option Timestamp)
  | append_event (event : Event)
  | lock_enter (environment op_id : String)
  | lock_exit
  | service (call : C)
  | audit_append (entry : AuditEntry)

inductive LoadFailure where
  | missing
  | unreadable
  deriving DecidableEq, Repr

abbrev RunnerCall.Answer {C : Type} : RunnerCall C → Type
  | .list_pending => List String
  | .claim _ => Bool
  | .read_running _ => Option QueueEntry
  | .load _ => Except LoadFailure Operation
  | .now => Timestamp
  | .consume _ _ => Except NonceFailure Bool
  | .lock_enter _ _ => Except String Unit
  | .service _ => Except String Unit
  | _ => Unit

def Runner (C : Type) : Interface := ⟨RunnerCall C, RunnerCall.Answer⟩

inductive RunnerFailure where
  | keyError (message : String)
  | unreadable
  | token (failure : TokenFailure)
  | typeError (message : String)
  | overflowError
  deriving DecidableEq, Repr

abbrev RunnerM (C : Type) := Prog (Runner C) RunnerFailure

variable {C : Type}

def request (o : RunnerCall C) : RunnerM C o.Answer := .call (F := Runner C) o .pure

/-- What the runner has of a project: `kind_protected` is `none` where it raises. -/
structure Context (C : Type) where
  key : Keyed
  kind_protected : String → String → Option Bool
  resolve : QueueEntry → Except String C
  redact : String → String

/-! ## The operation store -/

def load (op_id : String) : RunnerM C Operation := do
  match ← request (.load op_id) with
  | .ok op => .pure op
  | .error .missing => .raise (.keyError s!"Operation not found: {op_id}")
  | .error .unreadable => .raise .unreadable

def update_status (op_id : String) (status : OperationStatus) (error : Option String) :
    RunnerM C Operation := do
  let op ← load op_id
  let updated : Operation := { op with status := status, error := error.or op.error }
  request (.save updated)
  .pure updated

/-! ## The queue -/

def claim_from : List String → RunnerM C (Option QueueEntry)
  | [] => .pure none
  | stem :: stems => do
    if ← request (.claim stem) then
      match ← request (.read_running stem) with
      | some entry => .pure (some entry)
      | none => do
        request (.mark_corrupt stem)
        claim_from stems
    else claim_from stems

def claim_next : RunnerM C (Option QueueEntry) := do
  let stems ← request .list_pending
  claim_from stems

/-! ## Authorization -/

def KIND_ACTION (kind : String) : Option Action :=
  if kind ∈ ["backup", "snapshot_create", "snapshot_reconcile", "pitr_base_create",
      "pitr_reconcile"] then some .backup
  else if kind ∈ ["restore", "rollback", "dr_drill", "snapshot_restore", "pitr_restore",
      "pitr_cutover", "filestore_migrate", "migrate_rehearsal"] then some .restore
  else if kind ∈ ["deploy", "update_modules", "service_restart"] then some .deploy
  else if kind ∈ ["env_create", "env_destroy"] then some .env
  else if kind = "clone" then some .clone
  else if kind = "promote" then some .promote
  else if kind = "service_logs" then some .logs
  else none

/-- `Role(role)` for the values of the list that are roles. -/
def roles_of (payload : Items) : List Role :=
  match get payload "roles" with
  | some (.list roles) => roles.filterMap fun role => role.asStr.bind Role.parse
  | _ => []

/-- `str(payload.get("sub", "api-client"))`, of which only a text is kept. -/
def principal_from_payload (payload : Items) : Principal where
  id := ((get payload "sub").bind Json.asStr).getD "api-client"
  kind := .token
  roles := roles_of payload

/-- `none` where one of the exceptions of the defensive check is raised. -/
def authorize (ctx : Context C) (entry : QueueEntry) (payload : Items) : Option Unit := do
  let action ← KIND_ACTION entry.kind
  let guarded ← ctx.kind_protected entry.kind entry.environment
  (require (principal_from_payload payload) action guarded).toOption

/-! ## One entry -/

def refuse (entry : QueueEntry) (error : String) : RunnerM C Bool := do
  let _ ← update_status entry.op_id .failed (some error)
  request (.fail entry.op_id)
  .pure false

/-- The service call under the lock of the environment: what went wrong, if anything. -/
def locked_dispatch (ctx : Context C) (entry : QueueEntry) :
    RunnerM C (Except String Unit) := do
  match ← request (.lock_enter entry.environment entry.op_id) with
  | .error message => .pure (.error ("lock acquisition failed: " ++ message))
  | .ok () => do
    let outcome ← match ctx.resolve entry with
      | .error message => .pure (.error (ctx.redact message))
      | .ok call => do
        let outcome ← request (.service call)
        .pure (outcome.mapError ctx.redact)
    request .lock_exit
    .pure outcome

def finalise (entry : QueueEntry) (outcome : Except String Unit) : RunnerM C Bool :=
  match outcome with
  | .ok () => do
    request (.append_event ⟨entry.op_id, 1, "info", "end", "operation completed"⟩)
    let _ ← update_status entry.op_id .succeeded none
    request (.complete entry.op_id)
    request (.audit_append ⟨entry.actor, entry.kind, entry.environment, entry.params_redacted,
      "succeeded", entry.op_id⟩)
    .pure true
  | .error message => do
    request (.append_event ⟨entry.op_id, 1, "error", "end", "operation failed: " ++ message⟩)
    let _ ← update_status entry.op_id .failed (some message)
    request (.fail entry.op_id)
    request (.audit_append ⟨entry.actor, entry.kind, entry.environment, entry.params_redacted,
      "failed", entry.op_id⟩)
    .pure false

def run_accepted (ctx : Context C) (entry : QueueEntry) : RunnerM C Bool := do
  let _ ← update_status entry.op_id .running none
  let _ ← load (C := C) entry.op_id
  request (.append_event ⟨entry.op_id, 0, "info", "start",
    s!"operation started: {entry.kind} on {entry.environment}"⟩)
  let outcome ← locked_dispatch ctx entry
  finalise entry outcome

/-- `payload.get("nonce", "")`. -/
def nonce_of (payload : Items) : Json := (get payload "nonce").getD (.str "")

/-- `expires_at` of the nonce; the exception of `fromtimestamp` is not handled. -/
def expiry_of (payload : Items) : Except RunnerFailure (Option Timestamp) :=
  match (get payload "exp").bind Json.asInt with
  | none => .ok none
  | some exp =>
    match fromtimestamp exp with
    | none => .error .overflowError
    | some expires_at => .ok (some expires_at)

def consume_nonce (nonce : Json) (expires_at : Option Timestamp) : RunnerM C Bool :=
  if nonce.hashable = false then .raise (.typeError "unhashable type")
  else do
    match ← request (.consume nonce expires_at) with
    | .ok accepted => .pure accepted
    | .error .overflow => .raise .overflowError

def run_authorized (ctx : Context C) (entry : QueueEntry) (payload : Items) :
    RunnerM C Bool := do
  let expires_at ← .ofExcept (expiry_of payload)
  if ← consume_nonce (nonce_of payload) expires_at then run_accepted ctx entry
  else refuse entry "token nonce already consumed"

def run_verified (ctx : Context C) (entry : QueueEntry) :
    Except TokenFailure Items → RunnerM C Bool
  | .error failure =>
    if failure.isTokenError then refuse entry "token error" else .raise (.token failure)
  | .ok payload =>
    match authorize ctx entry payload with
    | none => refuse entry "rbac error"
    | some () => run_authorized ctx entry payload

def run_checked (ctx : Context C) (entry : QueueEntry) : RunnerM C Bool := do
  let now ← request .now
  run_verified ctx entry
    (verify ctx.key entry.token entry.kind entry.environment entry.project now)

def execute_entry (ctx : Context C) (entry : QueueEntry) : RunnerM C Bool := do
  match ← request (.load entry.op_id) with
  | .error .unreadable => .raise .unreadable
  | .error .missing => run_checked ctx entry
  | .ok op =>
    if op.status = .cancelled then do
      request (.complete entry.op_id)
      .pure true
    else run_checked ctx entry

/-- The part of `claim_and_run` for one project: `none` where it has no pending entry. -/
def claim_and_execute (ctx : Context C) : RunnerM C (Option Bool) := do
  match ← claim_next with
  | none => .pure none
  | some entry => do
    let ok ← execute_entry ctx entry
    .pure (some ok)

end RunnerWorker
