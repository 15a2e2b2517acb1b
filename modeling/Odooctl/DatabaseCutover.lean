import Odooctl.PostgresCatalog
import Odooctl.PythonText

/-!
# OID-fenced database cutover

The operations of `odoo/db_swap.py` that plan, promote and finalize a cutover. A plan
carries the checks of its `__post_init__` as fields. SHA-256 is a parameter: any
function from texts to 64 hexadecimal digits.
-/
namespace DatabaseCutover

open EffectPrograms PostgresCatalog PythonText

abbrev Sha256 := String → Fin 64 → Fin 16

def hexdigest (sha256 : Sha256) (s : String) : List Char :=
  (List.ofFn (sha256 s)).map hexDigit

def POSTGRES_IDENTIFIER_MAX_BYTES : ℕ := 63
def CUTOVER_ASIDE_MARKER : String := "__odooctl_cutover_"
def CUTOVER_HASH_LENGTH : ℕ := 32

inductive DatabaseCutoverState where
  | READY
  | TARGET_MOVED_ASIDE
  | PROMOTED
  | FINALIZED
  | CONFLICT
  | UNKNOWN
  deriving DecidableEq, Repr

/-- The check that `_validate_database_name` makes. -/
def nameFault (name field_name : String) : Option String :=
  if name.toList = [] then some s!"{field_name} cannot be empty"
  else if name.toList.contains '\x00' then some s!"{field_name} cannot contain NUL bytes"
  else if utf8Length name.toList > POSTGRES_IDENTIFIER_MAX_BYTES then
    some s!"{field_name} exceeds PostgreSQL's 63-byte identifier limit"
  else none

def asideName (sha256 : Sha256) (target_db incoming_db cutover_id : String) : String :=
  let digest_input :=
    "\x00".intercalate ["odooctl-database-cutover-v1", cutover_id, target_db, incoming_db]
  let suffix := CUTOVER_ASIDE_MARKER.toList ++
    (hexdigest sha256 digest_input).take CUTOVER_HASH_LENGTH
  let prefix_bytes := POSTGRES_IDENTIFIER_MAX_BYTES - utf8Length suffix
  String.ofList (truncateUtf8 target_db.toList prefix_bytes ++ suffix)

/-- What `database_cutover_aside_name` raises, if anything. -/
def asideFault (sha256 : Sha256) (target_db incoming_db cutover_id : String) : Option String :=
  nameFault target_db "target_db" <|> nameFault incoming_db "incoming_db" <|>
  (if cutover_id.toList = [] then some "cutover_id cannot be empty" else none) <|>
  (if cutover_id.toList.contains '\x00' then some "cutover_id cannot contain NUL bytes"
    else none) <|>
  nameFault (asideName sha256 target_db incoming_db cutover_id) "aside_db"

/-- Durable identity fence for one database cutover. The fields that are proofs are the
checks of `__post_init__`. -/
structure DatabaseCutoverPlan (sha256 : Sha256) where
  cutover_id : String
  incoming_db : DbName
  target_db : DbName
  aside_db : DbName
  incoming_oid : Oid
  target_oid : Option Oid
  maintenance_db : DbName
  names_valid : asideFault sha256 target_db incoming_db cutover_id = none ∧
    nameFault maintenance_db "maintenance_db" = none
  incoming_ne_target : incoming_db ≠ target_db
  maintenance_separate : maintenance_db ∉ [incoming_db, target_db, aside_db]
  aside_eq : aside_db = asideName sha256 target_db incoming_db cutover_id
  oids_distinct : target_oid ≠ some incoming_oid

variable {sha256 : Sha256}

structure DatabaseCutoverStatus where
  state : DatabaseCutoverState
  observed_incoming_oid : Option Oid
  observed_target_oid : Option Oid
  observed_aside_oid : Option Oid
  observation_complete : Bool := true
  deriving DecidableEq, Repr

def DatabaseCutoverStatus.promoted (status : DatabaseCutoverStatus) : Option Bool :=
  match status.state with
  | .PROMOTED | .FINALIZED => some true
  | .READY | .TARGET_MOVED_ASIDE => some false
  | .CONFLICT | .UNKNOWN => none

inductive CutoverErrorKind where
  | error
  | conflict
  | cleanup
  deriving DecidableEq, Repr

/-- The exceptions of the module; `adapter` is whatever a database adapter raised. -/
inductive SwapError where
  | valueError (message : String)
  | runtimeError (message : String)
  | typeError (message : String)
  | adapter (e : AdapterError)
  | cutover (kind : CutoverErrorKind) (message : String) (status : DatabaseCutoverStatus)
  | fence (message : String)
  deriving DecidableEq, Repr

/-- `DatabaseCutoverError.promoted`; a cleanup error always means promoted. -/
def SwapError.promoted : SwapError → Option Bool
  | .cutover .cleanup _ _ => some true
  | .cutover _ _ status => status.promoted
  | _ => none

abbrev SwapM := Prog Adapter SwapError

/-! ## Statements and lookups -/

def psql (db_name : DbName) (sql : Statement) : SwapM Unit :=
  .perform (F := Adapter) (.psql db_name sql) fun
    | .ok () => .ok ()
    | .error e => .error (.adapter e)

/-- `quote_identifier` rejects NUL bytes before any statement is sent. -/
def quote_identifier (name : DbName) : SwapM Unit :=
  if name.toList.contains '\x00' then
    .raise (.valueError "database name cannot contain NUL bytes")
  else .pure ()

def terminate_connections (db_name : DbName) (maintenance_db : DbName := "postgres") :
    SwapM Unit := psql maintenance_db (.terminateConnections db_name)

def drop_database (db_name : DbName) (maintenance_db : DbName := "postgres") :
    SwapM Unit := do
  quote_identifier db_name
  psql maintenance_db (.dropDatabase db_name)

def rename_database (old_name new_name : DbName) (maintenance_db : DbName := "postgres") :
    SwapM Unit := do
  quote_identifier old_name
  quote_identifier new_name
  psql maintenance_db (.renameDatabase old_name new_name)

def validate_database_name (name field_name : String) : Except SwapError Unit :=
  match nameFault name field_name with
  | some message => .error (.valueError message)
  | none => .ok ()

def validated_oid (value : Scalar) (db_name : DbName) : Except SwapError (Option Oid) :=
  let invalid :=
    SwapError.runtimeError s!"Invalid PostgreSQL OID returned for database {quoted db_name}"
  match value with
  | .absent => .ok none
  | .unreadable => .error invalid
  | .integer n =>
    if h : 1 ≤ n.toNat ∧ n.toNat ≤ 0xFFFFFFFF then .ok (some ⟨n.toNat, h.1, h.2⟩)
    else .error invalid

def oidReply (db_name : DbName) : Except AdapterError Scalar → Except SwapError (Option Oid)
  | .ok value => validated_oid value db_name
  | .error e => .error (.adapter e)

def database_oid (pg : Hooks) (db_name : DbName) (maintenance_db : DbName := "postgres") :
    SwapM (Option Oid) := do
  if pg.psql_scalar then
    .ofExcept (validate_database_name db_name "db_name")
    .perform (F := Adapter) (.psql_scalar maintenance_db db_name) (oidReply db_name)
  else if pg.database_oid then
    .perform (F := Adapter) (.database_oid db_name) (oidReply db_name)
  else
    .raise (.typeError ("Crash-reconcilable database cutover requires an adapter with " ++
      "psql_scalar(database, sql) or database_oid(name)"))

/-! ## Planning -/

/-- `DatabaseCutoverPlan(...)`: the checks of `__post_init__`, in its order. -/
def DatabaseCutoverPlan.init (sha256 : Sha256) (cutover_id : String)
    (incoming_db target_db aside_db : DbName) (incoming_oid : Oid) (target_oid : Option Oid)
    (maintenance_db : DbName := "postgres") :
    Except SwapError (DatabaseCutoverPlan sha256) :=
  match nameFault incoming_db "incoming_db" <|> nameFault target_db "target_db" <|>
      nameFault aside_db "aside_db" with
  | some message => .error (.valueError message)
  | none =>
  match hm : nameFault maintenance_db "maintenance_db" with
  | some message => .error (.valueError message)
  | none =>
  if cutover_id.toList = [] then .error (.valueError "cutover_id cannot be empty")
  else if cutover_id.toList.contains '\x00' then
    .error (.valueError "cutover_id cannot contain NUL bytes")
  else if hne : incoming_db = target_db then
    .error (.valueError "incoming_db must differ from target_db")
  else if hsep : maintenance_db ∈ [incoming_db, target_db, aside_db] then
    .error (.valueError "maintenance_db must be separate from cutover databases")
  else match hv : asideFault sha256 target_db incoming_db cutover_id with
  | some message => .error (.valueError message)
  | none =>
  if ha : aside_db ≠ asideName sha256 target_db incoming_db cutover_id then
    .error (.valueError "aside_db does not match the deterministic cutover name")
  else if ho : target_oid = some incoming_oid then
    .error (.valueError "incoming and target databases must have distinct OIDs")
  else .ok
    { cutover_id, incoming_db, target_db, aside_db, incoming_oid, target_oid, maintenance_db
      names_valid := ⟨hv, hm⟩
      incoming_ne_target := hne
      maintenance_separate := hsep
      aside_eq := not_not.mp ha
      oids_distinct := ho }

def database_cutover_aside_name (sha256 : Sha256) (target_db incoming_db : DbName)
    (cutover_id : String) : Except SwapError DbName :=
  match asideFault sha256 target_db incoming_db cutover_id with
  | some message => .error (.valueError message)
  | none => .ok (asideName sha256 target_db incoming_db cutover_id)

/-- Capture the stable identities that must be persisted before promotion. -/
def plan_database_cutover (sha256 : Sha256) (pg : Hooks) (incoming_db target_db : DbName)
    (cutover_id : String) (maintenance_db : DbName := "postgres") :
    SwapM (DatabaseCutoverPlan sha256) := do
  .ofExcept (validate_database_name incoming_db "incoming_db")
  .ofExcept (validate_database_name target_db "target_db")
  .ofExcept (validate_database_name maintenance_db "maintenance_db")
  if incoming_db = target_db then
    .raise (.valueError "incoming_db must differ from target_db")
  else
  let aside_db ← .ofExcept (database_cutover_aside_name sha256 target_db incoming_db cutover_id)
  if maintenance_db ∈ [incoming_db, target_db, aside_db] then
    .raise (.valueError "maintenance_db must be separate from cutover databases")
  else
  match ← database_oid pg incoming_db maintenance_db with
  | none => .raise (.runtimeError s!"Incoming database {quoted incoming_db} does not exist")
  | some incoming_oid =>
  let target_oid ← database_oid pg target_db maintenance_db
  let aside_oid ← database_oid pg aside_db maintenance_db
  if aside_oid ≠ none then
    .raise (.runtimeError (s!"Cutover aside database {quoted aside_db} is already occupied; " ++
      "refusing to overwrite it"))
  else if target_oid = some incoming_oid then
    .raise (.runtimeError "Incoming and target database OIDs unexpectedly match")
  else
  .ofExcept (DatabaseCutoverPlan.init sha256 cutover_id incoming_db target_db aside_db
    incoming_oid target_oid maintenance_db)

/-! ## Reconciliation -/

def unknown_cutover_status : DatabaseCutoverStatus where
  state := .UNKNOWN
  observed_incoming_oid := none
  observed_target_oid := none
  observed_aside_oid := none
  observation_complete := false

/-- The table `states` of `reconcile_database_cutover`. -/
def DatabaseCutoverPlan.states (plan : DatabaseCutoverPlan sha256) :
    List ((Option Oid × Option Oid × Option Oid) × DatabaseCutoverState) :=
  match plan.target_oid with
  | none =>
    [((some plan.incoming_oid, none, none), .READY),
     ((none, some plan.incoming_oid, none), .PROMOTED)]
  | some target_oid =>
    [((some plan.incoming_oid, some target_oid, none), .READY),
     ((some plan.incoming_oid, none, some target_oid), .TARGET_MOVED_ASIDE),
     ((none, some plan.incoming_oid, some target_oid), .PROMOTED),
     ((none, some plan.incoming_oid, none), .FINALIZED)]

/-- Classify a cutover solely by the durable plan and stable database OIDs. -/
def reconcile_database_cutover (pg : Hooks) (plan : DatabaseCutoverPlan sha256) :
    SwapM DatabaseCutoverStatus := do
  let observed ← Prog.attempt (ε := SwapError) do
    let incoming_oid ← database_oid pg plan.incoming_db plan.maintenance_db
    let target_oid ← database_oid pg plan.target_db plan.maintenance_db
    let aside_oid ← database_oid pg plan.aside_db plan.maintenance_db
    return (incoming_oid, target_oid, aside_oid)
  match observed with
  | .error _ =>
    .raise (.cutover .error "Could not determine the database cutover state"
      unknown_cutover_status)
  | .ok observed =>
    match plan.states.lookup observed with
    | none =>
      .raise (.cutover .conflict "Database names/OIDs conflict with the recorded cutover plan"
        ⟨.CONFLICT, observed.1, observed.2.1, observed.2.2, true⟩)
    | some state => return ⟨state, observed.1, observed.2.1, observed.2.2, true⟩

/-- The error to raise for a failed statement, with the state observed after it. -/
def cutover_failure (pg : Hooks) (plan : DatabaseCutoverPlan sha256) (message : String) :
    SwapM (SwapError × DatabaseCutoverStatus) := do
  match ← (reconcile_database_cutover pg plan).attempt with
  | .ok status => return (.cutover .error message status, status)
  | .error (.cutover _ _ status) =>
    return (.cutover .error s!"{message}; the resulting state could not be determined" status,
      status)
  | .error e => .raise e

/-- Raise `message` with the status of a failed reconciliation. -/
def reraise (kind : CutoverErrorKind) (message : String) (e : SwapError) : SwapM α :=
  match e with
  | .cutover _ _ status => .raise (.cutover kind message status)
  | e => .raise e

/-! ## Promotion -/

def DatabaseCutoverStatus.isPromoted (status : DatabaseCutoverStatus) : Bool :=
  status.promoted == some true

def restore_old_target_after_failed_promotion (pg : Hooks)
    (plan : DatabaseCutoverPlan sha256) : SwapM DatabaseCutoverStatus := do
  match ← (rename_database plan.aside_db plan.target_db plan.maintenance_db).attempt with
  | .error (_ : SwapError) =>
    let (failure, status) ← cutover_failure pg plan
      "Database promotion failed and restoring the old target also failed"
    if status.state = .READY then
      .raise (.cutover .error ("Database promotion failed; the original target was restored " ++
        "despite a lost rollback response") status)
    else if failure.promoted = some true then return status
    else .raise failure
  | .ok () =>
  match ← (reconcile_database_cutover pg plan).attempt with
  | .error e =>
    reraise .error ("Database promotion failed; the rollback response was received " ++
      "but its resulting state is unknown") e
  | .ok status =>
  if status.state ≠ .READY then
    .raise (.cutover .error
      "Database promotion failed and rollback did not restore the ready state" status)
  else
  .raise (.cutover .error "Database promotion failed; the original target was restored" status)

/-- `promote_database_cutover` from the point where the target name is out of the way. -/
def promote_incoming (pg : Hooks) (plan : DatabaseCutoverPlan sha256)
    (status : DatabaseCutoverStatus) : SwapM DatabaseCutoverStatus := do
  if status.isPromoted then return status
  else if status.state ≠ .READY ∧ status.state ≠ .TARGET_MOVED_ASIDE then
    .raise (.cutover .error "Database cutover is not in a promotable state" status)
  else
  match ← (rename_database plan.incoming_db plan.target_db plan.maintenance_db).attempt with
  | .error (_ : SwapError) =>
    match ← (reconcile_database_cutover pg plan).attempt with
    | .error e =>
      reraise .error ("Database promotion response was lost and the resulting " ++
        "state could not be determined") e
    | .ok after_failure =>
      if after_failure.isPromoted then return after_failure
      else if after_failure.state = .TARGET_MOVED_ASIDE then
        let rollback_result ← restore_old_target_after_failed_promotion pg plan
        if rollback_result.isPromoted then return rollback_result
        else .raise (.cutover .error
          "Database promotion failed before changing database identities" after_failure)
      else .raise (.cutover .error
        "Database promotion failed before changing database identities" after_failure)
  | .ok () =>
  match ← (reconcile_database_cutover pg plan).attempt with
  | .error e =>
    reraise .error
      "Database promotion command completed but the resulting state could not be determined" e
  | .ok promoted =>
  if promoted.isPromoted then return promoted
  else .raise (.cutover .error "Database promotion command did not produce a promoted state"
    promoted)

/-- Promote the recorded incoming DB without deleting the old database. -/
def promote_database_cutover (pg : Hooks) (plan : DatabaseCutoverPlan sha256) :
    SwapM DatabaseCutoverStatus := do
  let status ← reconcile_database_cutover pg plan
  if status.isPromoted then return status
  else if status.state = .READY ∧ plan.target_oid ≠ none then
    match ← (terminate_connections plan.target_db plan.maintenance_db).attempt with
    | .error (_ : SwapError) =>
      let (failure, status) ← cutover_failure pg plan
        "Could not terminate connections to the original target database"
      if failure.promoted = some true then return status
      else .raise failure
    | .ok () =>
    let status ← reconcile_database_cutover pg plan
    if status.isPromoted then return status
    else if status.state = .READY then
      match ← (rename_database plan.target_db plan.aside_db plan.maintenance_db).attempt with
      | .error (_ : SwapError) =>
        let (failure, status) ← cutover_failure pg plan
          "Could not move the original target database aside"
        if status.state = .TARGET_MOVED_ASIDE then promote_incoming pg plan status
        else if failure.promoted = some true then return status
        else .raise failure
      | .ok () =>
        let status ← reconcile_database_cutover pg plan
        promote_incoming pg plan status
    else if status.state ≠ .TARGET_MOVED_ASIDE then
      .raise (.cutover .error
        "Original target identity changed before it could be moved aside" status)
    else promote_incoming pg plan status
  else promote_incoming pg plan status

/-! ## Finalization -/

/-- Remove the old DB only after the caller durably records promotion. -/
def finalize_database_cutover (pg : Hooks) (plan : DatabaseCutoverPlan sha256)
    (cutover_durably_recorded : Bool) : SwapM DatabaseCutoverStatus := do
  if cutover_durably_recorded = false then
    .raise (.fence "Refusing to remove the old database before cutover is durably recorded")
  else
  let status ← reconcile_database_cutover pg plan
  if status.isPromoted = false then
    .raise (.cutover .error "Cannot finalize a database cutover that has not been promoted"
      status)
  else if status.state = .FINALIZED then return status
  else if plan.target_oid = none then return { status with state := .FINALIZED }
  else
  match ← (terminate_connections plan.aside_db plan.maintenance_db).attempt with
  | .error (_ : SwapError) =>
    .raise (.cutover .cleanup ("Database promotion succeeded, but connections to the old " ++
      "database could not be terminated") status)
  | .ok () =>
  match ← (reconcile_database_cutover pg plan).attempt with
  | .error e =>
    reraise .cleanup ("Database promotion succeeded, but the old database identity " ++
      "could not be re-verified before cleanup") e
  | .ok status =>
  if status.state = .FINALIZED then return status
  else if status.state ≠ .PROMOTED then
    .raise (.cutover .cleanup
      "Database promotion succeeded, but the old database identity changed before cleanup"
      status)
  else
  match ← (drop_database plan.aside_db plan.maintenance_db).attempt with
  | .error (_ : SwapError) =>
    match ← (reconcile_database_cutover pg plan).attempt with
    | .error e =>
      reraise .cleanup ("Database promotion succeeded, but old-database cleanup " ++
        "failed and its result could not be determined") e
    | .ok after_failure =>
      if after_failure.state = .FINALIZED then return after_failure
      else .raise (.cutover .cleanup ("Database promotion succeeded, but the old database " ++
        "remains and cleanup must be retried") after_failure)
  | .ok () =>
  match ← (reconcile_database_cutover pg plan).attempt with
  | .error e =>
    reraise .cleanup ("Database promotion succeeded and cleanup returned, but the " ++
      "resulting state could not be determined") e
  | .ok finalized =>
  if finalized.state = .FINALIZED then return finalized
  else .raise (.cutover .cleanup ("Database promotion succeeded, but old-database cleanup did " ++
    "not reach the finalized state") finalized)

end DatabaseCutover
