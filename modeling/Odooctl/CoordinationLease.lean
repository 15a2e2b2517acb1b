import Odooctl.InterleavedPrograms
import Odooctl.PitrRestoreRecord
import Odooctl.PythonText

/-!
# The coordination lease of an archive scope

The one object that `adapters/wal_s3.py` creates, renews and deletes to coordinate hosts. A
body is the lease document it holds or names what is wrong with it; its digest, its length
and the time of the server are the provider's. Reading the local clock goes with the `HEAD`
that it is compared with.
-/
namespace CoordinationLease

open EffectPrograms PythonText PitrRestoreRecord

def DEFAULT_COORDINATION_LEASE_TTL_SECONDS : ℤ := 300
def MIN_COORDINATION_LEASE_TTL_SECONDS : ℤ := 30
def MAX_COORDINATION_LEASE_TTL_SECONDS : ℤ := 3600
def MAX_COORDINATION_CLOCK_SKEW_SECONDS : ℕ := 60

def microseconds (seconds : ℕ) : ℕ := seconds * 1000000

inductive LeaseFailure where
  | configuration (message : String)
  | value (message : String)
  | provider (message : String)
  | integrity (message : String)
  | conflict (message : String)
  | lease (message : String)
  | busy (message : String)
  | expired (message : String)
  | clock_skew (message : String)
  | object_not_found (key : String)
  deriving DecidableEq, Repr

/-- `isinstance(exc, WalS3IntegrityError)`. -/
def LeaseFailure.isIntegrity : LeaseFailure → Bool
  | .integrity _ | .conflict _ => true
  | _ => false

structure LeaseDocument where
  cluster_id : String
  generation : ℤ
  lease_id : String
  owner : String
  project : String
  purpose : String
  schema_version : ℤ
  system_identifier : String
  ttl_seconds : ℤ
  type : String
  deriving DecidableEq, Repr

/-- A canonical document of the schema, or bytes that are none and what is said of them. -/
inductive Body where
  | document (fields : LeaseDocument)
  | other (content complaint : String)
  deriving DecidableEq, Repr

/-- The scope of an archive, and what the digest and the length of a body are. -/
structure LeaseAdapter where
  scope_prefix : String
  project : String
  cluster_id : String
  system_identifier : String
  sha256 : Body → String
  size : Body → ℕ

def LeaseAdapter.coordination_lease_key (a : LeaseAdapter) : String :=
  a.scope_prefix ++ "/coordination/pitr-mutation.json"

/-! ## Requests -/

/-- The `Date` header of a response. -/
inductive ServerDate where
  | at (instant : Timestamp)
  | absent
  | invalid
  | naive
  deriving DecidableEq, Repr

structure HeadResponse where
  size : ℕ
  digest : Option String
  etag : Option String
  last_modified : Option Timestamp
  deriving DecidableEq, Repr

/-- An exception of the client: its error code, its HTTP status and its redacted text. -/
structure ClientError where
  code : String
  status : Option ℕ
  detail : String
  deriving DecidableEq, Repr

structure HeadAnswer where
  response : Except ClientError HeadResponse
  date : ServerDate
  local_time : Timestamp

inductive Condition where
  | if_none_match
  | if_match (etag : String)
  deriving DecidableEq, Repr

inductive LeaseCall where
  | uuid4
  | head_object
  | get_object
  | put_object (condition : Condition) (body : Body) (digest : String)
  | delete_object (if_match : String)
  deriving DecidableEq, Repr

abbrev LeaseCall.Answer : LeaseCall → Type
  | .uuid4 => String
  | .head_object => HeadAnswer
  | .get_object => Except ClientError Body
  | _ => Except ClientError Unit

abbrev Lease : Interface := ⟨LeaseCall, LeaseCall.Answer⟩

abbrev LeaseM := Prog Lease LeaseFailure

def refuse_if (c : Prop) [Decidable c] (e : LeaseFailure) : LeaseM Unit :=
  if c then .raise e else .pure ()

/-- The result of a client call as the source keeps it: its exception, if there was one. -/
def original_error (call : LeaseCall) (h : call.Answer = Except ClientError Unit) :
    LeaseM (Option ClientError) :=
  .perform (F := Lease) call fun r => .ok <| match (cast h r : Except ClientError Unit) with
    | .ok () => none
    | .error exc => some exc

def is_not_found (exc : ClientError) : Bool :=
  exc.code ∈ ["404", "NoSuchKey", "NotFound"] || exc.status == some 404

def is_conditional_conflict (exc : ClientError) : Bool :=
  exc.code ∈ ["409", "412", "ConditionalRequestConflict", "PreconditionFailed"] ||
    exc.status ∈ [some 409, some 412]

def provider_error (operation : String) (exc : ClientError) : LeaseFailure :=
  .provider s!"S3 {operation} failed: {exc.detail}"

/-! ## Reading the object -/

structure WalObjectInfo where
  key : String
  size : ℕ
  sha256 : String
  etag : Option String
  last_modified : Option Timestamp
  deriving DecidableEq, Repr

structure CoordinationHead where
  info : Option WalObjectInfo
  server_time : Timestamp
  deriving DecidableEq, Repr

variable (a : LeaseAdapter)

def head_info (key : String) (response : HeadResponse) : Except LeaseFailure WalObjectInfo :=
  match response.digest with
  | none => .error (.integrity s!"S3 object {quoted key} has no valid SHA-256 metadata")
  | some digest => .ok ⟨key, response.size, digest, response.etag, response.last_modified⟩

def response_server_time (operation : String) : ServerDate → Except LeaseFailure Timestamp
  | .at instant => .ok instant
  | .absent => .error (.lease s!"S3 {operation} returned no authoritative server time")
  | .invalid => .error (.lease s!"S3 {operation} returned an invalid server time")
  | .naive => .error (.lease s!"S3 {operation} returned a timezone-naive server time")

/-- The distance of two instants in seconds, as `:.0f` prints it. -/
def rounded_seconds (skew : ℕ) : ℕ :=
  let below := skew / 1000000
  let rest := skew % 1000000
  if rest < 500000 ∨ (rest = 500000 ∧ below % 2 = 0) then below else below + 1

def validate_coordination_time (date : ServerDate) (operation : String) (now : Timestamp) :
    Except LeaseFailure Timestamp := do
  let server_time ← response_server_time operation date
  let skew := (now - server_time) + (server_time - now)
  if microseconds MAX_COORDINATION_CLOCK_SKEW_SECONDS < skew then
    .error (.clock_skew ("Local clock differs from S3 server time by " ++
      s!"{rounded_seconds skew}s; maximum safe skew is {MAX_COORDINATION_CLOCK_SKEW_SECONDS}s"))
  else .ok server_time

/-- What `_coordination_head` makes of the answer to its `HEAD`. -/
def coordination_info (key : String) (now : Option Timestamp) (answer : HeadAnswer) :
    Except LeaseFailure CoordinationHead := do
  let server_time ← validate_coordination_time answer.date ("head " ++ key)
    (now.getD answer.local_time)
  match answer.response with
  | .error exc =>
    if is_not_found exc then .ok ⟨none, server_time⟩
    else .error (provider_error ("head " ++ key) exc)
  | .ok response => do
    let info ← head_info key response
    if info.etag = none ∨ info.etag = some "" then
      .error (.lease s!"S3 coordination object {quoted key} has no ETag")
    else match info.last_modified with
    | none => .error (.lease (s!"S3 coordination object {quoted key} has no authoritative " ++
        "LastModified time"))
    | some modified =>
      if microseconds MAX_COORDINATION_CLOCK_SKEW_SECONDS < modified - server_time then
        .error (.clock_skew
          s!"S3 coordination object {quoted key} has a future LastModified time")
      else .ok ⟨some info, server_time⟩

def coordination_head (now : Option Timestamp) : LeaseM CoordinationHead :=
  .perform (F := Lease) .head_object (coordination_info a.coordination_lease_key now)

/-- `_head`, which looks at no time. -/
def head : LeaseM WalObjectInfo :=
  .perform (F := Lease) .head_object fun answer =>
    match answer.response with
    | .error exc =>
      if is_not_found exc then .error (.object_not_found a.coordination_lease_key)
      else .error (provider_error ("head " ++ a.coordination_lease_key) exc)
    | .ok response => head_info a.coordination_lease_key response

def open_remote_body : LeaseM Body :=
  .perform (F := Lease) .get_object fun answer =>
    match answer with
    | .error exc =>
      if is_not_found exc then .error (.object_not_found a.coordination_lease_key)
      else .error (provider_error ("read " ++ a.coordination_lease_key) exc)
    | .ok body => .ok body

def read_verified (expected_sha256 : String) (expected_size max_bytes : ℕ) :
    LeaseM (WalObjectInfo × Body) := do
  let key := a.coordination_lease_key
  let info ← head a
  refuse_if (info.sha256 ≠ expected_sha256)
    (.integrity s!"S3 object {quoted key} checksum metadata mismatch")
  refuse_if (info.size ≠ expected_size)
    (.integrity (s!"S3 object {quoted key} size mismatch: expected {expected_size}, " ++
      s!"got {info.size}"))
  refuse_if (max_bytes < info.size) (.integrity s!"S3 object {quoted key} exceeds the size limit")
  let body ← open_remote_body a
  refuse_if (max_bytes < a.size body) (.integrity s!"S3 object {quoted key} exceeds the size limit")
  refuse_if (a.size body ≠ info.size ∨ a.sha256 body ≠ expected_sha256)
    (.integrity s!"S3 object {quoted key} content checksum mismatch")
  .pure (info, body)

def MAX_LEASE_BYTES : ℕ := 64 * 1024

/-- The bytes between two looks that agree. -/
def read_stable_coordination_payload (now : Option Timestamp) :
    LeaseM (CoordinationHead × Body) := do
  let key := a.coordination_lease_key
  let before ← coordination_head a now
  match before.info with
  | none => .raise (.object_not_found key)
  | some first => do
    let (info, payload) ← read_verified a first.sha256 first.size MAX_LEASE_BYTES
    let after ← coordination_head a now
    match after.info with
    | none => .raise (.conflict s!"S3 coordination object {quoted key} changed while it was read")
    | some last => do
      refuse_if (last.etag ≠ first.etag ∨ last.sha256 ≠ first.sha256 ∨ info.sha256 ≠ first.sha256)
        (.conflict s!"S3 coordination object {quoted key} changed while it was read")
      .pure (after, payload)

/-! ## The lease -/

structure PitrCoordinationLease where
  key : String
  lease_id : String
  owner : String
  purpose : String
  generation : ℤ
  ttl_seconds : ℤ
  etag : String
  acquired_at : Timestamp
  expires_at : ℤ
  observed_at : Timestamp
  deriving DecidableEq, Repr

def PitrCoordinationLease.expired (lease : PitrCoordinationLease) : Bool :=
  lease.expires_at ≤ lease.observed_at

def lease_document (lease_id owner purpose : String) (generation ttl_seconds : ℤ) :
    LeaseDocument where
  cluster_id := a.cluster_id
  generation := generation
  lease_id := lease_id
  owner := owner
  project := a.project
  purpose := purpose
  schema_version := 1
  system_identifier := a.system_identifier
  ttl_seconds := ttl_seconds
  type := "odooctl-pitr-coordination-lease"

/-- `_LEASE_ID_RE.fullmatch`. -/
def is_lease_id (value : String) : Bool :=
  value.toList.length = 32 &&
    value.toList.all fun c => ('0' ≤ c && c ≤ '9') || ('a' ≤ c && c ≤ 'f')

/-- `_COORDINATION_LABEL_RE.fullmatch`. -/
def is_label (value : String) : Bool :=
  match value.toList with
  | [] => false
  | c :: cs => c.isAlphanum && cs.length ≤ 255 &&
      cs.all fun c => c.isAlphanum || c ∈ ['.', '_', ':', '/', '@', '-']

def bad_label (label : String) : String := s!"{label} must be a non-empty printable string"

def printable_label (value label : String) : LeaseM String :=
  if is_label value then .pure value else .raise (.configuration (bad_label label))

def ttl_in_range (ttl_seconds : ℤ) : Bool :=
  MIN_COORDINATION_LEASE_TTL_SECONDS ≤ ttl_seconds &&
    ttl_seconds ≤ MAX_COORDINATION_LEASE_TTL_SECONDS

/-- The checks of a document, in the order of the source. -/
def check_document (d : LeaseDocument) : Except LeaseFailure Unit :=
  if d.schema_version ≠ 1 ∨ d.type ≠ "odooctl-pitr-coordination-lease" ∨ d.project ≠ a.project ∨
      d.cluster_id ≠ a.cluster_id ∨ d.system_identifier ≠ a.system_identifier then
    .error (.lease "PITR coordination lease does not match this archive scope")
  else if ¬ is_lease_id d.lease_id then
    .error (.lease "PITR coordination lease has an invalid lease_id")
  else if ¬ is_label d.owner then .error (.lease (bad_label "lease owner"))
  else if ¬ is_label d.purpose then .error (.lease (bad_label "lease purpose"))
  else if d.generation < 1 then
    .error (.lease "PITR coordination lease has an invalid generation")
  else if ¬ ttl_in_range d.ttl_seconds then
    .error (.lease "PITR coordination lease has an invalid ttl_seconds")
  else .ok ()

def lease_from_payload (head : CoordinationHead) (payload : Body) (allow_expired : Bool) :
    Except LeaseFailure PitrCoordinationLease :=
  match head.info.bind fun info => info.etag.bind fun etag =>
      info.last_modified.map fun modified => (info.key, etag, modified) with
  | none => .error (.lease "PITR coordination lease disappeared")
  | some (key, etag, acquired_at) =>
    match payload with
    | .other _ complaint => .error (.lease complaint)
    | .document d => do
      check_document a d
      let lease : PitrCoordinationLease :=
        { key, lease_id := d.lease_id, owner := d.owner, purpose := d.purpose,
          generation := d.generation, ttl_seconds := d.ttl_seconds, etag, acquired_at,
          expires_at := acquired_at + d.ttl_seconds * 1000000,
          observed_at := head.server_time }
      if allow_expired = false ∧ lease.expired then
        .error (.expired ("The PITR coordination lease is expired and cannot be stolen " ++
          "automatically"))
      else .ok lease

/-- `except _ObjectNotFound` and `except WalS3IntegrityError` of `_read_coordination_lease`. -/
def as_lease_error (e : LeaseFailure) : LeaseFailure :=
  match e with
  | .object_not_found _ => .lease "PITR coordination lease is missing"
  | e => if e.isIntegrity then .lease "PITR coordination lease failed byte verification" else e

def read_coordination_lease (now : Option Timestamp) (allow_expired : Bool) :
    LeaseM PitrCoordinationLease := do
  let (head, payload) ← (read_stable_coordination_payload a now).mapError as_lease_error
  .ofExcept (lease_from_payload a head payload allow_expired)

def same_lease (expected actual : PitrCoordinationLease) : Bool :=
  expected = { actual with observed_at := expected.observed_at }

def if_match_etag (etag : String) : Except LeaseFailure String :=
  if etag = "" ∨ '"' ∈ etag.toList ∨ '\\' ∈ etag.toList ∨
      etag.toList.any (fun c => c.toNat < 33 || 126 < c.toNat) then
    .error (.lease "S3 coordination object has an unsafe ETag")
  else .ok etag

/-! ## Acquiring and renewing -/

def acquire_coordination_lease (purpose owner : String) (ttl_seconds : ℤ)
    (now : Option Timestamp) : LeaseM PitrCoordinationLease := do
  let key := a.coordination_lease_key
  let safe_purpose ← printable_label purpose "lease purpose"
  let safe_owner ← printable_label owner "lease owner"
  refuse_if (¬ ttl_in_range ttl_seconds) (.value ("ttl_seconds must be between " ++
    s!"{MIN_COORDINATION_LEASE_TTL_SECONDS} and {MAX_COORDINATION_LEASE_TTL_SECONDS}"))
  let existing ← coordination_head a now
  match existing.info with
  | some _ => do
    let current ← read_coordination_lease a now true
    if current.expired then
      .raise (.expired ("An expired PITR coordination lease blocks all mutations; " ++
        "automatic lease stealing is unsafe"))
    else .raise (.busy (s!"PITR coordination is already held by {quoted current.owner} " ++
      s!"for {quoted current.purpose}"))
  | none => do
    let lease_id ← .perform (F := Lease) .uuid4 .ok
    let payload := Body.document (lease_document a lease_id safe_owner safe_purpose 1 ttl_seconds)
    let original ← original_error (.put_object .if_none_match payload (a.sha256 payload)) rfl
    let read ← Prog.attempt (ε := LeaseFailure) (read_stable_coordination_payload a now)
    match read with
    | .error (.object_not_found _) =>
      match original with
      | none => .raise (.lease "PITR coordination lease create was not durable")
      | some exc => .raise (provider_error ("create " ++ key) exc)
    | .error e => .raise e
    | .ok (head, remote_payload) =>
      if remote_payload = payload then
        .ofExcept (lease_from_payload a head remote_payload false)
      else do
        let current ← .ofExcept (lease_from_payload a head remote_payload true)
        if current.expired then
          .raise (.expired ("An expired PITR coordination lease won the acquisition race; " ++
            "automatic lease stealing is unsafe"))
        else match original with
        | some exc =>
          if is_conditional_conflict exc then
            .raise (.busy "Another owner acquired PITR coordination first")
          else .raise (provider_error ("create " ++ key) exc)
        | none => .raise (.busy "Another owner acquired PITR coordination first")

def assert_coordination_lease (lease : PitrCoordinationLease) (now : Option Timestamp) :
    LeaseM PitrCoordinationLease := do
  let current ← read_coordination_lease a now false
  if same_lease lease current then .pure current
  else .raise (.lease "PITR coordination lease identity, generation, or issuance changed")

def renew_coordination_lease (lease : PitrCoordinationLease) (now : Option Timestamp) :
    LeaseM PitrCoordinationLease := do
  let current ← assert_coordination_lease a lease now
  let payload := Body.document (lease_document a current.lease_id current.owner current.purpose
    (current.generation + 1) current.ttl_seconds)
  -- `IfMatch` is computed inside the `try`, so its error is an original error as well.
  let original ← match if_match_etag current.etag with
    | .ok etag => original_error (.put_object (.if_match etag) payload (a.sha256 payload)) rfl
    | .error _ => .pure (some ⟨"", none, "S3 coordination object has an unsafe ETag"⟩)
  let read ← Prog.attempt (ε := LeaseFailure) (read_stable_coordination_payload a now)
  match read with
  | .error (.object_not_found _) =>
    .raise (.lease "PITR coordination lease disappeared during renewal")
  | .error e => .raise e
  | .ok (head, remote_payload) =>
    if remote_payload = payload then
      .ofExcept (lease_from_payload a head remote_payload false)
    else match original with
    | some exc =>
      if is_conditional_conflict exc then
        .raise (.lease "PITR coordination lease CAS renewal lost ownership")
      else .raise (provider_error ("renew " ++ current.key) exc)
    | none => .raise (.lease "PITR coordination lease CAS renewal lost ownership")

/-! ## Releasing -/

/-- What the look after the delete is taken to say. -/
def delete_outcome (etag label : String) (original : Option ClientError)
    (current : CoordinationHead) : Except LeaseFailure Unit :=
  match current.info with
  | none => .ok ()
  | some info =>
    if info.etag ≠ some etag then
      .error (.lease s!"{label} changed before its conditional delete completed")
    else match original with
    | none => .error (.provider (s!"S3 delete {a.coordination_lease_key} reported success but " ++
        "the object remains"))
    | some exc =>
      if is_conditional_conflict exc then
        .error (.lease s!"{label} conditional delete lost its precondition")
      else .error (provider_error ("delete " ++ a.coordination_lease_key) exc)

def conditional_delete (etag : String) (now : Option Timestamp) (label : String) :
    LeaseM Unit := do
  refuse_if (etag = "") (.lease s!"{label} has no ETag for conditional delete")
  let original ← match if_match_etag etag with
    | .ok etag => original_error (.delete_object etag) rfl
    | .error _ => .pure (some ⟨"", none, "S3 coordination object has an unsafe ETag"⟩)
  let current ← coordination_head a now
  .ofExcept (delete_outcome a etag label original current)

def release_coordination_lease (lease : PitrCoordinationLease) (now : Option Timestamp) :
    LeaseM Unit := do
  let current ← read_coordination_lease a now true
  if same_lease lease current then
    conditional_delete a current.etag now "PITR coordination lease"
  else .raise (.lease ("Refusing to release a PITR lease with different identity, generation, " ++
    "or issuance"))

/-- `_CoordinationGuard.__exit__` after the body of its `with` ended. -/
def guard_exit {α : Type} (lease : PitrCoordinationLease) (body : Except LeaseFailure α) :
    LeaseM α :=
  match body with
  | .ok x => do
    release_coordination_lease a lease none
    .pure x
  | .error exc => do
    let _ ← Prog.attempt (ε := LeaseFailure) (release_coordination_lease a lease none)
    .raise exc

end CoordinationLease
