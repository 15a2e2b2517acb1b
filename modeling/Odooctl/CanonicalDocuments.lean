import Odooctl.CheckedLists
import Odooctl.CoordinationLease
import Odooctl.JsonText
import Odooctl.PitrArchive
import Odooctl.S3Objects

/-!
# Lease and pin documents

What `adapters/wal_s3.py` writes into a coordination lease and into a retention pin, and how it
reads the bytes of one. How Python writes a float, compares one with an integer and what `str`
makes of a value that is neither a text nor an integer are parameters.
-/
namespace CanonicalDocuments

open CheckedLists PythonJson JsonText PitrRestoreRecord
open CoordinationLease hiding lease_from_payload
open PitrArchive (PinKind PitrPinnedWal)
open S3Objects (Bytes is_digest)
open WalSegments (isSegmentName)

structure Values where
  float_text : String → List Char
  float_equals : String → ℤ → Bool
  str_of : Json → String

variable (v : Values) (a : LeaseAdapter)

def Values.str : Json → String
  | .str s => s
  | .int i => String.ofList (intText i)
  | value => v.str_of value

/-- `value == n`; `True` is 1. -/
def Values.equals (n : ℤ) : Option Json → Bool
  | some (.int i) => i = n
  | some (.bool b) => b.toInt = n
  | some (.float text) => v.float_equals text n
  | _ => false

/-! ## Texts and bytes -/

def encode_utf8 (text : String) : Bytes := text.toByteArray.data.toList

def decode_utf8 (payload : Bytes) : Option String := String.fromUTF8? ⟨payload.toArray⟩

def canonical_json (document : Json) : Bytes :=
  encode_utf8 (String.ofList (dumps v.float_text document ++ ['\n']))

def strict_json_object (payload : Bytes) (label : String) : Except String Items :=
  match (decode_utf8 payload).bind loads with
  | none => .error s!"{label} is not valid UTF-8 JSON"
  | some (.dict document) =>
    if payload ≠ canonical_json v (.dict document) then .error s!"{label} is not canonical JSON"
    else .ok document
  | some _ => .error s!"{label} must be a JSON object"

/-- `set(document) == fields`. -/
def has_fields (document : Items) (fields : List String) : Bool :=
  (document.all fun m => m.1 ∈ fields) && fields.all fun field => field ∈ document.map Prod.fst

/-- The scope that a document names. -/
def in_scope (type : String) (document : Items) : Bool :=
  v.equals 1 (get document "schema_version") && holds document "type" type &&
    holds document "project" a.project && holds document "cluster_id" a.cluster_id &&
    (get document "system_identifier").any fun value => v.str value = a.system_identifier

def text_field (document : Items) (field : String) : Option String :=
  (get document field).bind Json.asStr

/-! ## Leases -/

def lease_fields : List String :=
  ["cluster_id", "generation", "lease_id", "owner", "project", "purpose", "schema_version",
    "system_identifier", "ttl_seconds", "type"]

def lease_json (d : LeaseDocument) : Json :=
  .dict [("cluster_id", .str d.cluster_id), ("generation", .int d.generation),
    ("lease_id", .str d.lease_id), ("owner", .str d.owner), ("project", .str d.project),
    ("purpose", .str d.purpose), ("schema_version", .int d.schema_version),
    ("system_identifier", .str d.system_identifier), ("ttl_seconds", .int d.ttl_seconds),
    ("type", .str d.type)]

def lease_error {α : Type} (message : String) : Except LeaseFailure α := .error (.lease message)

def lease_id_of (document : Items) : Except LeaseFailure String :=
  match get document "lease_id" with
  | some (.str s) =>
    if is_lease_id s then .ok s
    else lease_error "PITR coordination lease has an invalid lease_id"
  | _ => lease_error "PITR coordination lease has an invalid lease_id"

/-- `_printable_label` of a field; its configuration error is reported as one of the lease. -/
def label_of (document : Items) (field label : String) : Except LeaseFailure String :=
  match get document field with
  | some (.str s) => if is_label s then .ok s else lease_error (bad_label label)
  | _ => lease_error (bad_label label)

def generation_of (document : Items) : Except LeaseFailure ℤ :=
  match get document "generation" with
  | some (.int i) =>
    if i < 1 then lease_error "PITR coordination lease has an invalid generation" else .ok i
  | _ => lease_error "PITR coordination lease has an invalid generation"

def ttl_of (document : Items) : Except LeaseFailure ℤ :=
  match get document "ttl_seconds" with
  | some (.int i) =>
    if ttl_in_range i then .ok i
    else lease_error "PITR coordination lease has an invalid ttl_seconds"
  | _ => lease_error "PITR coordination lease has an invalid ttl_seconds"

/-- The lease that a document describes, as the store shows it. -/
def issued (info : WalObjectInfo) (etag : String) (acquired_at server_time : Timestamp)
    (d : LeaseDocument) : PitrCoordinationLease where
  key := info.key
  lease_id := d.lease_id
  owner := d.owner
  purpose := d.purpose
  generation := d.generation
  ttl_seconds := d.ttl_seconds
  etag := etag
  acquired_at := acquired_at
  expires_at := acquired_at + d.ttl_seconds * 1000000
  observed_at := server_time

def unless_expired (allow_expired : Bool) (lease : PitrCoordinationLease) :
    Except LeaseFailure PitrCoordinationLease :=
  if allow_expired = false ∧ lease.expired = true then
    .error (.expired ("The PITR coordination lease is expired and cannot be stolen " ++
      "automatically"))
  else .ok lease

/-- The fields of a lease document, each checked and the whole compared with the payload. -/
def lease_document_of (payload : Bytes) (document : Items) :
    Except LeaseFailure LeaseDocument := do
  if has_fields document lease_fields = false then
    lease_error "PITR coordination lease has an unexpected schema"
  else if in_scope v a "odooctl-pitr-coordination-lease" document = false then
    lease_error "PITR coordination lease does not match this archive scope"
  else do
    let lease_id ← lease_id_of document
    let owner ← label_of document "owner" "lease owner"
    let purpose ← label_of document "purpose" "lease purpose"
    let generation ← generation_of document
    let ttl_seconds ← ttl_of document
    let d := lease_document a lease_id owner purpose generation ttl_seconds
    if payload ≠ canonical_json v (lease_json d) then
      lease_error "PITR coordination lease has non-canonical field values"
    else .ok d

def lease_from_payload (head : CoordinationHead) (payload : Bytes) (allow_expired : Bool) :
    Except LeaseFailure PitrCoordinationLease :=
  match head.info with
  | some ⟨key, size, sha256, some etag, some modified⟩ => do
    let document ← (strict_json_object v payload "PITR coordination lease").mapError .lease
    let d ← lease_document_of v a payload document
    unless_expired allow_expired
      (issued ⟨key, size, sha256, some etag, some modified⟩ etag modified head.server_time d)
  | _ => lease_error "PITR coordination lease disappeared"

/-- What `acquire_coordination_lease` and `renew_coordination_lease` write. -/
structure BuiltLease where
  lease_id : String
  owner : String
  purpose : String
  generation : ℤ
  ttl_seconds : ℤ
  generated : is_lease_id lease_id = true
  owned : is_label owner = true
  labelled : is_label purpose = true
  counted : 1 ≤ generation
  bounded : ttl_in_range ttl_seconds = true

def BuiltLease.document (l : BuiltLease) : LeaseDocument :=
  lease_document a l.lease_id l.owner l.purpose l.generation l.ttl_seconds

section Leases

variable {v a} {payload : Bytes} {document : Items} {label : String}

theorem decode_encode (text : String) : decode_utf8 (encode_utf8 text) = some text := by
  have hbytes : (⟨(encode_utf8 text).toArray⟩ : ByteArray) = text.toByteArray := by
    simp [encode_utf8]
  have hvalid : text.toByteArray.IsValidUTF8 := text.isValidUTF8
  rw [decode_utf8, hbytes, String.fromUTF8?, dif_pos hvalid]
  rfl

/-- The encoding of a canonical object is accepted and gives the object. -/
theorem strict_canonical (label : String) (h : Canonical (.dict document)) :
    strict_json_object v (canonical_json v (.dict document)) label = .ok document := by
  have hload : (decode_utf8 (canonical_json v (.dict document))).bind loads =
      some (.dict document) := by
    rw [canonical_json, decode_encode, Option.bind_some, loads_dumps h (by simp [JsonText.isBlank])]
  simp [strict_json_object, hload]

theorem lease_json_canonical (d : LeaseDocument) : Canonical (lease_json d) := by
  refine ⟨by simp [CanonicalItems, Canonical], ?_⟩
  rw [← List.pairwise_map (f := Prod.fst) (R := (· < ·))]
  simp only [List.map_cons, List.map_nil]
  decide

theorem lease_document_built (l : BuiltLease) :
    ∃ items, lease_json (l.document a) = .dict items ∧
      lease_document_of v a (canonical_json v (lease_json (l.document a))) items =
        .ok (l.document a) := by
  refine ⟨_, rfl, ?_⟩
  have hgeneration : ¬ l.generation < 1 := by have := l.counted; omega
  simp [lease_document_of, has_fields, lease_fields, in_scope, holds, PythonJson.get, lease_id_of,
    label_of, generation_of, ttl_of, Values.equals, Values.str, BuiltLease.document, lease_document,
    Json.asStr, l.generated, l.owned, l.labelled, l.bounded, hgeneration, bind, Except.bind]

/-- Decoding what the writer has encoded gives the lease back. -/
theorem lease_decoded (l : BuiltLease) (info : WalObjectInfo) {etag : String}
    {modified : Timestamp} (server_time : Timestamp) (allow_expired : Bool)
    (hetag : info.etag = some etag) (hmodified : info.last_modified = some modified) :
    lease_from_payload v a ⟨some info, server_time⟩ (canonical_json v (lease_json (l.document a)))
        allow_expired =
      unless_expired allow_expired (issued info etag modified server_time (l.document a)) := by
  obtain ⟨key, size, sha256, found_etag, last_modified⟩ := info
  cases hetag
  cases hmodified
  obtain ⟨items, hitems, hdocument⟩ := lease_document_built (v := v) (a := a) l
  have hcanonical := lease_json_canonical (l.document a)
  rw [hitems] at hcanonical
  have hstrict := strict_canonical (v := v) "PITR coordination lease" hcanonical
  rw [← hitems] at hstrict
  simp only [lease_from_payload, hstrict, Except.mapError]
  change (lease_document_of v a (canonical_json v (lease_json (l.document a))) items >>= _) = _
  rw [hdocument]
  rfl

/-- The bytes of a lease are what `CoordinationLease` takes for its document. -/
theorem lease_refines (l : BuiltLease) (info : WalObjectInfo) {etag : String}
    {modified : Timestamp} (server_time : Timestamp) (allow_expired : Bool)
    (hetag : info.etag = some etag) (hmodified : info.last_modified = some modified) :
    lease_from_payload v a ⟨some info, server_time⟩ (canonical_json v (lease_json (l.document a)))
        allow_expired =
      CoordinationLease.lease_from_payload a ⟨some info, server_time⟩ (.document (l.document a))
        allow_expired := by
  have hcheck : check_document a (l.document a) = .ok () := by
    have hcounted := l.counted
    simp [check_document, BuiltLease.document, lease_document, l.generated, l.owned, l.labelled,
      l.bounded]
    omega
  rw [lease_decoded l info server_time allow_expired hetag hmodified]
  simp only [CoordinationLease.lease_from_payload, Option.bind_some, hetag, hmodified,
    Option.map_some, hcheck, bind, Except.bind]
  rfl

theorem is_lease_id_of {lease_id : String} (h : lease_id_of document = .ok lease_id) :
    is_lease_id lease_id = true := by
  unfold lease_id_of at h
  split at h
  · split at h
    · next hid =>
      cases h
      exact hid
    · cases h
  · cases h

theorem is_label_of {field value : String} (h : label_of document field label = .ok value) :
    is_label value = true := by
  unfold label_of at h
  split at h
  · split at h
    · next hlabel =>
      cases h
      exact hlabel
    · cases h
  · cases h

theorem generation_pos {generation : ℤ} (h : generation_of document = .ok generation) :
    1 ≤ generation := by
  unfold generation_of at h
  split at h
  · split at h
    · cases h
    · next hgeneration =>
      cases h
      exact not_lt.mp hgeneration
  · cases h

theorem ttl_in_range_of {ttl_seconds : ℤ} (h : ttl_of document = .ok ttl_seconds) :
    ttl_in_range ttl_seconds = true := by
  unfold ttl_of at h
  split at h
  · split at h
    · next hrange =>
      cases h
      exact hrange
    · cases h
  · cases h

/-- A document that is accepted is one that the writer can build, and was written like this. -/
theorem lease_document_payload {d : LeaseDocument}
    (h : lease_document_of v a payload document = .ok d) :
    ∃ l : BuiltLease, l.document a = d ∧ canonical_json v (lease_json d) = payload := by
  unfold lease_document_of at h
  split at h
  · cases h
  split at h
  · cases h
  obtain ⟨lease_id, hid, h⟩ := bind_eq_ok.mp h
  obtain ⟨owner, howner, h⟩ := bind_eq_ok.mp h
  obtain ⟨purpose, hpurpose, h⟩ := bind_eq_ok.mp h
  obtain ⟨generation, hgeneration, h⟩ := bind_eq_ok.mp h
  obtain ⟨ttl_seconds, httl, h⟩ := bind_eq_ok.mp h
  dsimp only at h
  split at h
  · cases h
  · next hsame =>
    cases h
    refine ⟨⟨lease_id, owner, purpose, generation, ttl_seconds, is_lease_id_of hid,
      is_label_of howner, is_label_of hpurpose, generation_pos hgeneration, ttl_in_range_of httl⟩,
      rfl, (not_not.mp hsame).symm⟩

/-- A lease that is decoded has the payload as its encoding. -/
theorem lease_reencoded {head : CoordinationHead} {allow_expired : Bool}
    {lease : PitrCoordinationLease}
    (h : lease_from_payload v a head payload allow_expired = .ok lease) :
    ∃ l : BuiltLease, l.document a = lease_document a lease.lease_id lease.owner lease.purpose
        lease.generation lease.ttl_seconds ∧
      canonical_json v (lease_json (l.document a)) = payload := by
  unfold lease_from_payload at h
  split at h
  · obtain ⟨document, -, h⟩ := bind_eq_ok.mp h
    obtain ⟨d, hd, h⟩ := bind_eq_ok.mp h
    obtain ⟨l, rfl, hpayload⟩ := lease_document_payload hd
    unfold unless_expired at h
    split at h
    · cases h
    · cases h
      exact ⟨l, rfl, hpayload⟩
  · cases h

end Leases

/-! ## Pins -/

/-- A kind that is no key cannot be looked up in a set, which is an error of its own. -/
inductive PinFailure where
  | pin (message : String)
  | unhashable
  deriving DecidableEq, Repr

abbrev Checked := Except PinFailure

def pin_error {α : Type} (message : String) : Checked α := .error (.pin message)

/-- `_SAFE_COMPONENT_RE.fullmatch`. -/
def is_component (value : String) : Bool :=
  match value.toList with
  | [] => false
  | c :: cs => c.isAlphanum && cs.length ≤ 191 &&
      cs.all fun c => c.isAlphanum || c ∈ ['.', '_', '-']

/-- A WAL entry as it stands in a document. -/
structure RawWal where
  filename : Json
  sha256 : Json
  size : Json

def raw (item : PitrPinnedWal) : RawWal := ⟨.str item.filename, .str item.sha256, .int item.size⟩

def filename_of (item : RawWal) : Checked String :=
  match item.filename with
  | .str filename =>
    if isSegmentName filename.toList then .ok filename
    else pin_error "PITR pins may contain only full WAL segment filenames"
  | _ => pin_error "PITR pins may contain only full WAL segment filenames"

def digest_of (filename : String) (item : RawWal) : Checked String :=
  match item.sha256 with
  | .str digest =>
    if is_digest digest then .ok digest
    else pin_error s!"PITR pin WAL {filename} has an invalid SHA-256"
  | _ => pin_error s!"PITR pin WAL {filename} has an invalid SHA-256"

def size_of (filename : String) (item : RawWal) : Checked ℕ :=
  match item.size with
  | .int (.ofNat (n + 1)) => .ok (n + 1)
  | _ => pin_error s!"PITR pin WAL {filename} has an invalid size"

def pinned_wal (item : RawWal) : Checked PitrPinnedWal := do
  let filename ← filename_of item
  let sha256 ← digest_of filename item
  let size ← size_of filename item
  .ok ⟨filename, sha256, size⟩

def timelines (filenames : List String) : List (List Char) :=
  (filenames.map fun filename => filename.toList.take 8).dedup

/-- File names that are unique and in order are those that ascend. -/
def validated_pinned_wal (items : List RawWal) : Checked (List PitrPinnedWal) := do
  let validated ← items.mapM pinned_wal
  let filenames := validated.map PitrPinnedWal.filename
  if validated = [] then pin_error "PITR pin must protect at least one exact WAL segment"
  else if ¬ filenames.Pairwise (· < ·) then
    pin_error "PITR pin WAL segments must be unique and strictly ordered"
  else if (timelines filenames).length ≠ 1 then
    pin_error "PITR pin WAL segments must belong to one timeline"
  else .ok validated

/-- What the arguments of `_pin_document` name. -/
structure PinDocument where
  kind : PinKind
  pin_id : String
  environment : String
  base_backup_id : String
  wal_segments : List PitrPinnedWal
  deriving DecidableEq

def wal_json (item : PitrPinnedWal) : Json :=
  .dict [("filename", .str item.filename), ("sha256", .str item.sha256), ("size", .int item.size)]

def PinDocument.first_wal (d : PinDocument) : String :=
  (d.wal_segments.head?.map PitrPinnedWal.filename).getD ""

def PinDocument.last_wal (d : PinDocument) : String :=
  (d.wal_segments.getLast?.map PitrPinnedWal.filename).getD ""

def pin_json (d : PinDocument) : Json :=
  .dict [("base_backup_id", .str d.base_backup_id), ("cluster_id", .str a.cluster_id),
    ("environment", .str d.environment), ("first_wal", .str d.first_wal),
    ("kind", .str d.kind.text), ("last_wal", .str d.last_wal), ("pin_id", .str d.pin_id),
    ("project", .str a.project), ("schema_version", .int 1),
    ("system_identifier", .str a.system_identifier), ("type", .str "odooctl-pitr-retention-pin"),
    ("wal_count", .int d.wal_segments.length), ("wal_segments", .list (d.wal_segments.map wal_json))]

def pin_fields : List String :=
  ["base_backup_id", "cluster_id", "environment", "first_wal", "kind", "last_wal", "pin_id",
    "project", "schema_version", "system_identifier", "type", "wal_count", "wal_segments"]

def pin_key (kind : PinKind) (pin_id : String) : String :=
  s!"{a.scope_prefix}/pins/{kind.text}/{pin_id}.json"

def kind_of (document : Items) : Checked PinKind :=
  match get document "kind" with
  | some (.str "plan") => .ok .plan
  | some (.str "restore") => .ok .restore
  | some value =>
    if value.hashable then pin_error "PITR pin kind must be 'plan' or 'restore'"
    else .error .unhashable
  | none => pin_error "PITR pin kind must be 'plan' or 'restore'"

def component_of (document : Items) (field : String) : Checked String :=
  let value := ((get document field).map v.str).getD ""
  if is_component value then .ok value
  else pin_error s!"{field} must be one safe identifier component"

def base_id_of (document : Items) : Checked String :=
  match get document "base_backup_id" with
  | some (.str s) =>
    if is_component s then .ok s else pin_error "base_backup_id must be one safe path component"
  | _ => pin_error "base_backup_id must be one safe path component"

def raw_wal : Json → Checked RawWal
  | .dict item =>
    match get item "filename", get item "sha256", get item "size" with
    | some filename, some sha256, some size =>
      if has_fields item ["filename", "sha256", "size"] then .ok ⟨filename, sha256, size⟩
      else pin_error "Remote PITR pin contains an invalid WAL entry"
    | _, _, _ => pin_error "Remote PITR pin contains an invalid WAL entry"
  | _ => pin_error "Remote PITR pin contains an invalid WAL entry"

def raw_segments (document : Items) : Checked (List RawWal) :=
  match get document "wal_segments" with
  | some (.list items) => items.mapM raw_wal
  | _ => pin_error "Remote PITR pin wal_segments must be a list"

def is_bool : Option Json → Bool
  | some (.bool _) => true
  | _ => false

/-- The recorded boundaries and the count are those of the entries. -/
def bounds_hold (document : Items) (d : PinDocument) : Bool :=
  !is_bool (get document "wal_count") &&
    v.equals d.wal_segments.length (get document "wal_count") &&
    holds document "first_wal" d.first_wal && holds document "last_wal" d.last_wal

def pin_document_of (payload : Bytes) (expected_key : String) (document : Items) :
    Checked PinDocument := do
  if has_fields document pin_fields = false then
    pin_error "Remote PITR pin has an unexpected schema"
  else if in_scope v a "odooctl-pitr-retention-pin" document = false then
    pin_error "Remote PITR pin does not match this archive scope"
  else do
    let kind ← kind_of document
    let pin_id ← component_of v document "pin_id"
    let environment ← component_of v document "environment"
    let base_backup_id ← base_id_of document
    if pin_key a kind pin_id ≠ expected_key then
      pin_error "Remote PITR pin identity does not match its object key"
    else do
      let items ← raw_segments document
      let wal_segments ← validated_pinned_wal items
      let d : PinDocument := { kind, pin_id, environment, base_backup_id, wal_segments }
      if bounds_hold v document d = false then
        pin_error "Remote PITR pin WAL boundaries or count are inconsistent"
      else if payload ≠ canonical_json v (pin_json a d) then
        pin_error "Remote PITR pin has non-canonical field values"
      else .ok d

/-- A pin held in the store. -/
structure PitrRemotePin extends PinDocument where
  key : String
  etag : String
  sha256 : String
  last_modified : Timestamp
  deriving DecidableEq

def pin_from_payload (head : CoordinationHead) (payload : Bytes) (expected_key : String) :
    Checked PitrRemotePin :=
  match head.info with
  | some ⟨key, _, sha256, some etag, some last_modified⟩ => do
    let document ← (strict_json_object v payload "Remote PITR pin").mapError .pin
    let d ← pin_document_of v a payload expected_key document
    .ok { d with key, etag, sha256, last_modified }
  | _ => pin_error "Remote PITR pin disappeared"

/-- What `create_pitr_pin` writes. -/
structure BuiltPin extends PinDocument where
  identified : is_component pin_id = true
  placed : is_component environment = true
  based : is_component base_backup_id = true
  validated : validated_pinned_wal (wal_segments.map raw) = .ok wal_segments

section Pins

variable {v a} {payload : Bytes} {document : Items} {d : PinDocument} {expected_key : String}

theorem wal_json_canonical (item : PitrPinnedWal) : Canonical (wal_json item) := by
  refine ⟨by simp [CanonicalItems, Canonical], ?_⟩
  rw [← List.pairwise_map (f := Prod.fst) (R := (· < ·))]
  simp only [List.map_cons, List.map_nil]
  decide

theorem canonicalEach_map {α : Type} {f : α → Json} (h : ∀ x, Canonical (f x)) (l : List α) :
    CanonicalEach (l.map f) := by
  induction l with
  | nil => trivial
  | cons x l ih => exact ⟨h x, ih⟩

theorem pin_json_canonical (d : PinDocument) : Canonical (pin_json a d) := by
  have hsegments := canonicalEach_map wal_json_canonical d.wal_segments
  refine ⟨by simp [CanonicalItems, Canonical, hsegments], ?_⟩
  rw [← List.pairwise_map (f := Prod.fst) (R := (· < ·))]
  simp only [List.map_cons, List.map_nil]
  decide

theorem raw_wal_json (item : PitrPinnedWal) : raw_wal (wal_json item) = .ok (raw item) := by
  simp [raw_wal, wal_json, PythonJson.get, has_fields, raw]

theorem raw_wals_json (items : List PitrPinnedWal) :
    (items.map wal_json).mapM raw_wal = .ok (items.map raw) := by
  rw [mapM_eq_ok]
  induction items with
  | nil => exact List.Forall₂.nil
  | cons item items ih => exact List.Forall₂.cons (raw_wal_json item) ih

theorem kind_built {p : PinDocument} {items : Items} (h : pin_json a p = .dict items) :
    kind_of items = .ok p.kind := by
  cases h
  obtain ⟨kind, pin_id, environment, base_backup_id, wal_segments⟩ := p
  cases kind <;> rfl

theorem scope_built {p : PinDocument} {items : Items} (h : pin_json a p = .dict items) :
    in_scope v a "odooctl-pitr-retention-pin" items = true := by
  cases h
  simp [in_scope, holds, PythonJson.get, Values.equals, Values.str, Json.asStr]

theorem bounds_built {p : PinDocument} {items : Items} (h : pin_json a p = .dict items) :
    bounds_hold v items p = true := by
  cases h
  simp [bounds_hold, holds, PythonJson.get, Values.equals, is_bool, Json.asStr]

theorem pin_document_built (p : BuiltPin) {items : Items}
    (h : pin_json a p.toPinDocument = .dict items) :
    pin_document_of v a (canonical_json v (pin_json a p.toPinDocument))
      (pin_key a p.kind p.pin_id) items = .ok p.toPinDocument := by
  have hkind := kind_built h
  have hscope := scope_built (v := v) h
  have hbounds := bounds_built (v := v) h
  have hfields : has_fields items pin_fields = true := by
    cases h
    simp [has_fields, pin_fields]
  have hid : component_of v items "pin_id" = .ok p.pin_id := by
    cases h
    simp [component_of, PythonJson.get, Values.str, p.identified]
  have henvironment : component_of v items "environment" = .ok p.environment := by
    cases h
    simp [component_of, PythonJson.get, Values.str, p.placed]
  have hbase : base_id_of items = .ok p.base_backup_id := by
    cases h
    simp [base_id_of, PythonJson.get, p.based]
  have hraw : raw_segments items = .ok (p.wal_segments.map raw) := by
    cases h
    exact raw_wals_json p.wal_segments
  simp only [pin_document_of, hfields, hscope, hkind, hid, henvironment, hbase, hraw, p.validated,
    hbounds, bind, Except.bind, reduceCtorEq, if_false, ne_eq, not_true_eq_false]

/-- Decoding what the writer has encoded, under the key it was written to, gives the pin back. -/
theorem pin_decoded (p : BuiltPin) (info : WalObjectInfo) {etag : String} {modified : Timestamp}
    (server_time : Timestamp) (hetag : info.etag = some etag)
    (hmodified : info.last_modified = some modified) :
    pin_from_payload v a ⟨some info, server_time⟩
        (canonical_json v (pin_json a p.toPinDocument)) (pin_key a p.kind p.pin_id) =
      .ok { p.toPinDocument with
        key := info.key, etag := etag, sha256 := info.sha256, last_modified := modified } := by
  obtain ⟨key, size, sha256, found_etag, last_modified⟩ := info
  cases hetag
  cases hmodified
  have hcanonical := pin_json_canonical (a := a) p.toPinDocument
  obtain ⟨items, hitems⟩ : ∃ items, pin_json a p.toPinDocument = .dict items := ⟨_, rfl⟩
  have hdocument := pin_document_built (v := v) p hitems
  rw [hitems] at hcanonical
  have hstrict := strict_canonical (v := v) "Remote PITR pin" hcanonical
  rw [← hitems] at hstrict
  simp only [pin_from_payload, hstrict, Except.mapError]
  change (pin_document_of v a _ _ items >>= _) = _
  rw [hdocument]
  rfl

theorem is_component_of {field value : String} (h : component_of v document field = .ok value) :
    is_component value = true := by
  unfold component_of at h
  dsimp only at h
  split at h
  · next hvalue =>
    cases h
    exact hvalue
  · cases h

theorem is_base_id_of {value : String} (h : base_id_of document = .ok value) :
    is_component value = true := by
  unfold base_id_of at h
  split at h
  · split at h
    · next hvalue =>
      cases h
      exact hvalue
    · cases h
  · cases h

/-- An entry that was checked passes the check again. -/
theorem pinned_wal_again {item : RawWal} {wal : PitrPinnedWal} (h : pinned_wal item = .ok wal) :
    pinned_wal (raw wal) = .ok wal := by
  obtain ⟨filename, hfilename, h⟩ := bind_eq_ok.mp h
  obtain ⟨digest, hdigest, h⟩ := bind_eq_ok.mp h
  obtain ⟨size, hsize, h⟩ := bind_eq_ok.mp h
  cases h
  have hname : isSegmentName filename.toList = true := by
    unfold filename_of at hfilename
    split at hfilename
    · split at hfilename
      · next hname =>
        cases hfilename
        exact hname
      · cases hfilename
    · cases hfilename
  have his : is_digest digest = true := by
    unfold digest_of at hdigest
    split at hdigest
    · split at hdigest
      · next his =>
        cases hdigest
        exact his
      · cases hdigest
    · cases hdigest
  obtain ⟨n, rfl⟩ : ∃ n, size = n + 1 := by
    unfold size_of at hsize
    split at hsize
    · cases hsize
      exact ⟨_, rfl⟩
    · cases hsize
  simp only [pinned_wal, filename_of, digest_of, raw, hname, his, if_true, bind, Except.bind]
  rfl

theorem pinned_wals_again {items : List RawWal} {wals : List PitrPinnedWal}
    (h : items.mapM pinned_wal = .ok wals) : (wals.map raw).mapM pinned_wal = .ok wals := by
  rw [mapM_eq_ok] at h ⊢
  induction h with
  | nil => exact List.Forall₂.nil
  | cons hitem _ ih => exact List.Forall₂.cons (pinned_wal_again hitem) ih

theorem validated_again {items : List RawWal} {wals : List PitrPinnedWal}
    (h : validated_pinned_wal items = .ok wals) :
    validated_pinned_wal (wals.map raw) = .ok wals := by
  obtain ⟨validated, hvalidated, h⟩ := bind_eq_ok.mp h
  have hwals : validated = wals := by
    dsimp only at h
    split at h
    · cases h
    split at h
    · cases h
    split at h
    · cases h
    · exact Except.ok.inj h
  subst hwals
  rw [validated_pinned_wal, pinned_wals_again hvalidated]
  exact h

theorem pin_document_payload (h : pin_document_of v a payload expected_key document = .ok d) :
    ∃ p : BuiltPin, p.toPinDocument = d ∧ pin_key a d.kind d.pin_id = expected_key ∧
      canonical_json v (pin_json a d) = payload := by
  unfold pin_document_of at h
  split at h
  · cases h
  split at h
  · cases h
  obtain ⟨kind, -, h⟩ := bind_eq_ok.mp h
  obtain ⟨pin_id, hid, h⟩ := bind_eq_ok.mp h
  obtain ⟨environment, henvironment, h⟩ := bind_eq_ok.mp h
  obtain ⟨base_backup_id, hbase, h⟩ := bind_eq_ok.mp h
  split at h
  · cases h
  next hkey =>
  obtain ⟨items, -, h⟩ := bind_eq_ok.mp h
  obtain ⟨wal_segments, hwal, h⟩ := bind_eq_ok.mp h
  dsimp only at h
  split at h
  · cases h
  split at h
  · cases h
  · next hsame =>
    cases h
    exact ⟨⟨_, is_component_of hid, is_component_of henvironment, is_base_id_of hbase,
      validated_again hwal⟩, rfl, not_not.mp hkey, (not_not.mp hsame).symm⟩

/-- A pin that is decoded has the payload as its encoding. -/
theorem pin_reencoded {head : CoordinationHead} {pin : PitrRemotePin}
    (h : pin_from_payload v a head payload expected_key = .ok pin) :
    ∃ p : BuiltPin, p.toPinDocument = pin.toPinDocument ∧
      pin_key a pin.kind pin.pin_id = expected_key ∧
      canonical_json v (pin_json a p.toPinDocument) = payload := by
  unfold pin_from_payload at h
  split at h
  · obtain ⟨document, -, h⟩ := bind_eq_ok.mp h
    obtain ⟨d, hd, h⟩ := bind_eq_ok.mp h
    cases h
    obtain ⟨p, rfl, hkey, hpayload⟩ := pin_document_payload hd
    exact ⟨p, rfl, hkey, hpayload⟩
  · cases h

end Pins

/-- The decoders accept the encodings of what the writer can build and nothing else, and give
back what was encoded. Whether a lease has expired is not for its bytes to say. -/
theorem decoders_accept_encodings :
    (∀ (l : BuiltLease) (info : WalObjectInfo) (etag : String)
        (modified server_time : Timestamp) (allow_expired : Bool),
      info.etag = some etag → info.last_modified = some modified →
        lease_from_payload v a ⟨some info, server_time⟩
            (canonical_json v (lease_json (l.document a))) allow_expired =
          unless_expired allow_expired
            (issued info etag modified server_time (l.document a))) ∧
    (∀ (head : CoordinationHead) (payload : Bytes) (allow_expired : Bool)
        (lease : PitrCoordinationLease),
      lease_from_payload v a head payload allow_expired = .ok lease →
        ∃ l : BuiltLease, l.document a = lease_document a lease.lease_id lease.owner
            lease.purpose lease.generation lease.ttl_seconds ∧
          canonical_json v (lease_json (l.document a)) = payload) ∧
    (∀ (p : BuiltPin) (info : WalObjectInfo) (etag : String) (modified server_time : Timestamp),
      info.etag = some etag → info.last_modified = some modified →
        pin_from_payload v a ⟨some info, server_time⟩
            (canonical_json v (pin_json a p.toPinDocument)) (pin_key a p.kind p.pin_id) =
          .ok { p.toPinDocument with
            key := info.key, etag := etag, sha256 := info.sha256, last_modified := modified }) ∧
    (∀ (head : CoordinationHead) (payload : Bytes) (expected_key : String)
        (pin : PitrRemotePin),
      pin_from_payload v a head payload expected_key = .ok pin →
        ∃ p : BuiltPin, p.toPinDocument = pin.toPinDocument ∧
          pin_key a pin.kind pin.pin_id = expected_key ∧
          canonical_json v (pin_json a p.toPinDocument) = payload) := by
  refine ⟨?_, ?_, ?_, ?_⟩
  · intro l info etag modified server_time allow_expired hetag hmodified
    exact lease_decoded l info server_time allow_expired hetag hmodified
  · intro head payload allow_expired lease h
    exact lease_reencoded h
  · intro p info etag modified server_time hetag hmodified
    exact pin_decoded p info server_time hetag hmodified
  · intro head payload expected_key pin h
    exact pin_reencoded h

/-! ## A lease and a pin -/

def shopAdapter : LeaseAdapter where
  scope_prefix := "wal"
  project := "Shop \"B\" \\ Süd"
  cluster_id := "main"
  system_identifier := "7391038474"
  sha256 := fun _ => ""
  size := fun _ => 0

def floatless : Values := ⟨String.toList, fun _ _ => false, fun _ => ""⟩

def shopLease : BuiltLease where
  lease_id := "0123456789abcdef0123456789abcdef"
  owner := "host-a"
  purpose := "plan:create"
  generation := 12
  ttl_seconds := 300
  generated := by decide
  owned := by decide
  labelled := by decide
  counted := by decide
  bounded := by decide

def shopWal : PitrPinnedWal where
  filename := "00000001000000000000000A"
  sha256 := "88cf692f346579b27b9e02f5811e0c997f3a625b142a91aabf56a824e3678fc5"
  size := 16777216

def shopPin : BuiltPin where
  kind := .plan
  pin_id := "production_pitr_plan_abc"
  environment := "production"
  base_backup_id := "production_base_abc"
  wal_segments := [shopWal]
  identified := by decide
  placed := by decide
  based := by decide
  validated := by decide +kernel

def shopInfo (key : String) : WalObjectInfo := ⟨key, 300, "", some "etag", some 0⟩

/-- Both are decoded, and what is decoded encodes to the bytes that were read. -/
theorem shop_documents_decoded :
    (∃ lease, lease_from_payload floatless shopAdapter ⟨some (shopInfo "lease"), 0⟩
        (canonical_json floatless (lease_json (shopLease.document shopAdapter))) false = .ok lease ∧
      lease.generation = 12 ∧ ∃ l : BuiltLease,
        canonical_json floatless (lease_json (l.document shopAdapter)) =
          canonical_json floatless (lease_json (shopLease.document shopAdapter))) ∧
    ∃ pin, pin_from_payload floatless shopAdapter ⟨some (shopInfo "pin"), 0⟩
        (canonical_json floatless (pin_json shopAdapter shopPin.toPinDocument))
        (pin_key shopAdapter .plan "production_pitr_plan_abc") = .ok pin ∧
      pin.wal_segments = [shopWal] ∧ ∃ p : BuiltPin,
        canonical_json floatless (pin_json shopAdapter p.toPinDocument) =
          canonical_json floatless (pin_json shopAdapter shopPin.toPinDocument) := by
  obtain ⟨hlease, hlease', hpin, hpin'⟩ := decoders_accept_encodings floatless shopAdapter
  have hl := hlease shopLease (shopInfo "lease") "etag" 0 0 false rfl rfl
  have hp := hpin shopPin (shopInfo "pin") "etag" 0 0 rfl rfl
  obtain ⟨l, -, hreencoded⟩ := hlease' _ _ _ _ hl
  obtain ⟨p, -, -, hrepinned⟩ := hpin' _ _ _ _ hp
  exact ⟨⟨_, hl, rfl, l, hreencoded⟩, _, hp, rfl, p, hrepinned⟩

end CanonicalDocuments
