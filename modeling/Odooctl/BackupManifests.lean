import Odooctl.PitrRetention
import Odooctl.PythonJson
import Odooctl.S3Objects

/-!
# Manifests of portable backups

`BackupManifest` of `metadata/models.py`, the files that carry it, and the selection of
restore points that local and remote retention share. An instant counts microseconds from
the first one there is.
-/
namespace BackupManifests

open PythonJson
open PitrRestoreRecord (Timestamp)
open PitrRetention (HOUR newestFirst)
open S3Objects (Bytes is_digest)

/-! ## The calendar -/

def DAY : ℕ := 24 * HOUR

def DAYS_PER_ERA : ℕ := 146097

/-- Year, month and day. Years are counted from March, eras are of 400 years. -/
def civil (day : ℕ) : ℕ × ℕ × ℕ :=
  let z := day + 306
  let doe := z % DAYS_PER_ERA
  let yoe := (doe - doe / 1460 + doe / 36524 - doe / 146096) / 365
  let doy := doe - (365 * yoe + yoe / 4 - yoe / 100)
  let mp := (5 * doy + 2) / 153
  let month := if mp < 10 then mp + 3 else mp - 9
  let year := yoe + z / DAYS_PER_ERA * 400 + (if month ≤ 2 then 1 else 0)
  (year, month, doy - (153 * mp + 2) / 5 + 1)

example : civil 0 = (1, 1, 1) ∧ civil 738885 = (2024, 1, 1) ∧ civil 738944 = (2024, 2, 29) := by
  decide

def date (t : Timestamp) : ℕ := t / DAY

/-- The first day there is was a Monday, so a week is a year and a week of `isocalendar`. -/
def iso_week (t : Timestamp) : ℕ := t / (7 * DAY)

def month (t : Timestamp) : ℕ × ℕ := ((civil (date t)).1, (civil (date t)).2.1)

def padded (width n : ℕ) : String :=
  let digits := Nat.toDigits 10 n
  String.ofList (List.replicate (width - digits.length) '0' ++ digits)

/-- `isoformat(timespec="seconds")` without its offset. -/
def isoformat (t : Timestamp) : String :=
  let (year, month, day) := civil (date t)
  let seconds := t % DAY / 1000000
  s!"{padded 4 year}-{padded 2 month}-{padded 2 day}T{padded 2 (seconds / 3600)}:" ++
    s!"{padded 2 (seconds / 60 % 60)}:{padded 2 (seconds % 60)}"

/-- `_now_utc`. -/
def _now_utc (t : Timestamp) : String := s!"{isoformat t}.{padded 6 (t % 1000000)}Z"

/-- `now_utc` of the models. -/
def now_utc (t : Timestamp) : String := s!"{isoformat t}Z"

/-- `strftime("%Y-%m-%d_%H%M%S")`. -/
def stamp (t : Timestamp) : String :=
  String.ofList (((isoformat t).toList.map fun c => if c = 'T' then '_' else c).filter (· ≠ ':'))

/-- `current - timedelta(hours=hours)`. -/
def hours_before (current : Timestamp) (hours : ℕ) : Except String Timestamp :=
  if hours > 24 * 999999999 + 23 then .error "days; must have magnitude <= 999999999"
  else if current < hours * HOUR then .error "date value out of range"
  else .ok (current - hours * HOUR)

/-! ## The manifest -/

inductive RemoteStatus where
  | disabled
  | pending
  | complete
  | degraded
  | failed
  deriving DecidableEq, Repr

def RemoteStatus.text : RemoteStatus → String
  | .disabled => "disabled"
  | .pending => "pending"
  | .complete => "complete"
  | .degraded => "degraded"
  | .failed => "failed"

def RemoteStatus.parse : String → Option RemoteStatus
  | "disabled" => some .disabled
  | "pending" => some .pending
  | "complete" => some .complete
  | "degraded" => some .degraded
  | "failed" => some .failed
  | _ => none

structure BackupManifest where
  schema_version : ℤ := 1
  backup_id : String
  project : String
  environment : String
  timestamp : String
  db_name : String
  filestore_path : Option String := none
  artifact_paths : List String := []
  db_dump : String := "db.dump"
  filestore : String := "filestore.tar"
  git_commit : Option String := none
  docker_image : Option String := none
  odoo_version : String
  backup_mode : String := "full"
  checksums : List (String × String) := []
  encryption : Option (List (String × String)) := none
  remote_uri : Option String := none
  remote_status : RemoteStatus := .disabled
  remote_verified_at : Option String := none
  remote_error : Option String := none
  status : String := "complete"
  deriving DecidableEq, Repr

def optional (value : Option String) : Json := (value.map Json.str).getD .null

def mapping (items : List (String × String)) : Json :=
  .dict (items.map fun item => (item.1, .str item.2))

/-- What `model_dump_json` writes. -/
def BackupManifest.toItems (m : BackupManifest) : Items :=
  [("schema_version", .int m.schema_version),
   ("backup_id", .str m.backup_id),
   ("project", .str m.project),
   ("environment", .str m.environment),
   ("timestamp", .str m.timestamp),
   ("db_name", .str m.db_name),
   ("filestore_path", optional m.filestore_path),
   ("artifact_paths", .list (m.artifact_paths.map Json.str)),
   ("db_dump", .str m.db_dump),
   ("filestore", .str m.filestore),
   ("git_commit", optional m.git_commit),
   ("docker_image", optional m.docker_image),
   ("odoo_version", .str m.odoo_version),
   ("backup_mode", .str m.backup_mode),
   ("checksums", mapping m.checksums),
   ("encryption", (m.encryption.map mapping).getD .null),
   ("remote_uri", optional m.remote_uri),
   ("remote_status", .str m.remote_status.text),
   ("remote_verified_at", optional m.remote_verified_at),
   ("remote_error", optional m.remote_error),
   ("status", .str m.status)]

/-- `_mark_remote_abandoned`'s marker. -/
structure AbandonmentMarker where
  schema_version : ℤ := 1
  status : String := "abandoned"
  backup_id : String
  project : String
  environment : String
  abandoned_at : String
  cleanup_token : String
  deriving DecidableEq, Repr

def AbandonmentMarker.toItems (marker : AbandonmentMarker) : Items :=
  [("schema_version", .int marker.schema_version),
   ("status", .str marker.status),
   ("backup_id", .str marker.backup_id),
   ("project", .str marker.project),
   ("environment", .str marker.environment),
   ("abandoned_at", .str marker.abandoned_at),
   ("cleanup_token", .str marker.cleanup_token)]

/-! ## Files -/

/-- What a file holds. A text that was dumped from a record is known by that record. -/
inductive Body where
  | bytes (content : Bytes)
  | manifest (m : BackupManifest)
  | fence (marker : AbandonmentMarker)
  deriving DecidableEq, Repr

def textBody (text : String) : Body := .bytes text.toUTF8.toList

/-- SHA-256, `json.loads`, `datetime.fromisoformat`, Pydantic's reading of an integer and the
texts of other people's exceptions. -/
structure Formats where
  size : Body → ℕ
  sha256 : Body → String
  json_loads : Bytes → Except String Json
  int_of : Json → Option ℤ
  validation_error : Json → String
  fromisoformat : String → Option Timestamp
  redact : String → String
  hexdigest : ∀ body, is_digest (sha256 body) = true

variable (f : Formats)

/-- `json.loads(path.read_text())`. -/
def Formats.loads : Body → Except String Json
  | .bytes content => f.json_loads content
  | .manifest m => .ok (.dict m.toItems)
  | .fence marker => .ok (.dict marker.toItems)

def Formats.int : Json → Option ℤ
  | .int i => some i
  | value => f.int_of value

/-! ## Reading a manifest -/

/-- A field that must be a text. -/
def textField (raw : Items) (key : String) : Option String := (get raw key).bind Json.asStr

def textOr (raw : Items) (key default_ : String) : Option String :=
  match get raw key with
  | none => some default_
  | some value => value.asStr

def optionalText (raw : Items) (key : String) : Option (Option String) :=
  match get raw key with
  | none | some .null => some none
  | some value => value.asStr.map some

def asTexts : Json → Option (List String)
  | .list items => items.mapM Json.asStr
  | _ => none

def asMapping : Json → Option (List (String × String))
  | .dict items => items.mapM fun item => item.2.asStr.map fun value => (item.1, value)
  | _ => none

def schemaField (raw : Items) : Option ℤ :=
  match get raw "schema_version" with
  | none => some 1
  | some value => f.int value

def remoteStatusField (raw : Items) : Option RemoteStatus :=
  match get raw "remote_status" with
  | none => some .disabled
  | some value => value.asStr >>= RemoteStatus.parse

def encryptionField (raw : Items) : Option (Option (List (String × String))) :=
  match get raw "encryption" with
  | none | some .null => some none
  | some value => (asMapping value).map some

/-- `BackupManifest.model_validate`; `now` is what an absent timestamp becomes. -/
def model_validate (now : Timestamp) (raw : Items) : Option BackupManifest := do
  let schema_version ← schemaField f raw
  let backup_id ← textField raw "backup_id"
  let project ← textField raw "project"
  let environment ← textField raw "environment"
  let timestamp ← textOr raw "timestamp" (now_utc now)
  let db_name ← textField raw "db_name"
  let filestore_path ← optionalText raw "filestore_path"
  let artifact_paths ← ((get raw "artifact_paths").map asTexts).getD (some [])
  let db_dump ← textOr raw "db_dump" "db.dump"
  let filestore ← textOr raw "filestore" "filestore.tar"
  let git_commit ← optionalText raw "git_commit"
  let docker_image ← optionalText raw "docker_image"
  let odoo_version ← textField raw "odoo_version"
  let backup_mode ← textOr raw "backup_mode" "full"
  let checksums ← ((get raw "checksums").map asMapping).getD (some [])
  let encryption ← encryptionField raw
  let remote_uri ← optionalText raw "remote_uri"
  let remote_status ← remoteStatusField raw
  let remote_verified_at ← optionalText raw "remote_verified_at"
  let remote_error ← optionalText raw "remote_error"
  let status ← textOr raw "status" "complete"
  return { schema_version, backup_id, project, environment, timestamp, db_name, filestore_path,
           artifact_paths, db_dump, filestore, git_commit, docker_image, odoo_version, backup_mode,
           checksums, encryption, remote_uri, remote_status, remote_verified_at, remote_error,
           status }

/-- `BackupManifest.model_validate_json`. -/
def Formats.model_validate_json (now : Timestamp) (body : Body) : Except String BackupManifest :=
  match f.loads body with
  | .error e => .error e
  | .ok (.dict raw) =>
    match model_validate f now raw with
    | some m => .ok m
    | none => .error (f.validation_error (.dict raw))
  | .ok value => .error (f.validation_error value)

/-- `==` of two mappings. -/
def sameMapping (xs ys : List (String × String)) : Bool :=
  xs.all (fun item => ys.lookup item.1 == xs.lookup item.1) &&
    ys.all fun item => xs.lookup item.1 == ys.lookup item.1

/-- `==` of two manifests. -/
def BackupManifest.same (m n : BackupManifest) : Bool :=
  sameMapping m.checksums n.checksums &&
    (match m.encryption, n.encryption with
      | some xs, some ys => sameMapping xs ys
      | none, none => true
      | _, _ => false) &&
    { m with checksums := [], encryption := none } == { n with checksums := [], encryption := none }

section Dumped

variable {f}

theorem asStr_str (s : String) : Json.asStr (.str s) = some s := rfl

theorem mapM_asStr (texts : List String) :
    (texts.map Json.str).mapM Json.asStr = some texts := by
  induction texts with
  | nil => rfl
  | cons s rest ih => simp [List.mapM_cons, asStr_str, ih]

theorem asMapping_mapping (items : List (String × String)) :
    asMapping (mapping items) = some items := by
  unfold asMapping mapping
  induction items with
  | nil => rfl
  | cons item rest ih =>
    dsimp only at ih ⊢
    simp [List.mapM_cons, asStr_str, ih]

theorem parse_text (status : RemoteStatus) : RemoteStatus.parse status.text = some status := by
  cases status <;> rfl

theorem optionalText_dumped {raw : Items} {key : String} (value : Option String)
    (h : get raw key = some (optional value)) : optionalText raw key = some value := by
  unfold optionalText
  rw [h]
  cases value with
  | none => rfl
  | some s => rfl

theorem encryption_dumped (m : BackupManifest) : encryptionField m.toItems = some m.encryption := by
  have h : get m.toItems "encryption" = some ((m.encryption.map mapping).getD .null) := rfl
  unfold encryptionField
  rw [h]
  cases m.encryption with
  | none => rfl
  | some items => exact congrArg (Option.map some) (asMapping_mapping items)

/-- A dumped manifest is read back as it was. -/
theorem model_validate_toItems (now : Timestamp) (m : BackupManifest) :
    model_validate f now m.toItems = some m := by
  have hstatus : remoteStatusField m.toItems = some m.remote_status := parse_text m.remote_status
  have hpaths : ((get m.toItems "artifact_paths").map asTexts).getD (some []) =
      some m.artifact_paths := mapM_asStr m.artifact_paths
  have hsums : ((get m.toItems "checksums").map asMapping).getD (some []) = some m.checksums :=
    asMapping_mapping m.checksums
  unfold model_validate
  rw [hstatus, hpaths, hsums, encryption_dumped, optionalText_dumped m.filestore_path rfl,
    optionalText_dumped m.git_commit rfl,
    optionalText_dumped m.docker_image rfl,
    optionalText_dumped m.remote_uri rfl,
    optionalText_dumped m.remote_verified_at rfl,
    optionalText_dumped m.remote_error rfl]
  rfl

/-- A manifest has the identity of the mapping it was read from. -/
theorem model_validate_id {now : Timestamp} {raw : Items} {m : BackupManifest}
    (h : model_validate f now raw = some m) : textField raw "backup_id" = some m.backup_id := by
  unfold model_validate at h
  obtain ⟨_, -, h⟩ := Option.bind_eq_some_iff.mp h
  obtain ⟨backup_id, hid, h⟩ := Option.bind_eq_some_iff.mp h
  iterate 19 obtain ⟨_, -, h⟩ := Option.bind_eq_some_iff.mp h
  obtain rfl := Option.some.inj h
  exact hid

/-- And its owner. -/
theorem model_validate_owner {now : Timestamp} {raw : Items} {m : BackupManifest}
    (h : model_validate f now raw = some m) :
    textField raw "project" = some m.project ∧ textField raw "environment" = some m.environment := by
  unfold model_validate at h
  iterate 2 obtain ⟨_, -, h⟩ := Option.bind_eq_some_iff.mp h
  obtain ⟨project, hproject, h⟩ := Option.bind_eq_some_iff.mp h
  obtain ⟨environment, henvironment, h⟩ := Option.bind_eq_some_iff.mp h
  iterate 17 obtain ⟨_, -, h⟩ := Option.bind_eq_some_iff.mp h
  obtain rfl := Option.some.inj h
  exact ⟨hproject, henvironment⟩

end Dumped

/-! ## Retention -/

/-- The newest candidate of each of the first `count` periods; candidates come newest first. -/
def retain_periods {β : Type} [DecidableEq β] (bucket_for : Timestamp → β) :
    ℕ → List β → List (Timestamp × String) → List String
  | 0, _, _ | _, _, [] => []
  | count + 1, periods, (t, backup_id) :: rest =>
    if bucket_for t ∈ periods then retain_periods bucket_for (count + 1) periods rest
    else backup_id :: retain_periods bucket_for count (bucket_for t :: periods) rest

structure RetentionConfig where
  daily : ℕ := 7
  weekly : ℕ := 4
  monthly : ℕ := 6
  grace_hours : ℕ := 1
  grace_positive : 1 ≤ grace_hours

/-- The union of the tiers. -/
def gfs_ids (daily weekly monthly : ℕ) (ordered : List (Timestamp × String)) : List String :=
  retain_periods date daily [] ordered ++ retain_periods iso_week weekly [] ordered ++
    retain_periods month monthly [] ordered

end BackupManifests
