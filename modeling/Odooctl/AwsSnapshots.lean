import Mathlib.Data.List.Dedup
import Odooctl.BackupSelection
import Odooctl.PythonIntegers
import Odooctl.SnapshotService

/-!
# Snapshots of EBS volumes

`AwsEbsSnapshotProvider` of `adapters/snapshots.py` up to the restore. A command of the AWS CLI
is one operation; the arguments that every command ends with are those of the configuration.
The clock answers how many rounds a loop makes before its deadline.
-/
namespace AwsSnapshots

open EffectPrograms PythonJson PythonText SnapshotService
open BackupSelection (truthy reprJson)

/-! ## The command line -/

structure SnapshotTags where
  snapshot_id : String
  project : String
  environment : String
  deriving DecidableEq, Repr

inductive Command where
  | version
  | describe_instances (instance_id : String)
  | describe_volumes (volume_ids : List String)
  | create_snapshots (instance_id : String) (exclude_boot_volume : Bool) (description : String)
      (tags : SnapshotTags)
  | describe_snapshots (snapshot_ids : List String) (snapshot_id_tag : Option String)
  | get_caller_identity
  deriving DecidableEq, Repr

/-- Standard output is the JSON value that it is the text of, if it is any. -/
structure CommandResult where
  returncode : ℤ
  stdout : Option Json

inductive AwsCall where
  | run (config : AwsEbsSnapshotConfig) (command : Command) (check : Bool)
  | rounds (seconds : ℕ)

/-- An exception of `run` replies as its text; with `check` that includes a failed command. -/
def AwsCall.Answer : AwsCall → Type
  | .run _ _ _ => Except String CommandResult
  | .rounds _ => ℕ

abbrev Aws : Interface := ⟨AwsCall, AwsCall.Answer⟩

abbrev AwsM := Prog Aws String

def run (config : AwsEbsSnapshotConfig) (command : Command) (check : Bool := true) :
    AwsM CommandResult :=
  .perform (F := Aws) (.run config command check) id

def rounds (seconds : ℕ) : AwsM ℕ := .perform (F := Aws) (.rounds seconds) .ok

def probe (config : AwsEbsSnapshotConfig) : AwsM Unit := do
  let _ ← run config .version

/-- `_json`. -/
def asJson (result : CommandResult) (operation : String) : Except String Items :=
  match result.stdout with
  | some (.dict data) => .ok data
  | some _ => .error s!"AWS CLI returned an invalid result for {operation}"
  | none => .error s!"AWS CLI returned invalid JSON for {operation}"

/-! ## Values of a reply -/

/-- `str(value)`. -/
def str : Json → String
  | .str s => s
  | v => reprJson v

/-- `mapping.get(key)` where it is true. -/
def given (items : Items) (key : String) : Option Json := (get items key).filter truthy

def givenText (items : Items) (key : String) : Option String := (given items key).map str

def asDict : Json → Option Items
  | .dict items => some items
  | _ => none

/-- The text of an attribute that is set and not empty. -/
def nonempty (text : Option String) : Option String := text.filter (· ≠ "")

section Integers

variable (truncated : String → Except String ℤ)

/-- `int(value)`; `truncated` is that of a float by its text. -/
def intOf : Json → Except String ℤ
  | .int i => .ok i
  | .bool b => .ok (if b then 1 else 0)
  | .float text => truncated text
  | .str s =>
    match PythonIntegers.int 10 s.toList with
    | some i => .ok i
    | none => .error s!"invalid literal for int() with base 10: {quoted s}"
  | .null => .error (not_number "NoneType")
  | .list _ => .error (not_number "list")
  | .dict _ => .error (not_number "dict")
where
  not_number (type : String) : String :=
    s!"int() argument must be a string, a bytes-like object or a real number, not '{type}'"

/-- `int(value) if value is not None else None`. -/
def optionalInt : Json → Except String (Option ℤ)
  | .null => .ok none
  | v => (intOf truncated v).map some

end Integers

/-! ## The source of a snapshot -/

/-- One entry of `volume_metadata`. -/
structure VolumeMetadata where
  volume_id : String
  device_name : String
  root_device : Bool
  availability_zone : Option String
  size_gib : Json
  volume_type : Option String
  iops : Json
  throughput_mibps : Json
  encrypted : Json
  kms_key_id : Option String

structure Source where
  volume_metadata : List VolumeMetadata
  provider_scope : List (String × String)
  provider_metadata : List (String × Scalar)

/-- The first instance of the configuration among those of one reservation. -/
def instanceOf (config : AwsEbsSnapshotConfig) (reservation : Items) : Option Items :=
  match get reservation "Instances" with
  | some (.list instances) =>
    (instances.filterMap asDict).find? fun candidate =>
      holds candidate "InstanceId" config.instance_id
  | _ => none

/-- The instance and its owner after every reservation; a later one replaces them. -/
def find_instance (config : AwsEbsSnapshotConfig) (reservations : List Json) :
    Option Items × Option String :=
  (reservations.filterMap asDict).foldl (fun found reservation =>
    match instanceOf config reservation with
    | some ec2_instance =>
      (some ec2_instance, (givenText reservation "OwnerId").orElse fun _ => found.2)
    | none => found) (none, none)

/-- An entry of `included`: the volume, its device and whether that is the root device. -/
def includedMapping (config : AwsEbsSnapshotConfig) (root_device_name : String) (mapping : Items) :
    Option (String × String × Bool) := do
  let ebs ← (get mapping "Ebs").bind asDict
  let volume_id ← givenText ebs "VolumeId"
  let device_name := (givenText mapping "DeviceName").getD ""
  let is_root := root_device_name ≠ "" && device_name = root_device_name
  if is_root && !config.include_root_volume then none else some (volume_id, device_name, is_root)

def volumeMetadata (source_az : String) (mapping : String × String × Bool) (volume : Items) :
    VolumeMetadata where
  volume_id := mapping.1
  device_name := mapping.2.1
  root_device := mapping.2.2
  availability_zone := some ((givenText volume "AvailabilityZone").getD source_az)
  size_gib := (get volume "Size").getD .null
  volume_type := givenText volume "VolumeType"
  iops := (get volume "Iops").getD .null
  throughput_mibps := (get volume "Throughput").getD .null
  encrypted := (get volume "Encrypted").getD .null
  kms_key_id := givenText volume "KmsKeyId"

/-- A list of mappings under a key. -/
def listed (data : Items) (key message : String) : Except String (List Json) :=
  match get data key with
  | some (.list items) => .ok items
  | _ => .error message

def describe_source (config : AwsEbsSnapshotConfig) : AwsM Source := do
  let result ← run config (.describe_instances config.instance_id)
  let data ← .ofExcept (asJson result "describe-instances")
  let reservations ← .ofExcept (listed data "Reservations"
    "AWS did not return EC2 instance metadata")
  let (found, owner_id) := find_instance config reservations
  match found with
  | none => .raise s!"AWS could not describe EC2 instance {config.instance_id}"
  | some ec2_instance => do
    let root_device_name := (givenText ec2_instance "RootDeviceName").getD ""
    let source_az := (((get ec2_instance "Placement").bind asDict).bind fun placement =>
      givenText placement "AvailabilityZone").getD ""
    let mappings ← .ofExcept (listed ec2_instance "BlockDeviceMappings"
      "AWS returned invalid EC2 block-device mappings")
    let included := (mappings.filterMap asDict).filterMap (includedMapping config root_device_name)
    if included = [] then
      .raise "The configured EC2 instance has no EBS volumes in snapshot scope"
    else do
      let volume_ids := included.map Prod.fst
      let result ← run config (.describe_volumes volume_ids)
      let data ← .ofExcept (asJson result "describe-volumes")
      let volumes ← .ofExcept (listed data "Volumes" "AWS did not return EBS volume metadata")
      let described := (volumes.filterMap asDict).filter fun item => (given item "VolumeId").isSome
      let by_id := fun volume_id => described.reverse.find? fun item =>
        givenText item "VolumeId" = some volume_id
      if ¬ (described.all (fun item => (givenText item "VolumeId").any (· ∈ volume_ids)) ∧
          volume_ids.all fun volume_id => (by_id volume_id).isSome) then
        .raise "AWS did not describe every EBS volume in scope"
      else
        let volume_metadata := included.map fun mapping =>
          volumeMetadata source_az mapping ((by_id mapping.1).getD [])
        .pure {
          volume_metadata
          provider_scope := ("region", config.region) ::
            (owner_id.map fun owner => ("account_id", owner)).toList
          provider_metadata := [
            ("source_availability_zone", if source_az = "" then .none else .str source_az),
            ("recovery_availability_zone", .str config.recovery_availability_zone),
            ("source_volume_count", .int volume_metadata.length),
            ("include_root_volume", .bool config.include_root_volume)] }

/-! ## The snapshots of a set -/

def describe_snapshots (config : AwsEbsSnapshotConfig) (snapshot_ids : List String)
    (snapshot_id_tag : Option String) : AwsM (List Items) := do
  let result ← run config (.describe_snapshots snapshot_ids snapshot_id_tag)
  let data ← .ofExcept (asJson result "describe-snapshots")
  match get data "Snapshots" with
  | some (.list items) =>
    if items.all fun item => (asDict item).isSome then .pure (items.filterMap asDict)
    else .raise "AWS returned invalid EBS snapshot metadata"
  | _ => .raise "AWS returned invalid EBS snapshot metadata"

/-- What `create-snapshots` gave: the records, or what is known of the failure. -/
def created_records (result : Except String CommandResult) :
    Except (Option String) (List Items) :=
  match result with
  | .error create_error => .error (some create_error)
  | .ok result =>
    if result.returncode ≠ 0 then .error none
    else match asJson result "create-snapshots" with
      | .error create_error => .error (some create_error)
      | .ok data =>
        match get data "Snapshots" with
        | some (.list created) =>
          let valid := (created.filterMap asDict).filter fun item =>
            (given item "SnapshotId").isSome
          if created = [] then .error none
          else if valid.length = created.length then .ok valid
          else .error (some "AWS returned an EBS snapshot without a SnapshotId")
        | _ => .error none

/-- The loop that looks for the tag of a set until its deadline; the last error of a look. -/
def reconcile_records (config : AwsEbsSnapshotConfig) (snapshot_id : String) :
    ℕ → Option String → AwsM (Except (Option String) (List Items))
  | left, reconcile_error => do
    let reconciled ← (describe_snapshots config [] (some snapshot_id)).attempt
    let reconcile_error := match reconciled with
      | .error e => some e
      | .ok _ => reconcile_error
    match reconciled.toOption.filter (· ≠ []) with
    | some records => .pure (.ok records)
    | none =>
      match left with
      | 0 => .pure (.error reconcile_error)
      | left + 1 => reconcile_records config snapshot_id left reconcile_error

def create_snapshot_records (config : AwsEbsSnapshotConfig) (request : SnapshotCreateRequest) :
    AwsM (List Items) := do
  let result ← (run config (.create_snapshots config.instance_id (!config.include_root_volume)
    (String.ofList (request.description.toList.take 255))
    ⟨request.snapshot_id, request.project, request.environment⟩) false).attempt
  match created_records result with
  | .ok records => .pure records
  | .error create_error => do
    let left ← rounds (min config.completion_timeout_seconds 60)
    match ← reconcile_records config request.snapshot_id left none with
    | .ok records => .pure records
    | .error reconcile_error =>
      let status := result.toOption.map fun result =>
        s!"AWS create-snapshots exited with status {result.returncode}"
      let detail := (create_error.orElse fun _ => reconcile_error).orElse fun _ => status
      .raise ("AWS did not return or reconcile any EBS snapshots" ++
        (detail.map fun detail => s!": {detail}").getD "")

section Resources

variable (truncated : String → Except String ℤ)

/-- A resource of a volume; both lists of resources are made of these. -/
def resourceOf (source : VolumeMetadata) (snapshot_resource_id : Option String) (state : String) :
    Except String SnapshotResource := do
  let size_gib ← optionalInt truncated source.size_gib
  let iops ← optionalInt truncated source.iops
  let throughput_mibps ← optionalInt truncated source.throughput_mibps
  return {
    snapshot_resource_id
    source_resource_id := source.volume_id
    kind := "ebs_volume"
    state
    location := nonempty source.availability_zone
    size_gib
    device_name := nonempty (some source.device_name)
    root_device := source.root_device
    volume_type := nonempty source.volume_type
    iops
    throughput_mibps
    encrypted := match source.encrypted with
      | .null => none
      | v => some (truthy v)
    kms_key_id := nonempty source.kms_key_id }

/-- The values of `expected`: a volume that is repeated keeps its place and its last entry. -/
def expected (volume_metadata : List VolumeMetadata) : List VolumeMetadata :=
  ((volume_metadata.map (·.volume_id)).reverse.dedup.reverse).filterMap fun volume_id =>
    volume_metadata.reverse.find? fun source => source.volume_id = volume_id

def scopeOf (config : AwsEbsSnapshotConfig) : String :=
  if config.include_root_volume then "ec2_instance_all_attached_ebs_volumes"
  else "ec2_instance_non_root_ebs_volumes"

def recoveryNotes : List String :=
  ["AWS multi-volume snapshots are crash-consistent; application " ++
    "and operating-system buffers were not quiesced by odooctl.",
   "Recovery creates new, unattached EBS volumes in the configured " ++
    "recovery availability zone and never overwrites live volumes.",
   "Use the recorded device/root mapping when attaching volumes to " ++
    "an isolated recovery instance."]

def snapshotOf (config : AwsEbsSnapshotConfig) (source : Source)
    (resources : List SnapshotResource) (status : Status) : ProviderSnapshot where
  source_resource_id := config.instance_id
  resources := resources
  scope := [scopeOf config]
  consistency := .crash_consistent
  recovery_notes := recoveryNotes
  status := status
  provider_scope := source.provider_scope
  provider_metadata := source.provider_metadata

/-- `str(item.get("State") or "unknown").lower()`, of ASCII letters. -/
def stateOf (item : Items) : String :=
  ((givenText item "State").getD "unknown").toLower

/-- The records that name a volume and a snapshot. -/
def candidatesOf (described : List Items) : List Items :=
  described.filter fun item => (given item "VolumeId").isSome && (given item "SnapshotId").isSome

def volumeOf (item : Items) : String := (givenText item "VolumeId").getD ""

def snapshotIdOf (item : Items) : String := (givenText item "SnapshotId").getD ""

/-- The candidates are one snapshot of its own for each volume. -/
def OneEach (candidates : List Items) (volumes : List VolumeMetadata) : Prop :=
  candidates.length = volumes.length ∧ (candidates.map volumeOf).Nodup ∧
    (candidates.map snapshotIdOf).Nodup ∧
    (∀ v ∈ candidates.map volumeOf, v ∈ volumes.map (·.volume_id)) ∧
    ∀ v ∈ volumes.map (·.volume_id), v ∈ candidates.map volumeOf

instance (candidates : List Items) (volumes : List VolumeMetadata) :
    Decidable (OneEach candidates volumes) :=
  inferInstanceAs (Decidable (_ ∧ _ ∧ _ ∧ _ ∧ _))

def resourceFrom (candidates : List Items) (source : VolumeMetadata) :
    Except String SnapshotResource :=
  match candidates.find? fun item => volumeOf item = source.volume_id with
  | some item => resourceOf truncated source (some (snapshotIdOf item)) (stateOf item)
  | none => .error (quoted source.volume_id)

def statusOf (resources : List SnapshotResource) : Status :=
  if resources.all fun resource => resource.state = "completed" then .complete
  else if resources.any fun resource => resource.state = "error" then .failed
  else .pending

def provider_snapshot (config : AwsEbsSnapshotConfig) (described : List Items) (source : Source) :
    Except String ProviderSnapshot := do
  let volumes := expected source.volume_metadata
  let candidates := candidatesOf described
  if ¬ OneEach candidates volumes then
    let joined := ", ".intercalate (candidates.map snapshotIdOf)
    let discovered := if joined = "" then "none" else joined
    .error ("AWS did not return exactly one unique snapshot per EBS volume " ++
      s!"in scope; discovered snapshot IDs: {discovered}")
  else
    let resources ← volumes.mapM (resourceFrom truncated candidates)
    return snapshotOf config source resources (statusOf resources)

def requested_provider_snapshot (config : AwsEbsSnapshotConfig) (source : Source) :
    Except String ProviderSnapshot := do
  let resources ← source.volume_metadata.mapM fun volume =>
    resourceOf truncated volume none "requested"
  return snapshotOf config source resources .requested

/-! ## Creating -/

abbrev CreateM := Prog (Aws.sum Progress) CreateFailure

def onAws {α : Type} (p : AwsM α) : CreateM α :=
  (p.mapError fun message => ({ message } : CreateFailure)).left

def report (snapshot : ProviderSnapshot) : CreateM Unit :=
  ((Prog.perform (F := Progress) snapshot id).mapError fun message =>
    ({ message } : CreateFailure)).right

/-- `item["SnapshotId"]`. -/
def recordId (item : Items) : Except String String :=
  match get item "SnapshotId" with
  | some v => .ok (str v)
  | none => .error "'SnapshotId'"

def describe_set (config : AwsEbsSnapshotConfig) (source : Source) (snapshot_ids : List String) :
    AwsM ProviderSnapshot := do
  let described ← describe_snapshots config snapshot_ids none
  .ofExcept (provider_snapshot truncated config described source)

/-- One round of the loop that waits for the snapshots. -/
def poll_round (config : AwsEbsSnapshotConfig) (source : Source) (snapshot_ids : List String) :
    CreateM ProviderSnapshot := do
  let snapshot ← onAws ((describe_set truncated config source snapshot_ids).mapError fun exc =>
    "AWS created or reconciled snapshot IDs " ++ ", ".intercalate snapshot_ids ++
    s!", but status reconciliation failed: {exc}")
  report snapshot
  if snapshot.status = .failed then
    .raise { message := "One or more EBS snapshots entered the error state", snapshot }
  else .pure snapshot

def poll (config : AwsEbsSnapshotConfig) (source : Source) (snapshot_ids : List String) :
    ℕ → CreateM ProviderSnapshot
  | 0 => poll_round truncated config source snapshot_ids
  | left + 1 => do
    let snapshot ← poll_round truncated config source snapshot_ids
    if snapshot.status = .complete then .pure snapshot
    else poll config source snapshot_ids left

def create (config : AwsEbsSnapshotConfig) (request : SnapshotCreateRequest) :
    CreateM ProviderSnapshot := do
  onAws (probe config)
  let source ← onAws (describe_source config)
  let requested ← onAws (.ofExcept (requested_provider_snapshot truncated config source))
  report requested
  let records ← onAws (create_snapshot_records config request)
  let snapshot_ids ← onAws (.ofExcept (records.mapM recordId))
  let initial ← onAws (.ofExcept ((provider_snapshot truncated config records source).mapError
    fun exc => "AWS returned provider snapshot IDs but not enough source-volume " ++
      "metadata to persist them safely (" ++ ", ".intercalate snapshot_ids ++ s!"): {exc}"))
  report initial
  let left ← onAws (rounds config.completion_timeout_seconds)
  poll truncated config source snapshot_ids left

/-! ## Reconciling -/

/-- An entry of `_manifest_volume_metadata`. -/
def manifestVolume (resource : SnapshotResource) : VolumeMetadata where
  volume_id := resource.source_resource_id
  device_name := resource.device_name.getD ""
  root_device := resource.root_device
  availability_zone := resource.location
  size_gib := (resource.size_gib.map Json.int).getD .null
  volume_type := resource.volume_type
  iops := (resource.iops.map Json.int).getD .null
  throughput_mibps := (resource.throughput_mibps.map Json.int).getD .null
  encrypted := (resource.encrypted.map Json.bool).getD .null
  kms_key_id := resource.kms_key_id

def manifestSource (manifest : SnapshotManifest) : Source where
  volume_metadata := manifest.resources.map manifestVolume
  provider_scope := manifest.provider_scope
  provider_metadata := manifest.provider_metadata

/-- `manifest.provider_scope.get(key)` where it is true. -/
def scopeValue (manifest : SnapshotManifest) (key : String) : Option String :=
  nonempty (manifest.provider_scope.lookup key)

def validate_manifest_scope (config : AwsEbsSnapshotConfig) (manifest : SnapshotManifest) :
    Except String Unit :=
  match scopeValue manifest "region" with
  | some region =>
    if region ≠ config.region then
      .error (s!"Snapshot {manifest.snapshot_id} belongs to AWS region {region}, " ++
        s!"not configured region {config.region}")
    else .ok ()
  | none => .ok ()

def validate_account_scope (config : AwsEbsSnapshotConfig) (manifest : SnapshotManifest) :
    AwsM Unit :=
  match scopeValue manifest "account_id" with
  | none => .pure ()
  | some account => do
    let result ← run config .get_caller_identity
    let data ← .ofExcept (asJson result "get-caller-identity")
    if givenText data "Account" ≠ some account then
      .raise (s!"Snapshot {manifest.snapshot_id} belongs to AWS account " ++
        s!"{account}, not the currently authenticated account")
    else .pure ()

/-- The snapshots that are asked for and the volumes that they must be of. -/
def reconcile_source (config : AwsEbsSnapshotConfig) (manifest : SnapshotManifest) :
    AwsM (List Items × Source) := do
  let provider_ids := manifest.resources.filterMap fun resource =>
    nonempty resource.snapshot_resource_id
  if provider_ids ≠ [] then
    let described ← describe_snapshots config provider_ids none
    .pure (described, manifestSource manifest)
  else do
    let described ← describe_snapshots config [] (some manifest.snapshot_id)
    if described = [] then
      .raise s!"AWS found no snapshots tagged for {manifest.snapshot_id}"
    else if manifest.resources ≠ [] then .pure (described, manifestSource manifest)
    else do
      let source ← describe_source config
      .pure (described, source)

def reconcile (config : AwsEbsSnapshotConfig) (manifest : SnapshotManifest) :
    AwsM ProviderSnapshot := do
  probe config
  .ofExcept (validate_manifest_scope config manifest)
  validate_account_scope config manifest
  let (described, source) ← reconcile_source config manifest
  let refreshed ← .ofExcept (provider_snapshot truncated config described source)
  .pure {
    source_resource_id := manifest.source_resource_id
    resources := refreshed.resources
    scope := manifest.scope
    consistency := manifest.consistency
    recovery_notes := manifest.recovery_notes
    status := refreshed.status
    provider_scope := source.provider_scope
    provider_metadata := source.provider_metadata }

/-- `AwsEbsSnapshotProvider(config)`. -/
def provider (config : AwsEbsSnapshotConfig) : SnapshotProvider Aws where
  create := create truncated config
  reconcile := reconcile truncated config

/-- The branch of `make_snapshot_provider` for a project that is configured for EBS. -/
def make_snapshot_provider (ctx : ServiceContext) : Except String (SnapshotProvider Aws) :=
  match ctx.aws_ebs with
  | some config => .ok (provider truncated config)
  | none => .error "Missing snapshots.aws_ebs configuration"

end Resources

end AwsSnapshots
