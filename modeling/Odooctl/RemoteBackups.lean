import Odooctl.RemoteStore

/-!
# Publishing and pruning remote backups

`services/remote_backup.py`: a backup is published payload first and completion marker last;
retention deletes backups outside the tiers and prefixes whose publisher has given up.
-/
namespace RemoteBackups

open EffectPrograms BackupManifests PythonJson PythonText RemoteStore
open PitrRestoreRecord (Timestamp)
open PitrRetention (newestFirst sortedIds)

/-! ## Configuration -/

inductive RemotePolicy where
  | required
  | best_effort
  | disabled
  deriving DecidableEq, Repr

structure RemoteBackupConfig where
  policy : RemotePolicy := .best_effort
  verify_after_upload : Bool := true
  orphan_grace_hours : ℕ := 24
  orphan_grace_positive : 1 ≤ orphan_grace_hours

/-- What is read of the project's configuration. -/
structure BackupContext where
  project : String
  environments : List String
  remote : Option RemoteBackupConfig
  retention : RetentionConfig

variable (a : S3Adapter) (ctx : BackupContext)

def safe_error (e : BackupError) : String := a.redact e.message

/-- `config.env(environment)`. -/
def require_env (environment : String) : BackupM Unit :=
  refuse_if (environment ∉ ctx.environments) .key
    (s!"Unknown environment '{environment}'. Known: " ++ ", ".intercalate (sortedIds ctx.environments))

def remote_config : BackupM RemoteBackupConfig :=
  match ctx.remote with
  | none => fail .runtime "Remote backups are not configured"
  | some remote =>
    if remote.policy = .disabled then fail .runtime "Remote backups are disabled by policy"
    else .pure remote

/-! ## Local files -/

def write_atomic (path : LocalPath) (payload : Body) : BackupM Unit := do
  let token ← random_hex
  let temporary := path.sibling fun name => s!".{name}.{token}.tmp"
  (do
    write_file temporary payload
    replace temporary path
    fsync path.parent : BackupM Unit).ensuring (unlink temporary)

def persist_local_manifest (backup_dir : String) (manifest : BackupManifest) : BackupM Unit := do
  refuse_if (backup_dir ≠ manifest.backup_id) .runtime
    "Local backup directory and manifest identity do not match"
  let manifest_path : LocalPath := .backup backup_dir [COMPLETION_MARKER]
  let is ← kind manifest_path
  refuse_if (is ≠ .file) .runtime s!"Local backup manifest is missing: {manifest_path.text}"
  write_atomic manifest_path (.manifest manifest)
  metadata (.update_backup_manifest manifest)

def stage_manifest (backup_dir : String) (manifest : BackupManifest) : BackupM LocalPath := do
  let token ← random_hex
  create_file (.backup backup_dir [s!".manifest-{token}.remote"]) (.manifest manifest)
  .pure (.backup backup_dir [s!".manifest-{token}.remote"])

/-! ## Giving up a prefix -/

def mark_remote_abandoned (manifest : BackupManifest) : BackupM Unit := do
  let abandoned_at ← clock
  let cleanup_token ← random_hex
  let token ← random_hex
  let path : LocalPath := .state s!"remote-abandonment/.{manifest.backup_id}.{token}.json"
  let marker : AbandonmentMarker :=
    { backup_id := manifest.backup_id, project := manifest.project,
      environment := manifest.environment, abandoned_at := _now_utc abandoned_at, cleanup_token }
  (do
    write_atomic path (.fence marker)
    let name ← backup_name manifest.backup_id
    let uploaded ← upload_object a path (abandonment_key name)
    let body ← read_file path
    let _ ← verify_object_content a uploaded.key (some (a.sha256 body))
    .pure () : BackupM Unit).ensuring (unlink path)

def mark_incomplete_for_cleanup (manifest : BackupManifest) : BackupM Unit := do
  let objects ← list_objects a (some manifest.backup_id)
  let keys := objects.map S3ObjectInfo.key
  if objects = [] ∨ manifest_key manifest.backup_id ∈ keys then .pure ()
  else if abandonment_key manifest.backup_id ∈ keys then .pure ()
  else mark_remote_abandoned a manifest

/-- What a marker that grants authority over a prefix says. -/
def valid_marker (environment backup_id : String) (raw : Items) : Bool :=
  holds raw "status" "abandoned" && holds raw "backup_id" backup_id &&
    holds raw "project" ctx.project && holds raw "environment" environment &&
    (match get raw "cleanup_token" with
      | some (.str token) => token ≠ ""
      | _ => false)

def check_marker (environment backup_id : String) (loaded : Except String Json) :
    Except BackupError Unit :=
  match loaded with
  | .error _ => .error ⟨.integrity, "Remote abandonment marker is invalid"⟩
  | .ok (.dict raw) =>
    if valid_marker ctx environment backup_id raw then .ok ()
    else .error ⟨.integrity, "Remote abandonment marker identity is invalid"⟩
  | .ok _ => .error ⟨.integrity, "Remote abandonment marker identity is invalid"⟩

def load_abandonment_marker (backup_id environment : String) : BackupM (Option String) := do
  let name ← backup_name backup_id
  let read ← download_object a (abandonment_key name)
  .ofExcept (check_marker ctx environment backup_id (a.loads read.2))
  .pure read.1.sha256

/-! ## Publication -/

/-- The objects of a backup by what follows its prefix. -/
def object_map (backup_id : String) : List (Key × S3ObjectInfo) → List S3ObjectInfo →
    Except BackupError (List (Key × S3ObjectInfo))
  | mapped, [] => .ok mapped
  | mapped, item :: rest =>
    if item.key.head? ≠ some backup_id ∨ item.key.length < 2 then
      .error ⟨.integrity, s!"Remote object {quoted (a.text item.key)} escaped backup scope"⟩
    else if item.key.tail ∈ mapped.map Prod.fst then
      .error ⟨.integrity, "Remote backup contains an invalid or duplicate object: " ++
        quoted (a.text item.key)⟩
    else object_map backup_id (mapped ++ [(item.key.tail, item)]) rest

def check_payload (mapped : List (Key × S3ObjectInfo)) (relative : String)
    (expected_sha256 : Option String) : Except BackupError Unit := do
  let expected := expected_sha256.getD ""
  check (expected = "") s!"Remote manifest has no checksum for {relative}"
  match mapped.lookup [relative] with
  | none => .error ⟨.integrity, s!"Remote backup is missing required object {relative}"⟩
  | some item =>
    check (item.sha256 ≠ some expected.toLower)
      s!"Remote object {relative} does not match the backup manifest"

def verify_payload_object_set (manifest : BackupManifest) (objects : List S3ObjectInfo) :
    Except BackupError Unit := do
  let mapped ← object_map a manifest.backup_id [] objects
  check_payload mapped "db.dump" (manifest.checksums.lookup "db_dump")
  check_payload mapped "filestore.tar" (manifest.checksums.lookup "filestore")

def verify_contents : List S3ObjectInfo → BackupM (List S3ObjectInfo)
  | [] => .pure []
  | item :: rest => do
    let verified ← verify_object_content a item.key item.sha256
    let others ← verify_contents rest
    .pure (verified :: others)

def verified_payload (remote : RemoteBackupConfig) (objects : List S3ObjectInfo) :
    BackupM (List S3ObjectInfo) :=
  if remote.verify_after_upload then verify_contents a objects else .pure objects

def verification_time (remote : RemoteBackupConfig) : BackupM (Option String) :=
  if remote.verify_after_upload then do
    let t ← clock
    .pure (some (_now_utc t))
  else .pure none

/-- The payload, up to the manifest that the completion marker will hold. -/
def publish_payload (remote : RemoteBackupConfig) (backup_dir : String)
    (pending : BackupManifest) : BackupM BackupManifest := do
  assert_not_abandoned a pending.backup_id
  let payload_objects ← upload_backup_payload a backup_dir
  let verified ← verified_payload a remote payload_objects
  .ofExcept (verify_payload_object_set a pending verified)
  let verified_at ← verification_time remote
  .pure { pending with
    remote_status := .complete, remote_verified_at := verified_at, remote_error := none }

def publish_marker (remote : RemoteBackupConfig) (backup_dir : String) (staged : LocalPath)
    (complete : BackupManifest) : BackupM BackupManifest := do
  let marker ← upload_manifest a staged complete.backup_id
  let body ← read_file staged
  refuse_if (marker.sha256 ≠ some (a.sha256 body)) .integrity
    "Published completion marker does not match the final manifest"
  if remote.verify_after_upload then do
    let _ ← verify_object_content a marker.key (some (a.sha256 body))
    persist_local_manifest backup_dir complete
    .pure complete
  else do
    persist_local_manifest backup_dir complete
    .pure complete

/-- The staged manifest, once there is one, and how the publication went. -/
def try_publish (remote : RemoteBackupConfig) (backup_dir : String) (pending : BackupManifest) :
    BackupM (Option LocalPath × Except BackupError BackupManifest) := do
  let uploaded ← (publish_payload a remote backup_dir pending).attempt
  match uploaded with
  | .error e => .pure (none, .error e)
  | .ok complete => do
    let staged ← (stage_manifest backup_dir complete).attempt
    match staged with
    | .error e => .pure (none, .error e)
    | .ok path => do
      let published ← (publish_marker a remote backup_dir path complete).attempt
      .pure (some path, published)

structure RemotePublishResult where
  manifest : BackupManifest
  uri : Option String
  status : RemoteStatus
  error : Option String := none
  deriving DecidableEq, Repr

/-- What the failure report adds for a clean-up step that failed as well. -/
def also_failed {α : Type} (what : String) : Except BackupError α → String
  | .ok _ => ""
  | .error e => s!"; {what} failed: " ++ safe_error a e

/-- The `except` branch: the marker is taken down and the prefix given up. -/
def withdraw (remote : RemoteBackupConfig) (backup_dir : String) (pending : BackupManifest)
    (e : BackupError) : BackupM RemotePublishResult := do
  let cleanup ← (remove_completion_marker a pending.backup_id).attempt
  let abandonment ← (mark_incomplete_for_cleanup a pending).attempt
  let detail := safe_error a e ++ also_failed a "completion marker cleanup" cleanup ++
    also_failed a "abandonment marker publication" abandonment
  let failure_status := if remote.policy = .required then RemoteStatus.failed else .degraded
  let failed := { pending with
    remote_status := failure_status, remote_verified_at := none, remote_error := some detail }
  persist_local_manifest backup_dir failed
  if remote.policy = .required then
    fail .policy s!"Required remote backup failed for {pending.backup_id}: {detail}"
  else .pure {
    manifest := failed, uri := some (a.uri pending.backup_id), status := failure_status,
    error := some detail }

def conclude (remote : RemoteBackupConfig) (backup_dir : String) (pending : BackupManifest) :
    Except BackupError BackupManifest → BackupM RemotePublishResult
  | .ok complete => .pure {
      manifest := complete, uri := some (a.uri pending.backup_id), status := .complete }
  | .error e => withdraw a remote backup_dir pending e

def discard_staged : Option LocalPath → BackupM Unit
  | none => .pure ()
  | some path => unlink path

def pending_manifest (manifest : BackupManifest) : BackupManifest :=
  { manifest with
    remote_uri := some (a.uri manifest.backup_id), remote_status := .pending,
    remote_verified_at := none, remote_error := none }

def disabled_manifest (manifest : BackupManifest) : BackupManifest :=
  { manifest with
    remote_uri := none, remote_status := .disabled, remote_verified_at := none,
    remote_error := none }

/-- Publication under an active policy. -/
def publish_pending (remote : RemoteBackupConfig) (backup_dir : String)
    (pending : BackupManifest) : BackupM RemotePublishResult := do
  persist_local_manifest backup_dir pending
  let tried ← try_publish a remote backup_dir pending
  (conclude a remote backup_dir pending tried.2).ensuring (discard_staged tried.1)

def publish_disabled (backup_dir : String) (manifest : BackupManifest) :
    BackupM RemotePublishResult := do
  let disabled := disabled_manifest manifest
  if disabled.same manifest then .pure { manifest := disabled, uri := none, status := .disabled }
  else do
    persist_local_manifest backup_dir disabled
    .pure { manifest := disabled, uri := none, status := .disabled }

def publish_remote_backup (backup_dir : String) (manifest : BackupManifest) :
    BackupM RemotePublishResult :=
  match ctx.remote.filter fun remote => remote.policy ≠ .disabled with
  | none => publish_disabled backup_dir manifest
  | some remote => publish_pending a remote backup_dir (pending_manifest a manifest)

/-! ## Recognising remote backups -/

def raw_manifest : Except String Json → Except BackupError Items
  | .ok (.dict raw) => .ok raw
  | .ok _ => .error ⟨.integrity, "Remote completion manifest is not a JSON object"⟩
  | .error e => .error ⟨.integrity, s!"Remote completion manifest is invalid: {e}"⟩

def validated (now : Timestamp) (raw : Items) : Except BackupError BackupManifest :=
  match model_validate a.toFormats now raw with
  | some manifest => .ok manifest
  | none => .error ⟨.integrity, "Remote completion manifest is invalid: " ++
      a.validation_error (.dict raw)⟩

/-- What `_load_remote_manifest` makes of a downloaded manifest. -/
def manifest_of (environment backup_id : String) (now : Timestamp) (body : Body) :
    Except BackupError BackupManifest := do
  let raw ← raw_manifest (a.loads body)
  check (holds raw "backup_id" backup_id = false)
    "Remote manifest backup identity does not match its object prefix"
  if holds raw "environment" environment = false then
    .error ⟨.ownership, "Remote manifest environment does not match the requested environment"⟩
  else if holds raw "project" ctx.project = false then
    .error ⟨.ownership, "Remote manifest belongs to a different project"⟩
  else do
    let manifest ← validated a now raw
    check (manifest.status ≠ "complete") "Remote manifest does not describe a complete local backup"
    check ((get raw "remote_status").isSome ∧ manifest.remote_status ≠ .complete)
      s!"Remote manifest status is {quoted manifest.remote_status.text}, not complete"
    return manifest

def load_remote_manifest (environment backup_id : String) : BackupM BackupManifest := do
  assert_not_abandoned a backup_id
  let body ← download_manifest a backup_id
  assert_not_abandoned a backup_id
  let now ← clock
  .ofExcept (manifest_of a ctx environment backup_id now body)

/-- A recognised backup and the provider's time of its completion marker. -/
structure Candidate where
  manifest : BackupManifest
  completed_at : Option Timestamp
  deriving DecidableEq, Repr

def Candidate.id (c : Candidate) : String := c.manifest.backup_id

/-- `None` for a backup that is fenced. -/
def recognise (environment : String) (inventory : List S3ObjectInfo) (backup_id : String) :
    BackupM (Option Candidate) := do
  let fenced ← abandonment_fence_exists a backup_id
  if fenced then .pure none
  else do
    let manifest ← load_remote_manifest a ctx environment backup_id
    let marker := inventory.find? fun item => item.key = manifest_key backup_id
    .pure (some ⟨manifest, marker.bind S3ObjectInfo.last_modified⟩)

/-- `backup_id.startswith(f"{environment}_")`. -/
def named_for (environment backup_id : String) : Bool :=
  (environment ++ "_").toList.isPrefixOf backup_id.toList

/-- The recognised backups, and an error for each that cannot be read. -/
def collect (environment : String) (inventory : List S3ObjectInfo) :
    List String → BackupM (List Candidate × List String)
  | [] => .pure ([], [])
  | backup_id :: rest =>
    if named_for environment backup_id = false then collect environment inventory rest
    else do
      let found ← (recognise a ctx environment inventory backup_id).attempt
      let others ← collect environment inventory rest
      match found with
      | .ok none => .pure others
      | .ok (some candidate) => .pure (candidate :: others.1, others.2)
      | .error e =>
        if e.kind = .ownership then .pure others
        else .pure (others.1, s!"{backup_id}: {safe_error a e}" :: others.2)

/-! ## Choosing what to keep -/

/-- `value.replace("Z", "+00:00")`. -/
def zulu (text : String) : String :=
  String.ofList (text.toList.flatMap fun c => if c = 'Z' then "+00:00".toList else [c])

def parsed_timestamp (manifest : BackupManifest) : Except BackupError Timestamp :=
  match a.fromisoformat (zulu manifest.timestamp) with
  | some t => .ok t
  | none => .error ⟨.integrity,
      s!"Remote backup {quoted manifest.backup_id} has an invalid timestamp"⟩

def dated (c : Candidate) : Except BackupError (Timestamp × Candidate) := do
  let t ← parsed_timestamp a c.manifest
  return (t, c)

/-- The key that candidates are sorted by. -/
def age_key (item : Timestamp × Candidate) : Timestamp × String := (item.1, item.2.id)

def ordered_candidates (candidates : List Candidate) :
    Except BackupError (List (Timestamp × Candidate)) := do
  let items ← candidates.mapM (dated a)
  return newestFirst age_key items

/-- The identifiers that retention keeps; candidates come newest first. -/
def retained (policy : RetentionConfig) (protected_backup_ids : List String) (cutoff : Timestamp)
    (ordered : List (Timestamp × Candidate)) : List String :=
  protected_backup_ids ++ (ordered.head?.map fun item => item.2.id).toList ++
    gfs_ids policy.daily policy.weekly policy.monthly (ordered.map age_key) ++
    (ordered.filter fun item => item.2.completed_at.all (cutoff ≤ ·)).map fun item => item.2.id

/-! ## Deleting -/

/-- What a pass has done so far. -/
structure Pruning where
  deleted : List String := []
  attempted : List String := []
  errors : List String := []
  deriving DecidableEq, Repr

def changed (current manifest : BackupManifest) : Bool :=
  current.project ≠ manifest.project || current.environment ≠ manifest.environment ||
    current.timestamp ≠ manifest.timestamp || !sameMapping current.checksums manifest.checksums

/-- Ownership is checked again right before the deletion. -/
def recheck (environment : String) (manifest : BackupManifest) : BackupM Unit := do
  let current ← load_remote_manifest a ctx environment manifest.backup_id
  refuse_if (changed current manifest = true) .ownership
    "Remote backup changed during retention reconciliation"

/-- What an `except Exception` branch of the first pass does. -/
def note_failure (manifest : BackupManifest) (e : BackupError) (done : Pruning) :
    BackupM Pruning :=
  if e.kind = .ownership then .pure done
  else do
    let marked ← (mark_incomplete_for_cleanup a manifest).attempt
    let alert := match marked with
      | .ok () => []
      | .error e => [s!"{manifest.backup_id} abandonment marker: {safe_error a e}"]
    .pure { done with
      errors := done.errors ++ alert ++ [s!"{manifest.backup_id}: {safe_error a e}"] }

def delete_candidate (environment : String) (manifest : BackupManifest) (done : Pruning) :
    BackupM Pruning := do
  let checked ← (recheck a ctx environment manifest).attempt
  match checked with
  | .error e => note_failure a manifest e done
  | .ok () => do
    let done := { done with attempted := manifest.backup_id :: done.attempted }
    let result ← (delete_backup a manifest.backup_id).attempt
    match result with
    | .error e => note_failure a manifest e done
    | .ok () => .pure { done with deleted := done.deleted ++ [manifest.backup_id] }

/-- The candidates, oldest first, that are not to be kept. -/
def delete_candidates (environment : String) (keep : List String) :
    List BackupManifest → Pruning → BackupM Pruning
  | [], done => .pure done
  | manifest :: rest, done =>
    if manifest.backup_id ∈ keep then delete_candidates environment keep rest done
    else do
      let done ← delete_candidate a ctx environment manifest done
      delete_candidates environment keep rest done

/-! ## Prefixes that were given up -/

/-- The backup that an object belongs to; loose objects belong to none. -/
def group (key : Key) : Option String := if 2 ≤ key.length then key.head? else none

def scoped_object_groups : BackupM (List (String × List S3ObjectInfo)) := do
  let items ← list_objects a none
  let ids := sortedIds (items.filterMap fun item => group item.key)
  .pure (ids.map fun id => (id, items.filter fun item => group item.key = some id))

def unknown_age (objects : List S3ObjectInfo) : Bool :=
  objects.isEmpty || objects.any fun item => item.last_modified.isNone

def younger (cutoff : Timestamp) (objects : List S3ObjectInfo) : Bool :=
  objects.any fun item => item.last_modified.any (cutoff < ·)

/-- The second look at a prefix, and its deletion. -/
def reclaim (environment : String) (cutoff : Timestamp) (backup_id : String) : BackupM Bool := do
  let current ← list_objects a (some backup_id)
  let fenced ← abandonment_fence_exists a backup_id
  if fenced = false then .pure false
  else if ∀ item ∈ current, item.key = abandonment_key backup_id then .pure false
  else if unknown_age current || younger cutoff current then .pure false
  else do
    let _ ← load_abandonment_marker a ctx backup_id environment
    delete_backup a backup_id
    .pure true

def reclaim_group (environment : String) (cutoff : Timestamp) (backup_id : String)
    (done : Pruning) : BackupM Pruning := do
  let result ← (reclaim a ctx environment cutoff backup_id).attempt
  match result with
  | .error e =>
    .pure { done with errors := done.errors ++ [s!"{backup_id} orphan cleanup: {safe_error a e}"] }
  | .ok true =>
    .pure (if backup_id ∈ done.deleted then done
      else { done with deleted := done.deleted ++ [backup_id] })
  | .ok false => .pure done

/-- `fence_was_in_inventory or client.abandonment_fence_exists(backup_id)`. -/
def has_abandonment_fence (backup_id : String) (keys : List Key) : BackupM Bool :=
  if abandonment_key backup_id ∈ keys then .pure true else abandonment_fence_exists a backup_id

def clean_group (environment : String) (cutoff : Timestamp) (backup_id : String)
    (objects : List S3ObjectInfo) (done : Pruning) : BackupM Pruning := do
  let keys := objects.map S3ObjectInfo.key
  let fenced ← has_abandonment_fence a backup_id keys
  if manifest_key backup_id ∈ keys ∧ fenced = false then .pure done
  -- a fence that the listing does not show has no age
  else if fenced = true ∧ abandonment_key backup_id ∉ keys then .pure done
  else if unknown_age objects || younger cutoff objects then .pure done
  else if fenced = false then
    .pure { done with errors := done.errors ++
      [s!"{backup_id}: old markerless prefix has no abandonment marker; manual review required"] }
  else reclaim_group a ctx environment cutoff backup_id done

def clean_groups (environment : String) (cutoff : Timestamp) :
    List (String × List S3ObjectInfo) → Pruning → BackupM Pruning
  | [], done => .pure done
  | (backup_id, objects) :: rest, done =>
    if named_for environment backup_id = false ∨ backup_id ∈ done.attempted then
      clean_groups environment cutoff rest done
    else do
      let done ← clean_group a ctx environment cutoff backup_id objects done
      clean_groups environment cutoff rest done

/-! ## The whole pass -/

structure RemotePruneResult where
  deleted_backup_ids : List String
  error : Option String := none
  deriving DecidableEq, Repr

def report (remote : RemoteBackupConfig) (done : Pruning) : BackupM RemotePruneResult :=
  let detail := "; ".intercalate done.errors
  if detail ≠ "" ∧ remote.policy = .required then
    fail .policy s!"Required remote retention failed: {detail}"
  else .pure { deleted_backup_ids := done.deleted, error := if detail = "" then none else some detail }

/-- Everything after the backups have been recognised. -/
def reconcile (remote : RemoteBackupConfig) (environment : String)
    (protected_backup_ids : List String) (found : List Candidate × List String) :
    BackupM RemotePruneResult := do
  let (ordered, errors) := match ordered_candidates a found.1 with
    | .ok ordered => (ordered, found.2)
    | .error e => ([], found.2 ++ [safe_error a e])
  let reconciliation_time ← clock
  let completed_grace_cutoff ←
    .ofExcept ((hours_before reconciliation_time ctx.retention.grace_hours).mapError (⟨.value, ·⟩))
  let keep := retained ctx.retention protected_backup_ids completed_grace_cutoff ordered
  let done ← delete_candidates a ctx environment keep
    (ordered.reverse.map fun item => item.2.manifest) { errors }
  let cutoff ←
    .ofExcept ((hours_before reconciliation_time remote.orphan_grace_hours).mapError (⟨.value, ·⟩))
  let listed ← (scoped_object_groups a).attempt
  let (groups, done) := match listed with
    | .ok groups => (groups, done)
    | .error e =>
      ([], { done with errors := done.errors ++ [s!"orphan inventory: {safe_error a e}"] })
  let done ← clean_groups a ctx environment cutoff groups done
  report remote done

/-- The inventory: every object, and the backups with a completion marker. -/
def take_inventory : BackupM (List S3ObjectInfo × List String) := do
  let objects ← list_objects a none
  let completed_backup_ids ← list_backups a
  .pure (objects, completed_backup_ids)

/-- The candidates of a pass and an error for each backup that cannot be read, or why there is
no inventory. -/
def recognition (environment : String) :
    BackupM (RemoteBackupConfig × Except BackupError (List Candidate × List String)) := do
  let remote ← remote_config ctx
  require_env ctx environment
  let inventory ← (take_inventory a).attempt
  match inventory with
  | .error e => .pure (remote, .error e)
  | .ok (objects, completed_backup_ids) => do
    let found ← collect a ctx environment objects completed_backup_ids
    .pure (remote, .ok found)

def prune_remote_backups (environment : String) (protected_backup_ids : List String) :
    BackupM RemotePruneResult := do
  let (remote, recognised) ← recognition a ctx environment
  match recognised with
  | .error e =>
    let detail := s!"remote inventory: {safe_error a e}"
    if remote.policy = .required then
      fail .policy s!"Required remote retention failed: {detail}"
    else .pure { deleted_backup_ids := [], error := some detail }
  | .ok found => reconcile a ctx remote environment protected_backup_ids found

end RemoteBackups
