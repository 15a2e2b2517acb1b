import Mathlib.Data.List.Dedup
import Odooctl.CheckedLists
import Odooctl.PitrArchive

/-!
# Retention of base backups and WAL

`reconcile_retention` of `services/pitr.py`: the whole inventory is read and checked before
the first delete. Sets of identifiers are lists of which only the members matter.
-/
namespace PitrRetention

open EffectPrograms CheckedLists PitrRestoreRecord WalSegments PitrArchive

/-- The parts of the configuration that `_pitr_config` has checked. -/
structure PitrContext where
  project : String
  environment : String
  cluster_id : String
  bucket : String
  wal_prefix : String
  base_backups : ℕ
  grace_hours : ℕ

def refuse {α : Type} (message : String) : PitrM α := .raise (.pitrError message)

/-! ## The coordination guard -/

/-- `with _CoordinationGuard(...):` around the body. -/
def coordinated {α : Type} (purpose owner : String) (body : PitrM α) : PitrM α := do
  request (.acquire_coordination_lease purpose owner)
  let outcome ← Prog.attempt (ε := PitrFailure) body
  match outcome with
  | .ok a => do
    request .release_coordination_lease
    .pure a
  | .error e => do
    let _ ← Prog.attempt (ε := PitrFailure) (request .release_coordination_lease)
    .raise e

def renew : PitrM Unit := request .renew_coordination_lease

/-! ## Inventory -/

def validate_manifest_ownership (ctx : PitrContext) (system_identifier : String)
    (manifest : PitrBaseBackupManifest) : Result PitrBaseBackupManifest :=
  if (manifest.project, manifest.environment, manifest.cluster_id, manifest.system_identifier) ≠
      (ctx.project, ctx.environment, ctx.cluster_id, system_identifier) then
    .error (.pitrError ("Remote PITR base backup does not belong to this " ++
      "project/environment/cluster"))
  else if manifest.status ≠ .complete then
    .error (.pitrError "Remote PITR base backup is not complete")
  else .ok manifest

def read_manifests (ctx : PitrContext) (system_identifier : String) :
    List String → PitrM (List PitrBaseBackupManifest)
  | [] => .pure []
  | id :: ids => do
    let raw ← request (.read_base_manifest id)
    let manifest ← .ofExcept (validate_manifest_ownership ctx system_identifier raw)
    request (.save_pitr_base_manifest manifest)
    let manifests ← read_manifests ctx system_identifier ids
    .pure (manifest :: manifests)

/-- `(time, identifier)` pairs in the order of Python tuples. -/
def compareKey : Timestamp × String → Timestamp × String → Ordering :=
  compareLex (compareOn Prod.fst) (compareOn Prod.snd)

/-- `sorted(items, key=key, reverse=True)`. -/
def newestFirst {α : Type} (key : α → Timestamp × String) (items : List α) : List α :=
  items.insertionSort fun x y => (compareKey (key y) (key x)).isLE

instance : Std.TransCmp compareKey :=
  inferInstanceAs (Std.TransCmp (compareLex (compareOn Prod.fst) (compareOn Prod.snd)))

theorem eq_of_compareKey {x y : Timestamp × String} (h : compareKey x y = .eq) : x = y := by
  simp only [compareKey, compareLex, Ordering.then_eq_eq, compareOn,
    Std.LawfulEqOrd.compare_eq_iff_eq] at h
  exact Prod.ext h.1 h.2

theorem perm_newestFirst {α : Type} (key : α → Timestamp × String) (l : List α) :
    (newestFirst key l).Perm l := List.perm_insertionSort _ l

theorem sorted_newestFirst {α : Type} (key : α → Timestamp × String) (l : List α) :
    (newestFirst key l).Pairwise fun x y => (compareKey (key y) (key x)).isLE = true := by
  have htotal : Std.Total fun x y : α => (compareKey (key y) (key x)).isLE = true := by
    constructor
    intro x y
    cases hc : compareKey (key y) (key x) with
    | lt | eq => exact .inl rfl
    | gt =>
      rw [Std.OrientedCmp.lt_of_gt hc]
      exact .inr rfl
  have htrans : IsTrans α fun x y => (compareKey (key y) (key x)).isLE = true :=
    ⟨fun x y z hxy hyz => Std.TransCmp.isLE_trans hyz hxy⟩
  exact List.pairwise_insertionSort _ l

/-- `sorted` of a set of identifiers. -/
def sortedIds (ids : List String) : List String :=
  ids.dedup.insertionSort fun x y => (compare x y).isLE

def list_base_backups (ctx : PitrContext) (system_identifier : String) :
    PitrM (List PitrBaseBackupManifest) := do
  let ids ← request .list_base_backups
  let manifests ← read_manifests ctx system_identifier ids
  .pure (newestFirst (fun m => (m.ended, m.base_backup_id)) manifests)

def wal_receipt (ctx : PitrContext) (system_identifier filename : String) (item : WalObject)
    (modified : Timestamp) : Result WalReceipt :=
  if h : is_archive_name filename = true ∧ (1 ≤ timelineOf filename ∧
      timelineOf filename ≤ 0xFFFFFFFF) ∧ 0 < item.size then
    .ok { project := ctx.project, environment := ctx.environment, cluster_id := ctx.cluster_id,
          system_identifier, filename, timeline := timelineOf filename, sha256 := item.sha256,
          size := item.size, archived_at := modified,
          remote_uri := "s3://" ++ ctx.bucket ++ "/" ++ ctx.wal_prefix ++ "/" ++ filename,
          named := h.1, on_timeline := rfl, timeline_range := h.2.1, sized := h.2.2 }
  else .error (.valueError "validation error for WalReceipt")

def remote_wal_receipt (ctx : PitrContext) (system_identifier filename : String)
    (item : WalObject) : PitrM WalReceipt :=
  match item.last_modified with
  | none => refuse s!"Remote WAL {filename} has no authoritative modification time"
  | some modified => do
    let receipt ← .ofExcept (wal_receipt ctx system_identifier filename item modified)
    let existing ← request (.find_wal_receipt filename)
    match existing with
    | none => do
      request (.save_wal_receipt receipt)
      .pure receipt
    | some existing =>
      if same_wal_object receipt existing then .pure receipt
      else refuse ("Remote WAL conflicts with its immutable local receipt " ++
        s!"for {PythonText.quoted filename}")

def receipts_of (ctx : PitrContext) (system_identifier : String) :
    List (String × WalObject) → PitrM (List WalReceipt)
  | [] => .pure []
  | (filename, item) :: items =>
    if filename.toList.length ≠ 24 then receipts_of ctx system_identifier items
    else do
      let receipt ← remote_wal_receipt ctx system_identifier filename item
      let receipts ← receipts_of ctx system_identifier items
      .pure (receipt :: receipts)

def remote_wal_receipts (ctx : PitrContext) (system_identifier : String) :
    PitrM (List WalReceipt) := do
  let items ← request .list_wal
  receipts_of ctx system_identifier items

/-- A base and the provider's timestamp of its completion marker. -/
structure MarkedBase where
  manifest : PitrBaseBackupManifest
  marker_time : Timestamp

def MarkedBase.id (b : MarkedBase) : String := b.manifest.base_backup_id

def marker_times : List PitrBaseBackupManifest → PitrM (List MarkedBase)
  | [] => .pure []
  | manifest :: manifests => do
    renew
    let modified ← request (.verify_base_backup manifest.base_backup_id)
    match modified with
    | none => refuse ("PITR base completion marker has no authoritative " ++
        s!"modification time: {manifest.base_backup_id}")
    | some marker_time => do
      let marked ← marker_times manifests
      .pure (⟨manifest, marker_time⟩ :: marked)

def pinned_base_ids (environment : String) : PitrM (List String) := do
  let plans ← request (.list_pitr_recovery_plans environment)
  let restores ← request (.list_pitr_restores environment)
  .pure ((plans.filter fun p => p.status ∈ [.planned, .executing, .failed]).map (·.base_backup_id) ++
    (restores.filter fun r => r.status ≠ .cutover).map (·.base_backup_id))

/-! ## Decisions -/

def HOUR : ℕ := 3600000000

/-- `current - timedelta(hours=grace_hours)`; instants count from the first one there is. -/
def grace_cutoff (current : Timestamp) (grace_hours : ℕ) : Result Timestamp :=
  if grace_hours > 24 * 999999999 + 23 then
    .error (.valueError "days; must have magnitude <= 999999999")
  else if current < grace_hours * HOUR then .error (.valueError "date value out of range")
  else .ok (current - grace_hours * HOUR)

/-- The identifiers to keep, all of which are in the inventory. -/
def retained_ids (ctx : PitrContext) (ordered : List MarkedBase) (local_ids : List String)
    (pins : List PitrRemotePin) (cutoff : Timestamp) : Result (List String) :=
  let retained := (ordered.take ctx.base_backups).map MarkedBase.id ++ local_ids ++
    pins.map (·.base_backup_id) ++
    (ordered.filter fun b => cutoff ≤ b.marker_time).map MarkedBase.id
  let missing := retained.filter fun id => id ∉ ordered.map MarkedBase.id
  if missing ≠ [] then
    .error (.pitrError ("PITR retention cannot resolve pinned bases: " ++
      ", ".intercalate (sortedIds missing)))
  else if retained = [] then .error (.pitrError "PITR retention must retain at least one base")
  else .ok retained

/-- The WAL boundary of the retained bases. -/
structure Boundary where
  segment_size : ℕ
  timeline : ℕ
  earliest_sequence : ℕ

def end_sequence (b : MarkedBase) : Result ℕ :=
  wal_sequence b.manifest.end_wal b.manifest.wal_segment_size

def boundary (retained : List MarkedBase) : Result Boundary := do
  let sequences ← retained.mapM end_sequence
  match retained, sequences.min? with
  | first :: _, some earliest_sequence =>
    if retained.all (fun b => b.manifest.wal_segment_size = first.manifest.wal_segment_size ∧
        b.manifest.timeline = first.manifest.timeline) then
      .ok ⟨first.manifest.wal_segment_size, first.manifest.timeline, earliest_sequence⟩
    else .error (.pitrError "PITR retention refuses mixed WAL sizes or timelines")
  | _, _ => .error (.valueError "min() iterable argument is empty")

def pinned_receipt (remote_wal : List WalReceipt) (pin : PitrRemotePin)
    (pinned_wal : PitrPinnedWal) : Result WalReceipt :=
  let changed : Result WalReceipt := .error (.pitrError
    s!"Remote PITR pin {PythonText.quoted pin.pin_id} references missing or changed WAL")
  match remote_wal.find? (·.filename = pinned_wal.filename) with
  | none => changed
  | some receipt =>
    if receipt.sha256 ≠ pinned_wal.sha256 ∨ receipt.size ≠ pinned_wal.size then changed
    else .ok receipt

/-- A pin protects a run of archived WAL that starts where its base ends. -/
def check_pin (ordered : List MarkedBase) (remote_wal : List WalReceipt) (pin : PitrRemotePin) :
    Result Unit := do
  match ordered.find? (·.id = pin.base_backup_id) with
  | none => .error (.valueError s!"KeyError: {PythonText.quoted pin.base_backup_id}")
  | some pinned_base =>
    let receipts ← pin.wal_segments.mapM (pinned_receipt remote_wal pin)
    if (receipts.head?.map (·.filename)) ≠ some pinned_base.manifest.end_wal ∨
        receipts.any (fun r => r.timeline ≠ pinned_base.manifest.timeline) then
      .error (.pitrError (s!"Remote PITR pin {PythonText.quoted pin.pin_id} is incompatible with " ++
        "its base backup"))
    else
      let sequences ← receipts.mapM fun r =>
        wal_sequence r.filename pinned_base.manifest.wal_segment_size
      if (findGap sequences).isSome then
        .error (.pitrError s!"Remote PITR pin {PythonText.quoted pin.pin_id} has a WAL gap")
      else .ok ()

/-- The receipts of the timeline with their sequence numbers. -/
def by_sequence (segment_size : ℕ) : List WalReceipt → List (ℕ × WalReceipt) →
    Result (List (ℕ × WalReceipt))
  | [], seen => .ok seen.reverse
  | receipt :: receipts, seen => do
    let sequence ← wal_sequence receipt.filename segment_size
    if sequence ∈ seen.map Prod.fst then
      .error (.pitrError ("PITR retained WAL graph contains duplicate sequence identity: " ++
        receipt.filename))
    else by_sequence segment_size receipts ((sequence, receipt) :: seen)

def ascending (items : List (ℕ × WalReceipt)) : List (ℕ × WalReceipt) :=
  items.insertionSort fun x y => x.1 ≤ y.1

def check_contiguous (b : Boundary) (sequences : List ℕ) : Result Unit := do
  let retained := (sequences.filter fun q => b.earliest_sequence ≤ q).insertionSort (· ≤ ·)
  if retained.head? ≠ some b.earliest_sequence then
    .error (.pitrError ("PITR retained WAL graph is not contiguous from its earliest " ++
      "retained base"))
  else
    match findGap retained with
    | none => .ok ()
    | some previous => do
      let name ← wal_name_for_sequence previous b.timeline b.segment_size
      .error (.pitrError ("PITR retained WAL graph has a gap after " ++ name))

/-- The checks on the WAL inventory, and the receipts of the timeline by sequence. -/
def check_wal (ordered retained : List MarkedBase) (pins : List PitrRemotePin)
    (remote_wal : List WalReceipt) : Result (Boundary × List (ℕ × WalReceipt)) := do
  let b ← boundary retained
  if (remote_wal.map (·.filename)).dedup.length ≠ remote_wal.length then
    .error (.pitrError "PITR WAL inventory contains duplicate filenames")
  else
    let _ ← pins.mapM (check_pin ordered remote_wal)
    let receipts ← by_sequence b.segment_size
      (remote_wal.filter fun r => r.timeline = b.timeline) []
    check_contiguous b (receipts.map Prod.fst)
    .ok (b, receipts)

/-! ## Deletion -/

def verify_receipts : List (ℕ × WalReceipt) → PitrM Unit
  | [] => .pure ()
  | (_, receipt) :: rest => do
    renew
    let verified ← request (.verify_wal receipt.filename (some receipt.sha256))
    if verified.size ≠ receipt.size then refuse s!"Remote WAL size changed for {receipt.filename}"
    else verify_receipts rest

def delete_base_objects (base_backup_id : String) : List String → PitrM Unit
  | [] => .pure ()
  | path :: paths => do
    renew
    request (.delete_base_object base_backup_id path)
    delete_base_objects base_backup_id paths

/-- Unpublish, then delete one validated base backup. -/
def delete_base_backup (base_backup_id : String) : PitrM Unit := do
  let paths ← request (.list_base_objects base_backup_id)
  renew
  request (.delete_base_marker base_backup_id)
  delete_base_objects base_backup_id paths

def delete_bases : List MarkedBase → PitrM (List String)
  | [] => .pure []
  | b :: bases => do
    renew
    delete_base_backup b.id
    let deleted ← delete_bases bases
    .pure (b.id :: deleted)

def delete_wal : List (ℕ × WalReceipt) → PitrM (List String)
  | [] => .pure []
  | (_, receipt) :: rest => do
    renew
    request (.delete_wal receipt.filename)
    let deleted ← delete_wal rest
    .pure (receipt.filename :: deleted)

structure PitrRetentionResult where
  retained_base_backup_ids : List String
  deleted_base_backup_ids : List String
  deleted_wal_filenames : List String
  deriving DecidableEq, Repr

def reconcile_retention_locked (ctx : PitrContext) (current : Timestamp) (identity : String) :
    PitrM PitrRetentionResult := do
  let bases ← list_base_backups ctx identity
  if bases = [] then refuse "PITR retention refuses to run without a complete base backup"
  else
    let remote_pins ← request (.list_pitr_pins ctx.environment)
    let marked ← marker_times bases
    let ordered := newestFirst (fun b => (b.marker_time, b.id)) marked
    let local_ids ← pinned_base_ids ctx.environment
    let cutoff ← .ofExcept (grace_cutoff current ctx.grace_hours)
    let retained ← .ofExcept (retained_ids ctx ordered local_ids remote_pins cutoff)
    let remote_wal ← remote_wal_receipts ctx identity
    let (b, receipts) ← .ofExcept
      (check_wal ordered (ordered.filter fun b => b.id ∈ retained) remote_pins remote_wal)
    verify_receipts (ascending receipts)
    let deleted_bases ← delete_bases (ordered.reverse.filter fun b => b.id ∉ retained)
    let deleted_wal ← delete_wal (ascending (receipts.filter fun (sequence, receipt) =>
      sequence < b.earliest_sequence ∧ receipt.archived_at < cutoff))
    .pure ⟨sortedIds retained, deleted_bases, deleted_wal⟩

/-- `now` is `none` where it has no time zone. -/
def reconcile_retention (ctx : PitrContext) (now : Option Timestamp) :
    PitrM PitrRetentionResult :=
  match now with
  | none => .raise (.valueError "now must be timezone-aware")
  | some current => do
    let identity ← request .resolve_system_identifier
    let token ← request (.token_hex 8)
    coordinated "pitr-retention" ("retention-" ++ ctx.environment ++ "-" ++ token)
      (reconcile_retention_locked ctx current identity)

end PitrRetention
