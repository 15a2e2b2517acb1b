import Odooctl.PitrRetention

/-!
# Planning and staging a recovery

`plan_restore` of `services/pitr.py`, which derives a plan from the inventory of the archive, and
what `execute_restore` does with the plan up to the staged WAL, which it derives anew from the
boundaries in the plan. The target is the instant that `_parse_utc` has read.
-/
namespace RecoveryPlanning

open EffectPrograms CheckedLists PitrRestoreRecord WalSegments PitrArchive PitrRetention

/-! ## Choosing a base and the WAL -/

/-- `max(items, key=key)`: of the greatest the first. -/
def maxBy {α : Type} (key : α → Timestamp × String) : List α → Option α
  | [] => none
  | x :: xs => some (xs.foldl (fun best y => if compareKey (key y) (key best) = .gt then y else best) x)

def is_eligible (target : Timestamp) (base_backup_id : Option String)
    (manifest : PitrBaseBackupManifest) : Bool :=
  manifest.status = .complete && manifest.completed_at.any (· ≤ target) &&
    base_backup_id.all (manifest.base_backup_id = ·)

def latest_base (target : Timestamp) (base_backup_id : Option String)
    (bases : List PitrBaseBackupManifest) : Result PitrBaseBackupManifest :=
  match maxBy (fun m => (m.ended, m.base_backup_id))
      (bases.filter (is_eligible target base_backup_id)) with
  | none => .error (.pitrError "No complete PITR base backup precedes the requested target")
  | some base => .ok base

def target_timeline (timeline : Option ℤ) (receipts : List WalReceipt) : Result ℕ :=
  match timeline with
  | none =>
    match (receipts.map (·.timeline)).dedup with
    | [timeline] => .ok timeline
    | _ => .error (.pitrError ("PITR target timeline must be explicit when archive " ++
        "inventory contains zero or multiple timelines"))
  | some timeline =>
    if timeline < 1 then .error (.valueError "timeline must be a positive integer")
    else .ok timeline.toNat

/-- The receipts of one timeline with their sequence numbers. -/
def sequences_of (timeline segment_size : ℕ) :
    List WalReceipt → List (ℕ × WalReceipt) → Result (List (ℕ × WalReceipt))
  | [], seen => .ok seen.reverse
  | receipt :: receipts, seen =>
    if receipt.timeline ≠ timeline then sequences_of timeline segment_size receipts seen
    else do
      let sequence ← wal_sequence receipt.filename segment_size
      if sequence ∈ seen.map Prod.fst then
        .error (.pitrError ("PITR archive contains duplicate WAL sequence identity: " ++
          receipt.filename))
      else sequences_of timeline segment_size receipts ((sequence, receipt) :: seen)

/-- The segments from the end of the base on, which must leave no gap. -/
def selected_wal (base : PitrBaseBackupManifest) (timeline : ℕ) (receipts : List WalReceipt) :
    Result (List (ℕ × WalReceipt)) := do
  let by_sequence ← sequences_of timeline base.wal_segment_size receipts []
  let start_sequence ← wal_sequence base.end_wal base.wal_segment_size
  let ordered := ascending (by_sequence.filter fun x => start_sequence ≤ x.1)
  match ordered.map Prod.fst with
  | [] => do
    let first_name ← wal_name_for_sequence start_sequence timeline base.wal_segment_size
    .error (.pitrError ("The WAL archive has no segment at or after the selected base; " ++
      "first required segment: " ++ first_name))
  | first :: rest =>
    if first ≠ start_sequence then do
      let missing_name ← wal_name_for_sequence start_sequence timeline base.wal_segment_size
      .error (.pitrError ("The WAL archive is not contiguous from the selected base; " ++
        "first missing segment: " ++ missing_name))
    else
      match findGap (first :: rest) with
      | some previous => do
        let missing_name ← wal_name_for_sequence (previous + 1) timeline base.wal_segment_size
        .error (.pitrError ("The WAL archive is not contiguous from the selected base; " ++
          "first missing segment: " ++ missing_name))
      | none =>
        if ordered.length > MAX_PITR_WAL_SEGMENTS then
          .error (.pitrError "PITR plan exceeds the safe WAL segment-count limit")
        else .ok ordered

/-! ## Pins and plans -/

def pin_segments (receipts : List WalReceipt) : List PitrPinnedWal :=
  receipts.map fun receipt => ⟨receipt.filename, receipt.sha256, receipt.size⟩

def create_pitr_pin (kind : PinKind) (pin_id environment base_backup_id : String)
    (wal_segments : List PitrPinnedWal) : PitrM PitrRemotePin :=
  if h : wal_segments = [] then
    .raise (.environment "PITR pin must protect at least one exact WAL segment")
  else request (.create_pitr_pin ⟨kind, pin_id, environment, base_backup_id, wal_segments, h⟩)

def assert_remote_pin (pin : PitrRemotePin) (kind : PinKind) (pin_id environment
    base_backup_id : String) (receipts : List WalReceipt) : Result Unit :=
  if pin.kind ≠ kind ∨ pin.pin_id ≠ pin_id ∨ pin.environment ≠ environment ∨
      pin.base_backup_id ≠ base_backup_id ∨ pin.wal_segments ≠ pin_segments receipts then
    .error (.pitrError s!"Remote PITR {kind.text} pin does not match durable recovery state")
  else .ok ()

def new_database_name (database token : String) : Result String :=
  let suffix := "_pitr_".toList ++ token.toList.take 8
  let cut := database.toList.take (63 - suffix.length)
  if cut = [] then
    .error (.pitrError "Live database name leaves no room for a PITR suffix")
  else .ok (String.ofList (cut ++ suffix))

/-- `_IMMUTABLE_IMAGE_RE`: `(?:[^@\s]+@)?sha256:[0-9a-fA-F]{64}`. -/
def is_immutable_image (value : String) : Bool :=
  let digest := match value.toList.dropWhile (· ≠ '@') with
    | [] => value.toList
    | _ :: digest => if value.toList.head? = some '@' then [] else digest
  digest.take 7 = "sha256:".toList && (digest.drop 7).length = 64 &&
    (digest.drop 7).all fun c => c.isDigit || ('a' ≤ c && c ≤ 'f') || ('A' ≤ c && c ≤ 'F')

/-- `recovery_image_must_be_safe`. -/
def is_recovery_image (value : String) : Bool :=
  value ≠ "" && value.toList.length ≤ 512 &&
    !(value.toList.any fun c => isSpace c || c.toNat < 32) && is_immutable_image value

/-- The validators of `PitrRecoveryPlan` on single fields. -/
def plan_fields_are_safe (plan : PitrRecoveryPlan) : Bool :=
  [plan.plan_id, plan.environment, plan.cluster_id, plan.base_backup_id, plan.database,
    plan.new_database].all is_safe_component && is_safe_label plan.project &&
    is_system_identifier plan.system_identifier && is_recovery_image plan.recovery_image

/-- What of the configuration the plan needs beside the scope, and the arguments. -/
structure PlanRequest where
  database : String
  target : Timestamp
  timeline : Option ℤ
  base_backup_id : Option String

def recovery_plan (ctx : PitrContext) (request : PlanRequest) (system_identifier plan_id
    new_database : String) (base : PitrBaseBackupManifest) (timeline : ℕ)
    (selected : List WalReceipt) : Result PitrRecoveryPlan :=
  match selected.head?, selected.getLast? with
  | some first, some last =>
    if h : (1 ≤ timeline ∧ timeline ≤ 0xFFFFFFFF) ∧
        isSegmentName first.filename.toList = true ∧ isSegmentName last.filename.toList = true ∧
        1 ≤ selected.length ∧ 1 ≤ (selected.map (·.size)).sum ∧ new_database ≠ request.database ∧
        timelineOf last.filename = timeline then
      let plan : PitrRecoveryPlan :=
        { plan_id, project := ctx.project, environment := ctx.environment,
          cluster_id := ctx.cluster_id, system_identifier, base_backup_id := base.base_backup_id,
          database := request.database, new_database, target_time := request.target,
          target_timeline := timeline, first_wal := first.filename, last_wal := last.filename,
          wal_count := selected.length, wal_bytes := (selected.map (·.size)).sum,
          recovery_image := base.postgres_image, status := .planned,
          timeline_range := h.1, first_named := h.2.1, last_named := h.2.2.1,
          counted := h.2.2.2.1, sized := h.2.2.2.2.1, databases_differ := h.2.2.2.2.2.1,
          on_timeline := h.2.2.2.2.2.2 }
      if plan_fields_are_safe plan then .ok plan
      else .error (.valueError "validation error for PitrRecoveryPlan")
    else .error (.valueError "validation error for PitrRecoveryPlan")
  | _, _ => .error (.valueError "list index out of range")

def plan_restore_locked (ctx : PitrContext) (r : PlanRequest) (identity token plan_id : String) :
    PitrM PitrRecoveryPlan := do
  let bases ← list_base_backups ctx identity
  let base ← .ofExcept (latest_base r.target r.base_backup_id bases)
  renew
  let _ ← request (.verify_base_backup base.base_backup_id)
  let receipts ← remote_wal_receipts ctx identity
  let timeline ← .ofExcept (target_timeline r.timeline receipts)
  if base.timeline ≠ timeline then
    refuse ("Timeline-fork recovery requires an explicit compatible base; odooctl will not " ++
      "infer an ancestor timeline")
  else
    let ordered ← .ofExcept (selected_wal base timeline receipts)
    verify_receipts ordered
    let selected := ordered.map Prod.snd
    let new_database ← .ofExcept (new_database_name r.database token)
    let plan ← .ofExcept
      (recovery_plan ctx r identity plan_id new_database base timeline selected)
    renew
    let pin ← create_pitr_pin .plan plan.plan_id ctx.environment base.base_backup_id
      (pin_segments selected)
    .ofExcept (assert_remote_pin pin .plan plan.plan_id ctx.environment base.base_backup_id selected)
    request (.save_pitr_recovery_plan plan)
    .pure plan

/-- `now` is `none` where it has no time zone. -/
def plan_restore (ctx : PitrContext) (r : PlanRequest) (now : Option Timestamp) :
    PitrM PitrRecoveryPlan :=
  match now with
  | none => .raise (.valueError "now must be timezone-aware")
  | some current =>
    if current < r.target then refuse "PITR target_time cannot be in the future"
    else do
      let identity ← request .resolve_system_identifier
      let token ← request (.token_hex 12)
      let plan_id := ctx.environment ++ "_pitr_plan_" ++ token
      coordinated "pitr-plan" plan_id (plan_restore_locked ctx r identity token plan_id)

/-! ## Executing -/

def validate_plan_ownership (ctx : PitrContext) (database : String) (plan : PitrRecoveryPlan) :
    Result Unit :=
  if (plan.project, plan.environment, plan.cluster_id, plan.database) ≠
      (ctx.project, ctx.environment, ctx.cluster_id, database) then
    .error (.pitrError "PITR plan identity does not match this target")
  else .ok ()

def PlanStatus.text : PlanStatus → String
  | .planned => "planned"
  | .executing => "executing"
  | .verified => "verified"
  | .failed => "failed"

def get_wal_receipts : List String → PitrM (List WalReceipt)
  | [] => .pure []
  | filename :: filenames => do
    let receipt ← request (.get_wal_receipt filename)
    let receipts ← get_wal_receipts filenames
    .pure (receipt :: receipts)

structure CheckedPlan where
  plan : PitrRecoveryPlan
  base : PitrBaseBackupManifest
  wal : List (String × WalReceipt)

/-- `execute_restore` as far as it changes nothing. -/
def check_plan (ctx : PitrContext) (database plan_id : String) : PitrM CheckedPlan := do
  let plan ← request (.get_pitr_recovery_plan plan_id)
  .ofExcept (validate_plan_ownership ctx database plan)
  if plan.status ≠ .planned ∧ plan.status ≠ .failed then
    refuse (s!"PITR plan {PythonText.quoted plan_id} cannot execute from status " ++
      PythonText.quoted (PlanStatus.text plan.status))
  else
    let base ← request (.get_pitr_base_manifest plan.base_backup_id)
    if base.status ≠ .complete ∨ base.system_identifier ≠ plan.system_identifier ∨
        base.postgres_image ≠ plan.recovery_image then
      refuse "PITR plan base backup identity is no longer valid"
    else
      let _ ← request (.verify_base_backup base.base_backup_id)
      let wal_names ← .ofExcept
        (wal_segment_range plan.first_wal plan.last_wal base.wal_segment_size)
      if wal_names.length ≠ plan.wal_count then
        refuse "PITR plan WAL count does not match its boundaries"
      else
        let wal_receipts ← get_wal_receipts wal_names
        if (wal_receipts.map (·.size)).sum ≠ plan.wal_bytes then
          refuse "PITR plan WAL byte total no longer matches local receipts"
        else
          coordinated "pitr-execute-check" plan.plan_id do
            let plan_pin ← request (.get_pitr_pin .plan plan.plan_id)
            .ofExcept (assert_remote_pin plan_pin .plan plan.plan_id ctx.environment
              base.base_backup_id wal_receipts)
          .pure ⟨plan, base, wal_names.zip wal_receipts⟩

/-- The segments that are staged, in order. -/
def stage_wal : List (String × WalReceipt) → PitrM (List (String × WalObject))
  | [] => .pure []
  | (filename, receipt) :: rest => do
    let info ← request (.download_wal filename)
    if info.sha256 ≠ receipt.sha256 ∨ info.size ≠ receipt.size then
      refuse s!"Downloaded WAL receipt mismatch for {filename}"
    else
      let staged ← stage_wal rest
      .pure ((filename, info) :: staged)

/-- `execute_restore` up to the staged WAL. -/
def stage_restore (ctx : PitrContext) (database plan_id : String) :
    PitrM (List (String × WalObject)) := do
  let checked ← check_plan ctx database plan_id
  let staged ← stage_wal checked.wal
  if (staged.map (·.2.size)).sum ≠ checked.plan.wal_bytes then
    refuse "Downloaded WAL byte total does not match the recovery plan"
  else .pure staged

end RecoveryPlanning
