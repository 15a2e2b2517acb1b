import Odooctl.EffectPrograms
import Odooctl.PitrRestoreRecord
import Odooctl.WalSegments

/-!
# The recovery archive and its local records

The records of `metadata/models.py` that planning, retention and recovery read, the
objects of one archive scope and the local store, and the operations on both. A record
carries the checks of its validators as fields; timestamps are instants in microseconds.
-/
namespace PitrArchive

open EffectPrograms PitrRestoreRecord WalSegments

abbrev Map (α : Type) := Std.ExtTreeMap String α compare

/-! ## Records -/

inductive BaseStatus where
  | pending
  | complete
  | failed
  deriving DecidableEq, Repr

structure PitrBaseBackupManifest where
  base_backup_id : String
  project : String
  environment : String
  cluster_id : String
  system_identifier : String
  postgres_image : String
  timeline : ℕ
  wal_segment_size : ℕ
  started_at : Timestamp
  completed_at : Option Timestamp
  end_wal : String
  status : BaseStatus
  named : isSegmentName end_wal.toList = true
  on_timeline : timelineOf end_wal = timeline
  timeline_range : 1 ≤ timeline ∧ timeline ≤ 0xFFFFFFFF
  completed : status = .complete → completed_at.isSome = true
  deriving DecidableEq

theorem first_timeline : 1 ≤ 1 ∧ 1 ≤ 0xFFFFFFFF := by decide

/-- `item.completed_at or item.started_at`. -/
def PitrBaseBackupManifest.ended (m : PitrBaseBackupManifest) : Timestamp :=
  m.completed_at.getD m.started_at

structure WalReceipt where
  project : String
  environment : String
  cluster_id : String
  system_identifier : String
  filename : String
  timeline : ℕ
  sha256 : String
  size : ℕ
  archived_at : Timestamp
  remote_uri : String
  named : is_archive_name filename = true
  on_timeline : timelineOf filename = timeline
  timeline_range : 1 ≤ timeline ∧ timeline ≤ 0xFFFFFFFF
  sized : 0 < size
  deriving DecidableEq

/-- Compare the immutable identity of two receipts; `archived_at` is not part of it. -/
def same_wal_object (left right : WalReceipt) : Bool :=
  left.project == right.project && left.environment == right.environment &&
  left.cluster_id == right.cluster_id && left.system_identifier == right.system_identifier &&
  left.filename == right.filename && left.timeline == right.timeline &&
  left.sha256 == right.sha256 && left.size == right.size && left.remote_uri == right.remote_uri

structure PitrPinnedWal where
  filename : String
  sha256 : String
  size : ℕ
  deriving DecidableEq, Repr

inductive PinKind where
  | plan
  | restore
  deriving DecidableEq, Repr

def PinKind.text : PinKind → String
  | .plan => "plan"
  | .restore => "restore"

structure PitrRemotePin where
  kind : PinKind
  pin_id : String
  environment : String
  base_backup_id : String
  wal_segments : List PitrPinnedWal
  protects : wal_segments ≠ []
  deriving DecidableEq

def pin_key (kind : PinKind) (pin_id : String) : String := kind.text ++ "/" ++ pin_id ++ ".json"

inductive PlanStatus where
  | planned
  | executing
  | verified
  | failed
  deriving DecidableEq, Repr

structure PitrRecoveryPlan where
  plan_id : String
  project : String
  environment : String
  cluster_id : String
  system_identifier : String
  base_backup_id : String
  database : String
  new_database : String
  target_time : Timestamp
  target_timeline : ℕ
  first_wal : String
  last_wal : String
  wal_count : ℕ
  wal_bytes : ℕ
  recovery_image : String
  status : PlanStatus
  timeline_range : 1 ≤ target_timeline ∧ target_timeline ≤ 0xFFFFFFFF
  first_named : isSegmentName first_wal.toList = true
  last_named : isSegmentName last_wal.toList = true
  counted : 1 ≤ wal_count
  sized : 1 ≤ wal_bytes
  databases_differ : new_database ≠ database
  on_timeline : timelineOf last_wal = target_timeline

/-! ## State -/

/-- A completion marker: the manifest in it and the provider's timestamp. -/
structure BaseObject where
  manifest : PitrBaseBackupManifest
  last_modified : Option Timestamp

structure WalObject where
  sha256 : String
  size : ℕ
  last_modified : Option Timestamp

/-- The objects of one scope by name, and the local records by file name. -/
structure Archive where
  bases : Map BaseObject
  wal : Map WalObject
  pins : Map PitrRemotePin
  manifests : Map PitrBaseBackupManifest
  receipts : Map WalReceipt
  plans : Map PitrRecoveryPlan
  restores : Map PitrRestoreMetadata

/-! ## Operations -/

inductive PitrCall where
  | resolve_system_identifier
  | token_hex (bytes : ℕ)
  | acquire_coordination_lease (purpose owner : String)
  | renew_coordination_lease
  | release_coordination_lease
  | list_base_backups
  | read_base_manifest (base_backup_id : String)
  | verify_base_backup (base_backup_id : String)
  | list_wal
  | verify_wal (filename : String) (expected_sha256 : Option String)
  | list_pitr_pins (environment : String)
  | get_pitr_pin (kind : PinKind) (pin_id : String)
  | create_pitr_pin (pin : PitrRemotePin)
  | list_base_objects (base_backup_id : String)
  | delete_base_marker (base_backup_id : String)
  | delete_base_object (base_backup_id path : String)
  | delete_wal (filename : String)
  | download_wal (filename : String)
  | list_pitr_recovery_plans (environment : String)
  | list_pitr_restores (environment : String)
  | get_pitr_recovery_plan (plan_id : String)
  | get_pitr_base_manifest (base_backup_id : String)
  | get_wal_receipt (filename : String)
  | find_wal_receipt (filename : String)
  | save_pitr_base_manifest (manifest : PitrBaseBackupManifest)
  | save_wal_receipt (receipt : WalReceipt)
  | save_pitr_recovery_plan (plan : PitrRecoveryPlan)

/-- What a call returns; an error is the text of its exception. -/
abbrev PitrCall.Value : PitrCall → Type
  | .resolve_system_identifier | .token_hex _ => String
  | .list_base_backups | .list_base_objects _ => List String
  | .read_base_manifest _ | .get_pitr_base_manifest _ => PitrBaseBackupManifest
  | .verify_base_backup _ => Option Timestamp
  | .list_wal => List (String × WalObject)
  | .verify_wal _ _ | .download_wal _ => WalObject
  | .list_pitr_pins _ => List PitrRemotePin
  | .get_pitr_pin _ _ | .create_pitr_pin _ => PitrRemotePin
  | .list_pitr_recovery_plans _ => List PitrRecoveryPlan
  | .list_pitr_restores _ => List PitrRestoreMetadata
  | .get_pitr_recovery_plan _ => PitrRecoveryPlan
  | .get_wal_receipt _ => WalReceipt
  | .find_wal_receipt _ => Option WalReceipt
  | _ => Unit

abbrev PitrCall.Answer (o : PitrCall) : Type := Except String o.Value

def Pitr : Interface := ⟨PitrCall, PitrCall.Answer⟩

abbrev PitrM := Prog Pitr PitrFailure

def reply {α : Type} : Except String α → Result α := Except.mapError .environment

def request (o : PitrCall) : PitrM o.Value := .perform (F := Pitr) o reply

/-- What a call that succeeds reads. -/
def PitrCall.Reads (s : Archive) : (o : PitrCall) → o.Value → Prop
  | .list_base_backups, ids => ids = s.bases.keys
  | .read_base_manifest id, m => (∃ b, s.bases[id]? = some b ∧ b.manifest = m) ∧
      m.base_backup_id = id ∧ m.status = .complete
  | .verify_base_backup id, modified => ∃ b, s.bases[id]? = some b ∧ b.last_modified = modified
  | .list_wal, objects => objects = s.wal.toList.filter fun x => is_archive_name x.1
  | .verify_wal name expected, w => s.wal[name]? = some w ∧ ∀ digest ∈ expected, digest = w.sha256
  | .download_wal name, w => s.wal[name]? = some w
  | .list_pitr_pins environment, pins =>
      pins = s.pins.values.filter fun pin => pin.environment = environment
  | .get_pitr_pin kind id, pin => s.pins[pin_key kind id]? = some pin
  | .create_pitr_pin pin, created => created = pin ∧
      ∀ stored ∈ s.pins[pin_key pin.kind pin.pin_id]?, stored = pin
  | .list_pitr_recovery_plans environment, plans =>
      plans = s.plans.values.filter fun plan => plan.environment = environment
  | .list_pitr_restores environment, restores =>
      restores = s.restores.values.filter fun restore => restore.environment = environment
  | .get_pitr_recovery_plan id, plan => s.plans[id]? = some plan ∧ plan.plan_id = id
  | .get_pitr_base_manifest id, m => s.manifests[id]? = some m ∧ m.base_backup_id = id
  | .get_wal_receipt name, r => s.receipts[name]? = some r ∧ r.filename = name
  | .find_wal_receipt name, r => s.receipts[name]? = r
  | _, _ => True

/-- What a call changes. A pin is created once and stays as it was created. -/
def PitrCall.effect (s : Archive) : PitrCall → Archive
  | .create_pitr_pin pin =>
    { s with pins := s.pins.insertIfNew (pin_key pin.kind pin.pin_id) pin }
  | .delete_base_marker id => { s with bases := s.bases.erase id }
  | .delete_wal name => { s with wal := s.wal.erase name }
  | .save_pitr_base_manifest m => { s with manifests := s.manifests.insert m.base_backup_id m }
  | .save_wal_receipt r => { s with receipts := s.receipts.insert r.filename r }
  | .save_pitr_recovery_plan p => { s with plans := s.plans.insert p.plan_id p }
  | _ => s

/-- A call that succeeds has read truly and taken effect; one that fails may have taken
effect. -/
def pitr : World Pitr Archive := fun o s r t =>
  match r with
  | .ok value => PitrCall.Reads s o value ∧ t = PitrCall.effect s o
  | .error _ => t = s ∨ t = PitrCall.effect s o

/-- The stored value, where it passes the check. -/
def found {α : Type} (stored : Option α) (check : α → Bool) : Except String α :=
  match stored with
  | none => .error "not found"
  | some a => if check a then .ok a else .error "refused"

theorem found_ok {α : Type} {stored : Option α} {check : α → Bool} {a : α}
    (h : found stored check = .ok a) : stored = some a ∧ check a = true := by
  cases stored with
  | none => cases h
  | some b =>
    simp only [found] at h
    split at h
    · cases h
      exact ⟨rfl, by assumption⟩
    · cases h

/-- What a call returns where every call that can succeed does. -/
def PitrCall.answer (s : Archive) : (o : PitrCall) → o.Answer
  | .resolve_system_identifier => .ok "7400000000000000001"
  | .token_hex _ => .ok "5ca1ab1e5ca1ab1e"
  | .acquire_coordination_lease _ _ => .ok ()
  | .renew_coordination_lease => .ok ()
  | .release_coordination_lease => .ok ()
  | .list_base_backups => .ok s.bases.keys
  | .read_base_manifest id =>
    (found s.bases[id]? fun b =>
      b.manifest.base_backup_id = id ∧ b.manifest.status = .complete).map BaseObject.manifest
  | .verify_base_backup id => (found s.bases[id]? fun _ => true).map BaseObject.last_modified
  | .list_wal => .ok (s.wal.toList.filter fun x => is_archive_name x.1)
  | .verify_wal name expected => found s.wal[name]? fun w => ∀ digest ∈ expected, digest = w.sha256
  | .list_pitr_pins environment =>
    .ok (s.pins.values.filter fun pin => pin.environment = environment)
  | .get_pitr_pin kind id => found s.pins[pin_key kind id]? fun _ => true
  | .create_pitr_pin pin => found (some pin) fun _ =>
    ∀ stored ∈ s.pins[pin_key pin.kind pin.pin_id]?, stored = pin
  | .list_base_objects _ => .ok []
  | .delete_base_marker _ => .ok ()
  | .delete_base_object _ _ => .ok ()
  | .delete_wal _ => .ok ()
  | .download_wal name => found s.wal[name]? fun _ => true
  | .list_pitr_recovery_plans environment =>
    .ok (s.plans.values.filter fun plan => plan.environment = environment)
  | .list_pitr_restores environment =>
    .ok (s.restores.values.filter fun restore => restore.environment = environment)
  | .get_pitr_recovery_plan id => found s.plans[id]? fun plan => plan.plan_id = id
  | .get_pitr_base_manifest id => found s.manifests[id]? fun m => m.base_backup_id = id
  | .get_wal_receipt name => found s.receipts[name]? fun r => r.filename = name
  | .find_wal_receipt name => .ok s.receipts[name]?
  | .save_pitr_base_manifest _ => .ok ()
  | .save_wal_receipt _ => .ok ()
  | .save_pitr_recovery_plan _ => .ok ()

def serve (o : Pitr.Op) (s : Archive) : Pitr.Reply o × Archive :=
  match PitrCall.answer s o with
  | .ok v => (.ok v, PitrCall.effect s o)
  | .error e => (.error e, s)

theorem map_found_ok {α β : Type} {stored : Option α} {check : α → Bool} {f : α → β} {b : β}
    (h : (found stored check).map f = .ok b) : ∃ a, stored = some a ∧ check a = true ∧ f a = b := by
  cases hf : found stored check with
  | error e =>
    rw [hf] at h
    cases h
  | ok a =>
    rw [hf] at h
    obtain ⟨hstored, hcheck⟩ := found_ok hf
    exact ⟨a, hstored, hcheck, Except.ok.inj h⟩

theorem PitrCall.reads_of_answer {s : Archive} {o : PitrCall} {v : o.Value}
    (h : PitrCall.answer s o = .ok v) : PitrCall.Reads s o v := by
  cases o with
  | list_base_backups => exact (Except.ok.inj h).symm
  | list_wal => exact (Except.ok.inj h).symm
  | list_pitr_pins environment => exact (Except.ok.inj h).symm
  | list_pitr_recovery_plans environment => exact (Except.ok.inj h).symm
  | list_pitr_restores environment => exact (Except.ok.inj h).symm
  | find_wal_receipt name => exact Except.ok.inj h
  | read_base_manifest id =>
    obtain ⟨b, hb, hcheck, rfl⟩ := map_found_ok h
    obtain ⟨hid, hcomplete⟩ := of_decide_eq_true hcheck
    exact ⟨⟨b, hb, rfl⟩, hid, hcomplete⟩
  | verify_base_backup id =>
    obtain ⟨b, hb, -, hm⟩ := map_found_ok h
    exact ⟨b, hb, hm⟩
  | verify_wal name expected =>
    obtain ⟨hw, hcheck⟩ := found_ok h
    exact ⟨hw, of_decide_eq_true hcheck⟩
  | get_pitr_pin kind id => exact (found_ok h).1
  | create_pitr_pin pin =>
    have h : found (some pin) (fun _ => decide (∀ stored ∈ s.pins[pin_key pin.kind pin.pin_id]?,
      stored = pin)) = .ok v := h
    obtain ⟨hpin, hcheck⟩ := found_ok h
    exact ⟨(Option.some.inj hpin).symm, of_decide_eq_true hcheck⟩
  | download_wal name => exact (found_ok h).1
  | get_pitr_recovery_plan id =>
    obtain ⟨hstored, hcheck⟩ := found_ok h
    exact ⟨hstored, of_decide_eq_true hcheck⟩
  | get_pitr_base_manifest id =>
    obtain ⟨hstored, hcheck⟩ := found_ok h
    exact ⟨hstored, of_decide_eq_true hcheck⟩
  | get_wal_receipt name =>
    obtain ⟨hstored, hcheck⟩ := found_ok h
    exact ⟨hstored, of_decide_eq_true hcheck⟩
  | resolve_system_identifier => trivial
  | token_hex bytes => trivial
  | acquire_coordination_lease purpose owner => trivial
  | renew_coordination_lease => trivial
  | release_coordination_lease => trivial
  | list_base_objects id => trivial
  | delete_base_marker id => trivial
  | delete_base_object id path => trivial
  | delete_wal name => trivial
  | save_pitr_base_manifest m => trivial
  | save_wal_receipt r => trivial
  | save_pitr_recovery_plan p => trivial

theorem pitr_serve (o : Pitr.Op) (s : Archive) : pitr o s (serve o s).1 (serve o s).2 := by
  cases h : PitrCall.answer s o with
  | ok v =>
    rw [serve, h]
    exact ⟨PitrCall.reads_of_answer h, rfl⟩
  | error e =>
    rw [serve, h]
    exact .inl rfl

end PitrArchive
