import Odooctl.PostgresCatalog
import Odooctl.PythonText
import Mathlib.Data.List.ReduceOption

/-!
# The durable record of a point-in-time restore

`PitrRestoreMetadata` with its validators and the file store that keeps one record for
each restore. Timestamps are instants in microseconds and an LSN is its two words: their
texts are read by nothing modelled here.
-/
namespace PitrRestoreRecord

open PostgresCatalog PythonText

abbrev Timestamp := ℕ

structure Lsn where
  hi : Fin (2 ^ 32)
  lo : Fin (2 ^ 32)
  deriving DecidableEq, Repr

/-! ## Validators -/

def isComponentChar (c : Char) : Bool := c.isAlphanum || c == '.' || c == '_' || c == '-'

/-- `".." in value`. -/
def hasDoubleDot : List Char → Bool
  | '.' :: '.' :: _ => true
  | _ :: cs => hasDoubleDot cs
  | [] => false

theorem hasDoubleDot_cons (c : Char) (cs : List Char) :
    hasDoubleDot (c :: cs) = ((c == '.' && cs.head? == some '.') || hasDoubleDot cs) := by
  cases cs with
  | nil => simp [hasDoubleDot]
  | cons d cs =>
    by_cases hc : c = '.' <;> by_cases hd : d = '.' <;> simp [hasDoubleDot, hc, hd]

theorem hasDoubleDot_mono {xs ys : List Char} (h : xs <+: ys)
    (hy : hasDoubleDot ys = false) : hasDoubleDot xs = false := by
  obtain ⟨zs, rfl⟩ := h
  induction xs with
  | nil => rfl
  | cons c xs ih =>
    rw [List.cons_append, hasDoubleDot_cons] at hy
    rw [hasDoubleDot_cons]
    cases xs with
    | nil => simp [hasDoubleDot]
    | cons d xs => simp_all

theorem hasDoubleDot_append {xs ys : List Char} (hx : hasDoubleDot xs = false)
    (hy : ∀ c ∈ ys, c ≠ '.') : hasDoubleDot (xs ++ ys) = false := by
  induction xs with
  | nil =>
    induction ys with
    | nil => rfl
    | cons c ys ih =>
      have hc : c ≠ '.' := hy c List.mem_cons_self
      rw [List.nil_append] at ih ⊢
      rw [hasDoubleDot_cons, ih fun d hd => hy d (List.mem_cons_of_mem _ hd)]
      simp [hc]
  | cons c xs ih =>
    rw [hasDoubleDot_cons, Bool.or_eq_false_iff] at hx
    rw [List.cons_append, hasDoubleDot_cons, ih hx.2]
    cases xs with
    | nil =>
      cases ys with
      | nil => simp
      | cons d ys => simp [hy d List.mem_cons_self]
    | cons d xs => simpa using hx.1

/-- `_SAFE_COMPONENT_RE`: `[A-Za-z0-9][A-Za-z0-9._-]{0,127}`. -/
def matchesComponent : List Char → Bool
  | [] => false
  | c :: cs => c.isAlphanum && cs.all isComponentChar && decide (cs.length ≤ 127)

def is_safe_component (value : String) : Bool :=
  !hasDoubleDot value.toList && matchesComponent value.toList

/-- `str.isspace` of one character. -/
def isSpace (c : Char) : Bool :=
  c.toNat ∈ [0x20, 0x85, 0xA0, 0x1680, 0x2028, 0x2029, 0x202F, 0x205F, 0x3000] ||
  decide (0x09 ≤ c.toNat ∧ c.toNat ≤ 0x0D) || decide (0x1C ≤ c.toNat ∧ c.toNat ≤ 0x1F) ||
  decide (0x2000 ≤ c.toNat ∧ c.toNat ≤ 0x200A)

def is_safe_label (value : String) : Bool :=
  !value.toList.all isSpace && decide (value.toList.length ≤ 256) &&
  !value.toList.any (fun c => decide (c.toNat < 32))

/-- `_SYSTEM_IDENTIFIER_RE`: `[1-9][0-9]{0,19}`. -/
def is_system_identifier (value : String) : Bool :=
  match value.toList with
  | [] => false
  | c :: cs => c.isDigit && c != '0' && cs.all Char.isDigit && decide (cs.length ≤ 19)

def componentFault (label value : String) : Option String :=
  if is_safe_component value then none else some s!"{label} contains unsupported characters"

def labelFault (label value : String) : Option String :=
  if is_safe_label value then none
  else some s!"{label} must be non-empty and contain no control characters"

def systemIdentifierFault (label value : String) : Option String :=
  if is_system_identifier value then none
  else some s!"{label} must be a decimal PostgreSQL system identifier"

def timelineFault (value : ℕ) : Option String :=
  if value < 1 then some "Input should be greater than or equal to 1"
  else if value > 0xFFFFFFFF then some "Input should be less than or equal to 4294967295"
  else none

/-- Cutting a safe component and closing it with characters other than dots keeps it safe. -/
theorem is_safe_component_append {cs us vs : List Char}
    (hcs : is_safe_component (String.ofList cs) = true) (hu : us <+: cs) (hne : us ≠ [])
    (hv : ∀ c ∈ vs, isComponentChar c = true ∧ c ≠ '.') (hlen : (us ++ vs).length ≤ 128) :
    is_safe_component (String.ofList (us ++ vs)) = true := by
  simp only [is_safe_component, String.toList_ofList, Bool.and_eq_true, Bool.not_eq_true'] at hcs ⊢
  obtain ⟨hdots, hmatch⟩ := hcs
  refine ⟨hasDoubleDot_append (hasDoubleDot_mono hu hdots) fun c hc => (hv c hc).2, ?_⟩
  obtain ⟨ws, rfl⟩ := hu
  cases us with
  | nil => exact absurd rfl hne
  | cons c us =>
    simp only [List.cons_append, matchesComponent, Bool.and_eq_true, List.all_append,
      List.length_append, List.length_cons, decide_eq_true_eq] at hmatch hlen ⊢
    obtain ⟨⟨hc, hus, -⟩, -⟩ := hmatch
    refine ⟨⟨hc, hus, ?_⟩, by omega⟩
    rw [List.all_eq_true]
    exact fun d hd => (hv d hd).1

/-! ## The record -/

inductive RestoreStatus where
  | pending
  | recovering
  | verified
  | cutover
  | failed
  deriving DecidableEq, Repr

/-- The payload of a record, before validation. -/
structure PitrRestoreFields where
  restore_id : String
  plan_id : String
  base_backup_id : String
  project : String
  environment : String
  cluster_id : String
  system_identifier : String
  database : DbName
  new_database : DbName
  target_time : Timestamp
  target_timeline : ℕ
  timestamp : Timestamp
  recovered_at : Option Timestamp := none
  recovered_lsn : Option Lsn := none
  verified : Bool := false
  cutover : Bool := false
  cutover_finalized : Bool := false
  cutover_aside_database : Option DbName := none
  cutover_incoming_oid : Option Oid := none
  cutover_target_oid : Option Oid := none
  cutover_started_at : Option Timestamp := none
  cutover_completed_at : Option Timestamp := none
  status : RestoreStatus := .pending
  last_error : Option String := none
  deriving DecidableEq, Repr

namespace PitrRestoreFields

/-- The field validators, in the order of the fields. -/
def fieldFaults (m : PitrRestoreFields) : List String :=
  [componentFault "restore_id" m.restore_id,
   componentFault "plan_id" m.plan_id,
   componentFault "base_backup_id" m.base_backup_id,
   labelFault "project" m.project,
   componentFault "environment" m.environment,
   componentFault "cluster_id" m.cluster_id,
   systemIdentifierFault "system_identifier" m.system_identifier,
   componentFault "database" m.database,
   componentFault "new_database" m.new_database,
   timelineFault m.target_timeline,
   m.cutover_aside_database.bind (componentFault "cutover_aside_database")].reduceOption

def has_cutover_plan (m : PitrRestoreFields) : Bool := m.cutover_aside_database.isSome

def lifecycle_flags_must_match_status (m : PitrRestoreFields) : Option String :=
  if m.new_database = m.database then some "new_database must differ from the live database"
  else if m.has_cutover_plan ≠ m.cutover_incoming_oid.isSome then
    some "cutover_aside_database and cutover_incoming_oid must be recorded together"
  else if m.has_cutover_plan ≠ m.cutover_started_at.isSome then
    some "cutover plan identity and cutover_started_at must be recorded together"
  else if m.status = .verified ∧ m.verified = false then
    some "verified PITR restore metadata must be verified"
  else if m.status = .cutover ∧ m.verified = false then
    some "cutover PITR restore metadata must be verified"
  else if m.status = .cutover ∧ m.cutover = false then
    some "cutover PITR restore metadata must set cutover=true"
  else if m.cutover = true ∧ m.status ≠ .cutover then some "cutover=true requires status='cutover'"
  else if m.cutover = true ∧ m.has_cutover_plan = false then
    some "cutover=true requires durable cutover plan identity"
  else if m.cutover ≠ m.cutover_completed_at.isSome then
    some "cutover and cutover_completed_at must be recorded together"
  else if m.cutover_finalized = true ∧ m.cutover = false then
    some "cutover_finalized=true requires cutover=true"
  else none

/-- What `model_validate` reports: the model validator runs once the fields are sound. -/
def faults (m : PitrRestoreFields) : List String :=
  match m.fieldFaults with
  | [] => m.lifecycle_flags_must_match_status.toList
  | fs => fs

end PitrRestoreFields

/-- A record that its validators accept. -/
structure PitrRestoreMetadata extends PitrRestoreFields where
  valid : toPitrRestoreFields.faults = []
  deriving DecidableEq

def model_validate (m : PitrRestoreFields) : Except (List String) PitrRestoreMetadata :=
  if h : m.faults = [] then .ok ⟨m, h⟩ else .error m.faults

/-- `_validated_update`: apply the updates to the payload and validate it again. -/
def validated_update (m : PitrRestoreMetadata)
    (updates : PitrRestoreFields → PitrRestoreFields) : Except (List String) PitrRestoreMetadata :=
  model_validate (updates m.toPitrRestoreFields)

theorem faults_eq_nil {m : PitrRestoreFields} :
    m.faults = [] ↔ m.fieldFaults = [] ∧ m.lifecycle_flags_must_match_status = none := by
  unfold PitrRestoreFields.faults
  cases hf : m.fieldFaults with
  | nil => simp
  | cons f fs => simp

/-- What the model validator guarantees of an accepted record. -/
structure Lifecycle (m : PitrRestoreFields) : Prop where
  databases_differ : m.new_database ≠ m.database
  incoming : m.cutover_aside_database.isSome = m.cutover_incoming_oid.isSome
  started : m.cutover_aside_database.isSome = m.cutover_started_at.isSome
  verified : m.status = .verified ∨ m.status = .cutover → m.verified = true
  status : m.cutover = true ↔ m.status = .cutover
  planned : m.cutover = true → m.cutover_aside_database.isSome = true
  completed : m.cutover = m.cutover_completed_at.isSome
  finalized : m.cutover_finalized = true → m.cutover = true

theorem lifecycle_iff {m : PitrRestoreFields} :
    m.lifecycle_flags_must_match_status = none ↔ Lifecycle m := by
  unfold PitrRestoreFields.lifecycle_flags_must_match_status PitrRestoreFields.has_cutover_plan
  constructor
  · intro h
    constructor <;> grind
  · rintro ⟨h₁, h₂, h₃, h₄, h₅, h₆, h₇, h₈⟩
    grind

theorem PitrRestoreMetadata.lifecycle (m : PitrRestoreMetadata) :
    Lifecycle m.toPitrRestoreFields :=
  lifecycle_iff.mp (faults_eq_nil.mp m.valid).2

theorem PitrRestoreMetadata.fields_sound (m : PitrRestoreMetadata) :
    m.toPitrRestoreFields.fieldFaults = [] :=
  (faults_eq_nil.mp m.valid).1

/-- An update is accepted if its fields are sound and its flags match its status. -/
theorem validated_update_ok {m : PitrRestoreMetadata}
    {updates : PitrRestoreFields → PitrRestoreFields}
    (hf : (updates m.toPitrRestoreFields).fieldFaults = [])
    (hl : Lifecycle (updates m.toPitrRestoreFields)) :
    ∃ m', validated_update m updates = .ok m' ∧
      m'.toPitrRestoreFields = updates m.toPitrRestoreFields := by
  have hv : (updates m.toPitrRestoreFields).faults = [] :=
    faults_eq_nil.mpr ⟨hf, lifecycle_iff.mpr hl⟩
  exact ⟨⟨_, hv⟩, by simp [validated_update, model_validate, hv], rfl⟩

/-! ## The store -/

/-- The restore files, by the name they are stored under. -/
abbrev Restores := String → Option PitrRestoreMetadata

/-- `_safe_pitr_component`. -/
def is_safe_pitr_component (value : String) : Bool :=
  decide (value.toList ≠ []) && decide (value.toList.length ≤ 128) && value != "." &&
  !hasDoubleDot value.toList && value.toList.all isComponentChar

/-- What the validators accept as an identifier is accepted as a file name. -/
theorem is_safe_pitr_component_of_safe {value : String} (h : is_safe_component value = true) :
    is_safe_pitr_component value = true := by
  simp only [is_safe_component, Bool.and_eq_true, Bool.not_eq_true'] at h
  obtain ⟨hdots, hmatch⟩ := h
  cases hlist : value.toList with
  | nil => simp [hlist, matchesComponent] at hmatch
  | cons c cs =>
    rw [hlist] at hdots
    simp only [hlist, matchesComponent, Bool.and_eq_true, decide_eq_true_eq] at hmatch
    obtain ⟨⟨hc, hcs⟩, hlen⟩ := hmatch
    have hne : value ≠ "." := by
      rintro rfl
      have hhead : '.' = c := (List.cons.inj hlist).1
      rw [← hhead] at hc
      revert hc
      decide
    simp only [is_safe_pitr_component, hlist, hdots, List.all_cons, isComponentChar, hc,
      Bool.true_or, Bool.true_and, ne_eq, reduceCtorEq, not_false_eq_true, decide_true,
      List.length_cons, Bool.and_eq_true, decide_eq_true_eq, bne_iff_ne, hne, Bool.not_false]
    exact ⟨⟨⟨by omega, trivial⟩, trivial⟩, hcs⟩

/-- The fields of a record that no later save may change. -/
def PitrRestoreFields.identity (m : PitrRestoreFields) : List String :=
  [m.restore_id, m.plan_id, m.base_backup_id, m.project, m.environment, m.cluster_id,
    m.system_identifier]

namespace Restores

def get_pitr_restore (store : Restores) (restore_id : String) :
    Except String PitrRestoreMetadata :=
  if is_safe_pitr_component restore_id = false then
    .error "restore_id contains unsupported characters"
  else match store restore_id with
  | none => .error s!"PITR restore metadata not found: {restore_id}"
  | some metadata =>
    if metadata.restore_id ≠ restore_id then
      .error (s!"PITR restore metadata identity mismatch: requested {quoted restore_id}, " ++
        s!"payload contains {quoted metadata.restore_id}")
    else .ok metadata

def save_pitr_restore (store : Restores) (metadata : PitrRestoreMetadata) :
    Except String Restores :=
  if is_safe_pitr_component metadata.restore_id = false then
    .error "restore_id contains unsupported characters"
  else match store metadata.restore_id with
  | none => .ok (Function.update store metadata.restore_id (some metadata))
  | some current =>
    if current.identity ≠ metadata.identity then
      .error ("PitrRestoreMetadata identity conflict at " ++
        quoted (metadata.restore_id ++ ".json"))
    else .ok (Function.update store metadata.restore_id (some metadata))

end Restores

end PitrRestoreRecord
