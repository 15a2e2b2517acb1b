import Odooctl.BackupManifests
import Odooctl.InterleavedPrograms
import Odooctl.PitrArchive
import Odooctl.ProgramRules

/-!
# Write-once receipts of archived WAL

`save_wal_receipt` of `metadata/store.py` and the file system calls of `_write_immutable`. Any
number of calls run side by side. A call that is scheduled no more has crashed, and its
temporary file stays.
-/
namespace WalReceipts

open EffectPrograms InterleavedPrograms ProgramRules WalSegments
open HexNumerals (isHexDigit digitChar digitChar_digitValue digitValue_lt)
open PitrRestoreRecord
open PythonText (quoted)

structure Receipt extends PitrArchive.WalReceipt where
  cluster_safe : is_safe_component cluster_id = true
  system_safe : is_system_identifier system_identifier = true
  deriving DecidableEq

/-! ## Paths -/

structure SegmentKey where
  cluster_id : String
  system_identifier : String
  filename : String
  deriving DecidableEq, Repr

def Receipt.key (receipt : Receipt) : SegmentKey :=
  ⟨receipt.cluster_id, receipt.system_identifier, receipt.filename⟩

/-- `000000010000000000000002.json`, and the temporary names beside it. -/
inductive FileName where
  | receipt (key : SegmentKey)
  | temporary (key : SegmentKey) (hex : String)
  deriving DecidableEq, Repr

inductive StoreFailure where
  | value (message : String)
  | runtime (message : String)
  | os (message : String)
  | decode (message : String)
  deriving DecidableEq, Repr

def safe_pitr_component (value label : String) : Except StoreFailure String :=
  if is_safe_pitr_component value then .ok value
  else .error (.value s!"{label} contains unsupported characters")

def safe_system_identifier (value : String) : Except StoreFailure String :=
  if is_system_identifier value then .ok value
  else .error (.value "system_identifier must be a decimal PostgreSQL system identifier")

def wal_receipt_path (cluster_id system_identifier filename : String) :
    Except StoreFailure SegmentKey := do
  let safe_cluster ← safe_pitr_component cluster_id "cluster_id"
  let safe_system ← safe_system_identifier system_identifier
  let safe_filename ← safe_pitr_component filename "filename"
  return ⟨safe_cluster, safe_system, safe_filename⟩

theorem hasDoubleDot_free {xs ys : List Char} (h : ∀ c ∈ xs, c ≠ '.') :
    hasDoubleDot (xs ++ ys) = hasDoubleDot ys := by
  induction xs with
  | nil => rfl
  | cons c xs ih =>
    have hc : c ≠ '.' := h c List.mem_cons_self
    rw [List.cons_append, hasDoubleDot_cons, ih fun d hd => h d (List.mem_cons_of_mem c hd)]
    simp [hc]

theorem component_of_hexDigit {c : Char} (h : isHexDigit c = true) :
    isComponentChar c = true ∧ c ≠ '.' := by
  have hdigits : ∀ n < 16, isComponentChar (digitChar n) = true ∧ digitChar n ≠ '.' := by decide
  rw [← digitChar_digitValue h]
  exact hdigits _ (digitValue_lt h)

section Names

variable {filename : String} {us vs : List Char}

/-- Digits and a tail without a double dot make a file name. -/
theorem safe_of_digits (hname : filename.toList = us ++ vs) (hus : us.all isHexDigit = true)
    (hne : us ≠ []) (hlen : (us ++ vs).length ≤ 128) (hdots : hasDoubleDot vs = false)
    (hvs : vs.all isComponentChar = true) : is_safe_pitr_component filename = true := by
  have hhex : ∀ c ∈ us, isHexDigit c = true := List.all_eq_true.mp hus
  have hfree : hasDoubleDot (us ++ vs) = false := by
    rw [hasDoubleDot_free fun c hc => (component_of_hexDigit (hhex c hc)).2]
    exact hdots
  have hchars : (us ++ vs).all isComponentChar = true := by
    rw [List.all_append, hvs, Bool.and_true, List.all_eq_true]
    exact fun c hc => (component_of_hexDigit (hhex c hc)).1
  have hdot : filename ≠ "." := by
    rintro rfl
    cases us with
    | nil => exact hne rfl
    | cons c us =>
      have hc : '.' = c := (List.cons.inj hname).1
      exact (component_of_hexDigit (hhex c List.mem_cons_self)).2 hc.symm
  have hnonempty : filename.toList ≠ [] := by simp [hname, hne]
  rw [← hname] at hlen hfree hchars
  simp [is_safe_pitr_component, hnonempty, hlen, hdot, hfree, hchars]

/-- The suffix of a backup history file. -/
theorem backup_suffix {ws : List Char} (hws : ws.all isHexDigit = true) (hne : ws ≠ []) :
    hasDoubleDot ('.' :: (ws ++ ".backup".toList)) = false ∧
      ('.' :: (ws ++ ".backup".toList)).all isComponentChar = true := by
  have hhex : ∀ c ∈ ws, isHexDigit c = true := List.all_eq_true.mp hws
  constructor
  · rw [hasDoubleDot_cons, hasDoubleDot_free fun c hc => (component_of_hexDigit (hhex c hc)).2]
    cases ws with
    | nil => exact absurd rfl hne
    | cons c ws =>
      have hc : c ≠ '.' := (component_of_hexDigit (hhex c List.mem_cons_self)).2
      simp [hc, hasDoubleDot]
  · have hchars : ws.all isComponentChar = true :=
      List.all_eq_true.mpr fun c hc => (component_of_hexDigit (hhex c hc)).1
    rw [List.all_cons, List.all_append, hchars]
    decide

theorem safe_of_archive_name (h : is_archive_name filename = true) :
    is_safe_pitr_component filename = true := by
  unfold is_archive_name at h
  simp only [Bool.or_eq_true] at h
  rcases h with (hsegment | hhistory) | hbackup
  · simp only [isSegmentName, Bool.and_eq_true, beq_iff_eq] at hsegment
    obtain ⟨hlen, hhex⟩ := hsegment
    apply safe_of_digits (List.append_nil _).symm hhex
    · intro hnil
      simp [hnil] at hlen
    · simp [hlen]
    · rfl
    · rfl
  · simp only [isHistoryName, Bool.and_eq_true, beq_iff_eq] at hhistory
    obtain ⟨⟨hlen, hhex⟩, hrest⟩ := hhistory
    apply safe_of_digits (List.take_append_drop 8 _).symm hhex
    · intro hnil
      simp [hnil] at hlen
    · rw [List.length_append, hlen, hrest]
      decide
    · rw [hrest]
      decide
    · rw [hrest]
      decide
  · simp only [isBackupName, isSegmentName, Bool.and_eq_true, beq_iff_eq] at hbackup
    obtain ⟨⟨⟨⟨⟨hlen, hhex⟩, hdot⟩, hlen'⟩, hhex'⟩, hrest⟩ := hbackup
    have hname : filename.toList = filename.toList.take 24 ++
        ('.' :: ((filename.toList.drop 25).take 8 ++ ".backup".toList)) := by
      have hsplit := List.take_append_drop 1 (filename.toList.drop 24)
      have hsplit' := List.take_append_drop 8 (filename.toList.drop 25)
      rw [hdot, List.drop_drop] at hsplit
      rw [List.drop_drop, hrest] at hsplit'
      rw [hsplit']
      exact ((List.take_append_drop 24 _).symm.trans (congrArg _ hsplit.symm))
    obtain ⟨hdots, hchars⟩ := backup_suffix hhex' (by
      intro hnil
      simp [hnil] at hlen')
    apply safe_of_digits hname hhex
    · intro hnil
      simp [hnil] at hlen
    · rw [List.length_append, List.length_cons, List.length_append, hlen, hlen']
      decide
    · exact hdots
    · exact hchars

theorem wal_receipt_path_ok (receipt : Receipt) :
    wal_receipt_path receipt.cluster_id receipt.system_identifier receipt.filename =
      .ok receipt.key := by
  simp [wal_receipt_path, safe_pitr_component, safe_system_identifier, Receipt.key,
    is_safe_pitr_component_of_safe receipt.cluster_safe, receipt.system_safe,
    safe_of_archive_name receipt.named, bind, Except.bind, pure, Except.pure]

end Names

/-! ## The disk -/

/-- What a name is bound to; files are numbered in the order in which they were created. -/
inductive Node where
  | file (number : ℕ)
  | link
  | other
  deriving DecidableEq, Repr

def Node.is_regular : Node → Bool
  | .file _ => true
  | .link | .other => false

structure Disk where
  names : FileName → Option Node
  contents : ℕ → List Char
  created : ℕ
  bounded : ∀ name file, names name = some (.file file) → file < created

namespace Disk

variable (s : Disk)

def write (file : ℕ) (text : List Char) : Disk where
  names := s.names
  contents := Function.update s.contents file text
  created := s.created
  bounded := s.bounded

/-- Bind a name to a new empty file. -/
def create (name : FileName) : Disk where
  names := Function.update s.names name (some (.file s.created))
  contents := Function.update s.contents s.created []
  created := s.created + 1
  bounded := by
    intro other file h
    by_cases hname : other = name
    · rw [hname, Function.update_self] at h
      cases h
      exact Nat.lt_succ_self _
    · rw [Function.update_of_ne hname] at h
      exact Nat.lt_succ_of_lt (s.bounded other file h)

/-- Bind `path` to what `name` is bound to. -/
def hardLink (name path : FileName) : Disk where
  names := Function.update s.names path (s.names name)
  contents := s.contents
  created := s.created
  bounded := by
    intro other file h
    by_cases hname : other = path
    · rw [hname, Function.update_self] at h
      exact s.bounded name file h
    · rw [Function.update_of_ne hname] at h
      exact s.bounded other file h

def remove (name : FileName) : Disk where
  names := Function.update s.names name none
  contents := s.contents
  created := s.created
  bounded := by
    intro other file h
    by_cases hname : other = name
    · rw [hname, Function.update_self] at h
      cases h
    · rw [Function.update_of_ne hname] at h
      exact s.bounded other file h

variable {s}

theorem create_names (name other : FileName) : (s.create name).names other =
    if other = name then some (.file s.created) else s.names other := Function.update_apply ..

theorem hardLink_names (name path other : FileName) : (s.hardLink name path).names other =
    if other = path then s.names name else s.names other := Function.update_apply ..

theorem remove_names (name other : FileName) : (s.remove name).names other =
    if other = name then none else s.names other := Function.update_apply ..

theorem write_contents (file : ℕ) (text : List Char) (other : ℕ) :
    (s.write file text).contents other = if other = file then text else s.contents other :=
  Function.update_apply ..

theorem create_contents {name : FileName} {file : ℕ} (h : file < s.created) :
    (s.create name).contents file = s.contents file :=
  Function.update_of_ne (Nat.ne_of_lt h) ..

end Disk

/-! ## The calls -/

inductive StoreCall where
  | ensure_parent (key : SegmentKey)
  | open_temporary (name : FileName)
  | write (handle : ℕ) (c : Char)
  | fsync (handle : ℕ)
  | link (name path : FileName)
  | is_regular (path : FileName)
  | read_text (path : FileName)
  | fsync_directory (key : SegmentKey)
  | unlink (name : FileName)
  deriving DecidableEq, Repr

inductive Linking where
  | linked
  | collided
  | failed (message : String)
  deriving DecidableEq, Repr

/-- A `read_text` that is no `OSError` is one of the decoder. -/
inductive Reading where
  | text (existing : List Char)
  | os (message : String)
  | decode (message : String)
  deriving DecidableEq, Repr

abbrev StoreCall.Answer : StoreCall → Type
  | .open_temporary _ => Except String ℕ
  | .link _ _ => Linking
  | .is_regular _ => Except String Bool
  | .read_text _ => Reading
  | _ => Except String Unit

abbrev Store : Interface := ⟨StoreCall, StoreCall.Answer⟩

abbrev StoreM := Prog Store StoreFailure

/-- A handle is the number of its file. After a failed write any text stands in the file, since
closing it flushes what is buffered. -/
def disk : World Store Disk
  | .open_temporary name, s, r, t => match r, s.names name with
    | .ok handle, none => handle = s.created ∧ t = s.create name
    | .ok handle, some (.file file) => handle = file ∧ t = s.write file []
    | .ok _, some _ => False
    | .error _, _ => t = s
  | .write handle c, s, r, t => match r with
    | .ok _ => t = s.write handle (s.contents handle ++ [c])
    | .error _ => ∃ text, t = s.write handle text
  | .link name path, s, r, t => match r with
    | .linked => s.names name ≠ none ∧ s.names path = none ∧ t = s.hardLink name path
    | .collided => s.names path ≠ none ∧ t = s
    | .failed _ => t = s
  | .is_regular path, s, r, t => t = s ∧ match r with
    | .ok regular => regular = (s.names path).any Node.is_regular
    | .error _ => True
  | .read_text path, s, r, t => t = s ∧ match r with
    | .text existing => ∃ file, s.names path = some (.file file) ∧ existing = s.contents file
    | .os _ | .decode _ => True
  | .unlink name, s, r, t => match r with
    | .ok _ => t = s.remove name
    | .error _ => t = s
  | .ensure_parent _, s, _, t | .fsync _, s, _, t | .fsync_directory _, s, _, t => t = s

def failed : (o : StoreCall) → o.Answer → Bool
  | .open_temporary _, r => match r with
    | .ok _ => false
    | .error _ => true
  | .link _ _, r => match r with
    | .linked | .collided => false
    | .failed _ => true
  | .is_regular _, r => match r with
    | .ok _ => false
    | .error _ => true
  | .read_text _, r => match r with
    | .text _ => false
    | .os _ | .decode _ => true
  | .ensure_parent _, r | .write _ _, r | .fsync _, r | .fsync_directory _, r | .unlink _, r =>
    match r with
    | .ok _ => false
    | .error _ => true

/-- The calls of a calm index fail only where they cannot succeed. -/
def world {ι : Type} (calm : ι → Prop) (i : ι) : World Store Disk := fun o s r t =>
  disk o s r t ∧
    (calm i → failed o r = true → ∀ r' t', disk o s r' t' → failed o r' = true)

/-! ## Saving a receipt -/

/-- The text and the parser of a receipt, and the root of the store. -/
structure Setting where
  root : String
  model_dump_json : Receipt → List Char
  model_validate_json : List Char → Except String Receipt

variable (w : Setting)

def Setting.pathText (key : SegmentKey) : String :=
  s!"{w.root}/pitr/wal/{key.cluster_id}/{key.system_identifier}/{key.filename}.json"

def call {α : Type} (o : StoreCall) (reply : o.Answer → Except StoreFailure α) : StoreM α :=
  .perform (F := Store) o reply

def raised {α : Type} (r : Except String α) : Except StoreFailure α := r.mapError .os

def write_text (handle : ℕ) : List Char → StoreM Unit
  | [] => .pure ()
  | c :: cs => do
    call (.write handle c) raised
    write_text handle cs

def collision (key : SegmentKey) : StoreM (Option (List Char)) := do
  let regular ← call (.is_regular (.receipt key)) raised
  if regular = false then
    .raise (.runtime s!"Immutable metadata path is not a regular file: {w.pathText key}")
  else
    call (.read_text (.receipt key)) fun r => match r with
      | .text existing => .ok (some existing)
      | .os exc => .error (.runtime
          s!"Could not read immutable metadata collision at {w.pathText key}: {exc}")
      | .decode exc => .error (.decode exc)

/-- Publish the text once; the result is the existing text on a collision. -/
def publish (key : SegmentKey) (hex : String) (payload : List Char) :
    StoreM (Option (List Char)) := do
  let handle ← call (.open_temporary (.temporary key hex)) raised
  write_text handle payload
  call (.fsync handle) raised
  let linking ← call (.link (.temporary key hex) (.receipt key)) .ok
  match linking with
  | .failed exc => .raise (.os exc)
  | .collided => collision w key
  | .linked => do
    call (.fsync_directory key) raised
    .pure none

def write_immutable (key : SegmentKey) (hex : String) (payload : List Char) :
    StoreM (Option (List Char)) :=
  (publish w key hex payload).ensuring (call (.unlink (.temporary key hex)) raised)

/-- `hex` is the value of `uuid.uuid4().hex`. -/
def save_wal_receipt (hex : String) (receipt : Receipt) : StoreM SegmentKey := do
  let path ← .ofExcept
    (wal_receipt_path receipt.cluster_id receipt.system_identifier receipt.filename)
  call (.ensure_parent path) raised
  let existing ← write_immutable w path hex (w.model_dump_json receipt)
  match existing with
  | none => .pure path
  | some existing => match w.model_validate_json existing with
    | .error _ => .raise (.runtime
        s!"Existing WAL receipt is invalid and cannot be replaced: {w.pathText path}")
    | .ok current =>
      if current ≠ receipt then .raise (.runtime (
        "Conflicting WAL receipt cannot overwrite immutable receipt for " ++
          quoted receipt.filename))
      else .pure path

/-! ## What calls rely on -/

/-- Every receipt keeps its file and the text of it. -/
def Kept (s t : Disk) : Prop := ∀ key node, s.names (.receipt key) = some node →
  t.names (.receipt key) = some node ∧ ∀ file, node = .file file → t.contents file = s.contents file

def Unpublished (s : Disk) (file : ℕ) : Prop := ∀ key, s.names (.receipt key) ≠ some (.file file)

theorem Kept.refl (s : Disk) : Kept s s := fun _ _ h => ⟨h, fun _ _ => rfl⟩

theorem Kept.trans {s t u : Disk} (h : Kept s t) (k : Kept t u) : Kept s u := by
  intro key node hnode
  obtain ⟨ht, hcontents⟩ := h key node hnode
  obtain ⟨hu, hcontents'⟩ := k key node ht
  exact ⟨hu, fun file hfile => (hcontents' file hfile).trans (hcontents file hfile)⟩

variable {ι : Type} (receipt : ι → Receipt) (hex : ι → String)

def temporaryOf (i : ι) : FileName := .temporary (receipt i).key (hex i)

/-- No two calls write one file. -/
def Separate (s : Disk) : Prop := ∀ i j file,
  s.names (temporaryOf receipt hex i) = some (.file file) →
  s.names (temporaryOf receipt hex j) = some (.file file) → i = j

/-- The temporary file of call `i` is its own. -/
structure Around (i : ι) (s t : Disk) : Prop where
  kept : Kept s t
  temporary : t.names (temporaryOf receipt hex i) = s.names (temporaryOf receipt hex i)
  own : ∀ file, s.names (temporaryOf receipt hex i) = some (.file file) → Unpublished s file →
    Unpublished t file ∧ t.contents file = s.contents file

/-- Where call `i` stands when it does an operation. -/
def Guarded (i : ι) : StoreCall → Disk → Prop
  | .open_temporary name, s => name = temporaryOf receipt hex i ∧ s.names name = none
  | .write handle _, s => s.names (temporaryOf receipt hex i) = some (.file handle) ∧
      Unpublished s handle
  | .link name path, s => name = temporaryOf receipt hex i ∧ path = .receipt (receipt i).key ∧
      ∃ file, s.names name = some (.file file) ∧ Unpublished s file ∧
        s.contents file = w.model_dump_json (receipt i)
  | .unlink name, _ => name = temporaryOf receipt hex i
  | _, _ => True

/-- Every file that is published was published before, or is the whole text of a receipt of
this segment. -/
def Whole (s t : Disk) : Prop := ∀ key file, t.names (.receipt key) = some (.file file) →
  s.names (.receipt key) = some (.file file) ∨
    ∃ i, (receipt i).key = key ∧ t.contents file = w.model_dump_json (receipt i)

def contract : Contract (fun _ : ι => Store) Disk where
  invariant := Separate receipt hex
  rely := Around receipt hex
  guard := Guarded w receipt hex
  rely_refl := by
    intro i s
    constructor
    · exact Kept.refl s
    · rfl
    · exact fun file _ hfile => ⟨hfile, rfl⟩
  rely_trans := by
    intro i s t u h k
    constructor
    · exact h.kept.trans k.kept
    · exact k.temporary.trans h.temporary
    · intro file hfile hs
      obtain ⟨ht, hcontents⟩ := h.own file hfile hs
      obtain ⟨hu, hcontents'⟩ := k.own file (h.temporary.trans hfile) ht
      exact ⟨hu, hcontents'.trans hcontents⟩

/-! ## One operation -/

/-- What an operation of call `i` does to the disk. -/
inductive Move (i : ι) (s : Disk) : Disk → Prop where
  | stay : Move i s s
  | create : s.names (temporaryOf receipt hex i) = none →
      Move i s (s.create (temporaryOf receipt hex i))
  | write {file : ℕ} (text : List Char) :
      s.names (temporaryOf receipt hex i) = some (.file file) → Unpublished s file →
      Move i s (s.write file text)
  | publish {file : ℕ} : s.names (temporaryOf receipt hex i) = some (.file file) →
      s.contents file = w.model_dump_json (receipt i) →
      s.names (.receipt (receipt i).key) = none →
      Move i s (s.hardLink (temporaryOf receipt hex i) (.receipt (receipt i).key))
  | remove : Move i s (s.remove (temporaryOf receipt hex i))

variable {w} {receipt} {hex} {s t : Disk} {i : ι}

theorem move_of_guarded {o : StoreCall} {r : o.Answer} (hguard : Guarded w receipt hex i o s)
    (h : disk o s r t) : Move w receipt hex i s t := by
  cases o with
  | ensure_parent key | fsync handle | fsync_directory key =>
    obtain rfl : t = s := h
    exact .stay
  | is_regular path | read_text path =>
    obtain rfl : t = s := h.1
    exact .stay
  | open_temporary name =>
    obtain ⟨rfl, hnone⟩ := hguard
    cases r with
    | error e =>
      obtain rfl : t = s := by simpa [disk] using h
      exact .stay
    | ok handle =>
      simp only [disk, hnone] at h
      obtain ⟨-, rfl⟩ := h
      exact .create hnone
  | write handle c =>
    obtain ⟨hown, hunpublished⟩ := hguard
    cases r with
    | error e =>
      obtain ⟨text, rfl⟩ := h
      exact .write text hown hunpublished
    | ok u =>
      obtain rfl := h
      exact .write _ hown hunpublished
  | link name path =>
    obtain ⟨rfl, rfl, file, hown, -, hcontents⟩ := hguard
    cases r with
    | linked =>
      obtain ⟨-, hfree, rfl⟩ := h
      exact .publish hown hcontents hfree
    | collided =>
      obtain ⟨-, rfl⟩ := h
      exact .stay
    | failed e =>
      obtain rfl := h
      exact .stay
  | unlink name =>
    obtain rfl := hguard
    cases r with
    | ok u =>
      obtain rfl := h
      exact .remove
    | error e =>
      obtain rfl := h
      exact .stay

theorem receipt_ne_temporary {key : SegmentKey} :
    FileName.receipt key ≠ temporaryOf receipt hex i :=
  FileName.noConfusion

theorem kept_of_move (h : Move w receipt hex i s t) : Kept s t := by
  intro key node hnode
  cases h with
  | stay => exact ⟨hnode, fun _ _ => rfl⟩
  | create hnone =>
    rw [Disk.create_names, if_neg receipt_ne_temporary]
    refine ⟨hnode, ?_⟩
    rintro file rfl
    exact Disk.create_contents (s.bounded _ _ hnode)
  | write text hown hunpublished =>
    refine ⟨hnode, ?_⟩
    rintro file rfl
    rw [Disk.write_contents, if_neg]
    rintro rfl
    exact hunpublished key hnode
  | publish hown hcontents hfree =>
    have hne : FileName.receipt key ≠ .receipt (receipt i).key := by
      intro hkey
      rw [hkey, hfree] at hnode
      cases hnode
    rw [Disk.hardLink_names, if_neg hne]
    exact ⟨hnode, fun _ _ => rfl⟩
  | remove =>
    rw [Disk.remove_names, if_neg receipt_ne_temporary]
    exact ⟨hnode, fun _ _ => rfl⟩

theorem whole_of_move (h : Move w receipt hex i s t) : Whole w receipt s t := by
  intro key file hfile
  cases h with
  | stay => exact Or.inl hfile
  | create hnone =>
    rw [Disk.create_names, if_neg receipt_ne_temporary] at hfile
    exact Or.inl hfile
  | write text hown hunpublished => exact Or.inl hfile
  | publish hown hcontents hfree =>
    rw [Disk.hardLink_names] at hfile
    split at hfile
    · next hkey =>
      rw [hown] at hfile
      cases hfile
      cases hkey
      exact Or.inr ⟨i, rfl, hcontents⟩
    · exact Or.inl hfile
  | remove =>
    rw [Disk.remove_names, if_neg receipt_ne_temporary] at hfile
    exact Or.inl hfile

theorem temporary_ne (hhex : Function.Injective hex) {j : ι} (hj : j ≠ i) :
    temporaryOf receipt hex j ≠ temporaryOf receipt hex i := by
  intro h
  exact hj (hhex (FileName.temporary.inj h).2)

/-- Only call `i` binds its temporary name. -/
theorem temporary_of_move (hhex : Function.Injective hex) {j : ι} (hj : j ≠ i)
    (h : Move w receipt hex i s t) :
    t.names (temporaryOf receipt hex j) = s.names (temporaryOf receipt hex j) := by
  cases h with
  | stay => rfl
  | create hnone => rw [Disk.create_names, if_neg (temporary_ne hhex hj)]
  | write text hown hunpublished => rfl
  | publish hown hcontents hfree =>
    rw [Disk.hardLink_names, if_neg receipt_ne_temporary.symm]
  | remove => rw [Disk.remove_names, if_neg (temporary_ne hhex hj)]

/-- The file of the own temporary name is the one it was, or a new one. -/
theorem own_of_move (h : Move w receipt hex i s t) {file : ℕ}
    (hfile : t.names (temporaryOf receipt hex i) = some (.file file)) :
    s.names (temporaryOf receipt hex i) = some (.file file) ∨ file = s.created := by
  cases h with
  | stay => exact Or.inl hfile
  | create hnone =>
    rw [Disk.create_names, if_pos rfl] at hfile
    cases hfile
    exact Or.inr rfl
  | write text hown hunpublished => exact Or.inl hfile
  | publish hown hcontents hfree =>
    rw [Disk.hardLink_names, if_neg receipt_ne_temporary.symm] at hfile
    exact Or.inl hfile
  | remove =>
    rw [Disk.remove_names, if_pos rfl] at hfile
    cases hfile

theorem separate_of_move (hhex : Function.Injective hex) (hs : Separate receipt hex s)
    (h : Move w receipt hex i s t) : Separate receipt hex t := by
  -- a file that call `i` has and another call too would have been shared before
  have hshared : ∀ j file, j ≠ i → t.names (temporaryOf receipt hex i) = some (.file file) →
      t.names (temporaryOf receipt hex j) = some (.file file) → False := by
    intro j file hj hi hfile
    rw [temporary_of_move hhex hj h] at hfile
    rcases own_of_move h hi with hi | rfl
    · exact hj (hs j i file hfile hi)
    · exact absurd (s.bounded _ _ hfile) (Nat.lt_irrefl _)
  intro j k file hfile hfile'
  by_cases hj : j = i
  · by_cases hk : k = i
    · exact hj.trans hk.symm
    · rw [hj] at hfile
      exact (hshared k file hk hfile hfile').elim
  · by_cases hk : k = i
    · rw [hk] at hfile'
      exact (hshared j file hj hfile' hfile).elim
    · rw [temporary_of_move hhex hj h] at hfile
      rw [temporary_of_move hhex hk h] at hfile'
      exact hs j k file hfile hfile'

theorem around_of_move (hhex : Function.Injective hex) (hs : Separate receipt hex s) {j : ι}
    (hj : j ≠ i) (h : Move w receipt hex i s t) : Around receipt hex j s t := by
  refine ⟨kept_of_move h, temporary_of_move hhex hj h, ?_⟩
  intro file hfile hunpublished
  have hother : ∀ file', s.names (temporaryOf receipt hex i) = some (.file file') →
      file ≠ file' := by
    rintro file' hown rfl
    exact hj (hs j i file hfile hown)
  cases h with
  | stay => exact ⟨hunpublished, rfl⟩
  | create hnone =>
    refine ⟨?_, Disk.create_contents (s.bounded _ _ hfile)⟩
    intro key
    rw [Disk.create_names, if_neg receipt_ne_temporary]
    exact hunpublished key
  | write text hown hunpublished' =>
    refine ⟨hunpublished, ?_⟩
    rw [Disk.write_contents, if_neg (hother _ hown)]
  | publish hown hcontents hfree =>
    refine ⟨?_, rfl⟩
    intro key hkey
    rw [Disk.hardLink_names] at hkey
    split at hkey
    · rw [hown] at hkey
      cases hkey
      exact hother _ hown rfl
    · exact hunpublished key hkey
  | remove =>
    refine ⟨?_, rfl⟩
    intro key
    rw [Disk.remove_names, if_neg receipt_ne_temporary]
    exact hunpublished key

variable {calm : ι → Prop}

theorem honoured (hhex : Function.Injective hex) :
    (contract w receipt hex).Honoured (world calm) := by
  intro i o s r t hinv hguard hw
  have hmove := move_of_guarded hguard hw.1
  exact ⟨separate_of_move hhex hinv hmove, fun j hj => around_of_move hhex hinv hj hmove⟩

/-! ## One call among the others -/

/-- A file with this text stands at the path of the segment. -/
def Stored (s : Disk) (key : SegmentKey) (text : List Char) : Prop :=
  ∃ file, s.names (.receipt key) = some (.file file) ∧ s.contents file = text

/-- What stands at the path is no regular file. -/
def Blocked (s : Disk) (key : SegmentKey) : Prop :=
  ∃ node, s.names (.receipt key) = some node ∧ node.is_regular = false

theorem Stored.kept {key : SegmentKey} {text : List Char} (h : Stored s key text) (k : Kept s t) :
    Stored t key text := by
  obtain ⟨file, hfile, htext⟩ := h
  obtain ⟨hfile', hcontents⟩ := k key _ hfile
  exact ⟨file, hfile', (hcontents file rfl).trans htext⟩

theorem Blocked.kept {key : SegmentKey} (h : Blocked s key) (k : Kept s t) : Blocked t key := by
  obtain ⟨node, hnode, hregular⟩ := h
  exact ⟨node, (k key node hnode).1, hregular⟩

theorem Stored.unique {key : SegmentKey} {text text' : List Char} (h : Stored s key text)
    (k : Stored s key text') : text = text' := by
  obtain ⟨file, hfile, rfl⟩ := h
  obtain ⟨file', hfile', rfl⟩ := k
  rw [hfile] at hfile'
  cases hfile'
  rfl

theorem not_stored_of_blocked {key : SegmentKey} {text : List Char} (h : Blocked s key) :
    ¬ Stored s key text := by
  intro hstored
  obtain ⟨node, hnode, hregular⟩ := h
  obtain ⟨file, hfile, -⟩ := hstored
  rw [hfile] at hnode
  cases hnode
  cases hregular

/-- The file of call `i` that is not published yet, and its text. -/
structure Owned (receipt : ι → Receipt) (hex : ι → String) (i : ι) (text : List Char) (file : ℕ)
    (s : Disk) : Prop where
  named : s.names (temporaryOf receipt hex i) = some (.file file)
  unpublished : Unpublished s file
  text : s.contents file = text

theorem Owned.around {text : List Char} {file : ℕ} (h : Owned receipt hex i text file s)
    (k : Around receipt hex i s t) : Owned receipt hex i text file t := by
  obtain ⟨hunpublished, hcontents⟩ := k.own file h.named h.unpublished
  exact ⟨k.temporary.trans h.named, hunpublished, hcontents.trans h.text⟩

/-- One operation of call `i`; if it fails while the call is calm it could not succeed. -/
theorem wp_store {α : Type} {o : StoreCall} {reply : o.Answer → Except StoreFailure α}
    {R : Except StoreFailure α → Disk → Prop} (hguard : Guarded w receipt hex i o s)
    (h : ∀ r u, disk o s r u →
      (calm i → failed o r = true → ∀ r' u', disk o s r' u' → failed o r' = true) →
      ∀ t, Around receipt hex i u t → R (reply r) t) :
    wp ((contract w receipt hex).around (world calm) i) ((contract w receipt hex).guard i)
      (call o reply) R s := by
  apply EffectPrograms.wp_perform.mpr
  refine ⟨hguard, ?_⟩
  intro r t ht
  obtain ⟨u, hw, haround, -⟩ := ht
  exact h r u hw.1 hw.2 t haround

theorem wp_write_text {text : List Char} {file : ℕ} (cs : List Char)
    (h : Owned receipt hex i text file s) :
    wp ((contract w receipt hex).around (world calm) i) ((contract w receipt hex).guard i)
      (write_text file cs) (fun r t => match r with
        | .ok _ => Owned receipt hex i (text ++ cs) file t
        | .error _ => ¬ calm i) s := by
  induction cs generalizing s text with
  | nil =>
    rw [List.append_nil]
    exact h
  | cons c cs ih =>
    apply wp_seq (P := fun r t => match r with
      | .ok _ => Owned receipt hex i (text ++ [c]) file t
      | .error _ => ¬ calm i)
    · apply wp_store (o := .write file c) ⟨h.named, h.unpublished⟩
      intro r u hw hcalm t ht
      cases r with
      | error e =>
        intro hi
        exact Bool.false_ne_true (hcalm hi rfl (.ok ()) _ rfl)
      | ok _ =>
        obtain rfl := hw
        have howned : Owned receipt hex i (text ++ [c]) file
            (s.write file (s.contents file ++ [c])) := by
          refine ⟨h.named, h.unpublished, ?_⟩
          rw [Disk.write_contents, if_pos rfl, h.text]
        exact howned.around ht
    · exact fun _ _ herr => herr
    · intro _ t ht
      have hrest := ih ht
      rw [List.append_assoc] at hrest
      exact hrest

/-- Where the path of a segment is taken, its text is read. -/
theorem wp_collision {key : SegmentKey} (h : s.names (.receipt key) ≠ none) :
    wp ((contract w receipt hex).around (world calm) i) ((contract w receipt hex).guard i)
      (collision w key) (fun r t => match r with
        | .ok none => False
        | .ok (some text) => Stored t key text
        | .error _ => calm i → Blocked t key) s := by
  obtain ⟨node, hnode⟩ := Option.ne_none_iff_exists'.mp h
  apply wp_seq (P := fun r t => match r with
    | .ok regular => regular = node.is_regular ∧ t.names (.receipt key) = some node
    | .error _ => ¬ calm i)
  · apply wp_store (o := .is_regular (.receipt key)) trivial
    intro r u hw hcalm t ht
    obtain ⟨rfl, hr⟩ := hw
    cases r with
    | error e =>
      intro hi
      refine Bool.false_ne_true (hcalm hi rfl (.ok node.is_regular) u ⟨rfl, ?_⟩)
      simp [hnode]
    | ok regular =>
      rw [hnode] at hr
      exact ⟨hr, (ht.kept key node hnode).1⟩
  · exact fun _ _ herr hi => absurd hi herr
  · intro regular t ht
    obtain ⟨rfl, hnode⟩ := ht
    by_cases hregular : node.is_regular = false
    · rw [if_pos hregular]
      exact fun _ => ⟨node, hnode, hregular⟩
    · rw [if_neg hregular]
      apply wp_store (o := .read_text (.receipt key)) trivial
      intro r u hw hcalm v hv
      obtain ⟨rfl, hr⟩ := hw
      cases r with
      | text existing =>
        obtain ⟨file, hfile, rfl⟩ := hr
        exact Stored.kept ⟨file, hfile, rfl⟩ hv.kept
      | os exc | decode exc =>
        intro hi
        cases node with
        | link | other => exact absurd rfl hregular
        | file file =>
          exact absurd (hcalm hi rfl (.text (u.contents file)) u ⟨rfl, file, hnode, rfl⟩)
            Bool.false_ne_true

/-- What is known once a call is done with the files, `text` being what was there. -/
def Met (w : Setting) (receipt : ι → Receipt) (calm : ι → Prop) (i : ι)
    (r : Except StoreFailure (Option (List Char))) (t : Disk) : Prop :=
  match r with
  | .ok none => Stored t (receipt i).key (w.model_dump_json (receipt i))
  | .ok (some text) => Stored t (receipt i).key text
  | .error _ => calm i → Blocked t (receipt i).key

theorem Met.kept {r : Except StoreFailure (Option (List Char))} (h : Met w receipt calm i r s)
    (k : Kept s t) : Met w receipt calm i r t := by
  cases r with
  | error e => exact fun hi => (h hi).kept k
  | ok existing =>
    cases existing with
    | none => exact Stored.kept h k
    | some text => exact Stored.kept h k

theorem wp_open (h : s.names (temporaryOf receipt hex i) = none) :
    wp ((contract w receipt hex).around (world calm) i) ((contract w receipt hex).guard i)
      (call (.open_temporary (temporaryOf receipt hex i)) raised) (fun r t => match r with
        | .ok file => Owned receipt hex i [] file t
        | .error _ => ¬ calm i) s := by
  apply wp_store (o := .open_temporary (temporaryOf receipt hex i)) ⟨rfl, h⟩
  intro r u hw hcalm t ht
  cases r with
  | error e =>
    intro hi
    refine Bool.false_ne_true
      (hcalm hi rfl (.ok s.created) (s.create (temporaryOf receipt hex i)) ?_)
    simp [disk, h]
  | ok file =>
    simp only [disk, h] at hw
    obtain ⟨rfl, rfl⟩ := hw
    have howned : Owned receipt hex i [] s.created (s.create (temporaryOf receipt hex i)) := by
      constructor
      · rw [Disk.create_names, if_pos rfl]
      · intro key
        rw [Disk.create_names, if_neg receipt_ne_temporary]
        intro hkey
        exact Nat.lt_irrefl _ (s.bounded _ _ hkey)
      · exact Function.update_self ..
    exact howned.around ht

/-- An operation that leaves the disk alone and may succeed. -/
theorem wp_still {o : StoreCall} {reply : o.Answer → Except StoreFailure Unit} {P : Disk → Prop}
    (h : P s) (hguard : Guarded w receipt hex i o s)
    (hstill : ∀ r u, disk o s r u → u = s) (hpossible : ∃ r, disk o s r s ∧ failed o r = false)
    (hreply : ∀ r e, reply r = .error e → failed o r = true)
    (hstable : ∀ s t, P s → Around receipt hex i s t → P t) :
    wp ((contract w receipt hex).around (world calm) i) ((contract w receipt hex).guard i)
      (call o reply) (fun r t => match r with
        | .ok _ => P t
        | .error _ => ¬ calm i) s := by
  apply wp_store hguard
  intro r u hw hcalm t ht
  obtain rfl := hstill r u hw
  cases hr : reply r with
  | error e =>
    intro hi
    obtain ⟨r', hw', hdone⟩ := hpossible
    rw [hcalm hi (hreply r e hr) r' u hw'] at hdone
    cases hdone
  | ok _ => exact hstable u t h ht

theorem raised_error {α : Type} {r : Except String α} {e : StoreFailure}
    (h : raised r = .error e) : ∃ exc, r = .error exc := by
  cases r with
  | error exc => exact ⟨exc, rfl⟩
  | ok a => cases h

theorem wp_link {file : ℕ} {text : List Char} (h : Owned receipt hex i text file s)
    (htext : text = w.model_dump_json (receipt i)) :
    wp ((contract w receipt hex).around (world calm) i) ((contract w receipt hex).guard i)
      (call (.link (temporaryOf receipt hex i) (.receipt (receipt i).key)) .ok)
      (fun r t => match r with
        | .ok .linked => Stored t (receipt i).key text
        | .ok .collided => t.names (.receipt (receipt i).key) ≠ none
        | .ok (.failed _) => ¬ calm i
        | .error _ => False) s := by
  have hbound : s.names (temporaryOf receipt hex i) ≠ none := by
    rw [h.named]
    exact Option.some_ne_none _
  apply wp_store (o := .link (temporaryOf receipt hex i) (.receipt (receipt i).key))
    ⟨rfl, rfl, file, h.named, h.unpublished, h.text.trans htext⟩
  intro r u hw hcalm t ht
  cases r with
  | linked =>
    obtain ⟨-, -, rfl⟩ := hw
    have hstored : Stored (s.hardLink (temporaryOf receipt hex i) (.receipt (receipt i).key))
        (receipt i).key text := by
      refine ⟨file, ?_, h.text⟩
      rw [Disk.hardLink_names, if_pos rfl, h.named]
    exact hstored.kept ht.kept
  | collided =>
    obtain ⟨htaken, rfl⟩ := hw
    obtain ⟨node, hnode⟩ := Option.ne_none_iff_exists'.mp htaken
    change t.names _ ≠ none
    rw [(ht.kept _ node hnode).1]
    exact Option.some_ne_none node
  | failed e =>
    intro hi
    by_cases hfree : s.names (.receipt (receipt i).key) = none
    · exact Bool.false_ne_true (hcalm hi rfl .linked _ ⟨hbound, hfree, rfl⟩)
    · exact Bool.false_ne_true (hcalm hi rfl .collided s ⟨hfree, rfl⟩)

theorem wp_publish (h : s.names (temporaryOf receipt hex i) = none) :
    wp ((contract w receipt hex).around (world calm) i) ((contract w receipt hex).guard i)
      (publish w (receipt i).key (hex i) (w.model_dump_json (receipt i)))
      (Met w receipt calm i) s := by
  apply wp_seq (wp_open h)
  · exact fun _ _ herr hi => absurd hi herr
  intro file t ht
  apply wp_seq (wp_write_text (w.model_dump_json (receipt i)) ht)
  · exact fun _ _ herr hi => absurd hi herr
  intro _ u hu
  apply wp_seq (wp_still (o := .fsync file) hu trivial (fun _ _ hw => hw) ⟨.ok (), rfl, rfl⟩
    (fun r e hr => by
      obtain ⟨exc, rfl⟩ := raised_error hr
      rfl) fun _ _ howned hrely => howned.around hrely)
  · exact fun _ _ herr hi => absurd hi herr
  intro _ v hv
  apply wp_seq (wp_link hv (List.nil_append _))
  · exact fun _ _ herr => herr.elim
  intro linking u' hu'
  cases linking with
  | failed exc => exact fun hi => absurd hi hu'
  | collided =>
    apply wp_post (wp_collision hu')
    intro r v' hr
    cases r with
    | error e => exact hr
    | ok existing =>
      cases existing with
      | none => exact hr.elim
      | some text => exact hr
  | linked =>
    have hstored : Stored u' (receipt i).key (w.model_dump_json (receipt i)) := hu'
    apply wp_seq (wp_still (o := .fsync_directory (receipt i).key) hstored trivial
      (fun _ _ hw => hw) ⟨.ok (), rfl, rfl⟩ (fun r e hr => by
        obtain ⟨exc, rfl⟩ := raised_error hr
        rfl) fun _ _ hold hrely => Stored.kept hold hrely.kept)
    · exact fun _ _ herr hi => absurd hi herr
    · exact fun _ _ hnew => hnew

theorem wp_unlink {r : Except StoreFailure (Option (List Char))} (h : Met w receipt calm i r s) :
    wp ((contract w receipt hex).around (world calm) i) ((contract w receipt hex).guard i)
      (call (.unlink (temporaryOf receipt hex i)) raised) (fun x t => match x with
        | .ok _ => Met w receipt calm i r t
        | .error _ => ¬ calm i) s := by
  have hguard : Guarded w receipt hex i (.unlink (temporaryOf receipt hex i)) s := rfl
  apply wp_store hguard
  intro x u hw hcalm t ht
  have hkept : Kept s u := kept_of_move (move_of_guarded hguard hw)
  cases x with
  | error e => exact fun hi => Bool.false_ne_true (hcalm hi rfl (.ok ()) _ rfl)
  | ok _ => exact (h.kept hkept).kept ht.kept

theorem wp_write_immutable (h : s.names (temporaryOf receipt hex i) = none) :
    wp ((contract w receipt hex).around (world calm) i) ((contract w receipt hex).guard i)
      (write_immutable w (receipt i).key (hex i) (w.model_dump_json (receipt i)))
      (Met w receipt calm i) s := by
  apply wp_ensuring (wp_publish h)
  intro r t hr
  apply wp_post (wp_unlink hr)
  intro x u hx
  cases x with
  | ok _ => exact hx
  | error e => exact fun hi => absurd hi hx

/-! ## What a call returns -/

/-- A call returns where what is stored reads as its receipt. Where it raises without a fault,
something else is stored. -/
def Outcome (w : Setting) (receipt : ι → Receipt) (calm : ι → Prop) (i : ι)
    (r : Except StoreFailure SegmentKey) (t : Disk) : Prop :=
  match r with
  | .ok path => path = (receipt i).key ∧
      ∃ text, Stored t path text ∧ w.model_validate_json text = .ok (receipt i)
  | .error _ => calm i → ∀ text, Stored t (receipt i).key text →
      w.model_validate_json text ≠ .ok (receipt i)

theorem wp_save_wal_receipt
    (hload : w.model_validate_json (w.model_dump_json (receipt i)) = .ok (receipt i))
    (h : s.names (temporaryOf receipt hex i) = none) :
    wp ((contract w receipt hex).around (world calm) i) ((contract w receipt hex).guard i)
      (save_wal_receipt w (hex i) (receipt i)) (Outcome w receipt calm i) s := by
  unfold save_wal_receipt
  rw [wal_receipt_path_ok]
  apply wp_ofExcept_seq
  · intro e he
    cases he
  rintro path ⟨⟩
  apply wp_seq (wp_still (P := fun t => t.names (temporaryOf receipt hex i) = none)
    (o := .ensure_parent (receipt i).key) h trivial (fun _ _ hw => hw) ⟨.ok (), rfl, rfl⟩
    (fun r e hr => by
      obtain ⟨exc, rfl⟩ := raised_error hr
      rfl) fun _ _ hnone hrely => hrely.temporary.trans hnone)
  · exact fun _ _ herr hi => absurd hi herr
  intro _ t ht
  apply wp_seq (wp_write_immutable ht)
  · intro e u hblocked hi text hstored
    exact absurd hstored (not_stored_of_blocked (hblocked hi))
  intro existing u hu
  cases existing with
  | none => exact ⟨rfl, _, hu, hload⟩
  | some existing =>
    cases hread : w.model_validate_json existing with
    | error exc =>
      simp only [hread]
      intro _ text hstored
      rw [hstored.unique hu, hread]
      intro herr
      cases herr
    | ok current =>
      simp only [hread]
      by_cases hsame : current = receipt i
      · rw [if_neg (not_not.mpr hsame)]
        exact ⟨rfl, existing, hu, hread.trans (congrArg _ hsame)⟩
      · rw [if_pos hsame]
        intro _ text hstored
        rw [hstored.unique hu, hread]
        exact fun heq => hsame (Except.ok.inj heq)

/-! ## Any number of calls -/

def calls (w : Setting) (receipt : ι → Receipt) (hex : ι → String) :
    Pool (fun _ : ι => Store) (fun _ => StoreFailure) (fun _ => SegmentKey) :=
  fun i => save_wal_receipt w (hex i) (receipt i)

theorem calls_hold
    (hload : ∀ i, w.model_validate_json (w.model_dump_json (receipt i)) = .ok (receipt i))
    (hnew : ∀ i, s.names (temporaryOf receipt hex i) = none) :
    (contract w receipt hex).Holds (world calm) (Outcome w receipt calm) s
      (calls w receipt hex) := by
  constructor
  · intro i j file hfile
    rw [hnew i] at hfile
    cases hfile
  · intro i t hrely _
    exact wp_save_wal_receipt (hload i) (hrely.temporary.trans (hnew i))

theorem disk_total : World.Total disk := by
  intro o s
  cases o with
  | ensure_parent key | fsync handle | fsync_directory key => exact ⟨.ok (), s, rfl⟩
  | write handle c => exact ⟨.ok (), _, rfl⟩
  | unlink name => exact ⟨.ok (), _, rfl⟩
  | open_temporary name => exact ⟨.error "", s, rfl⟩
  | link name path => exact ⟨.failed "", s, rfl⟩
  | is_regular path => exact ⟨.error "", s, rfl, trivial⟩
  | read_text path => exact ⟨.os "", s, rfl, trivial⟩

theorem world_total : (world calm i).Total := by
  intro o s
  by_cases hdone : ∃ r t, disk o s r t ∧ failed o r = false
  · obtain ⟨r, t, hw, hr⟩ := hdone
    refine ⟨r, t, hw, fun _ hfailed => ?_⟩
    rw [hr] at hfailed
    cases hfailed
  · obtain ⟨r, t, hw⟩ := disk_total o s
    refine ⟨r, t, hw, fun _ _ r' t' hw' => ?_⟩
    rw [← Bool.not_eq_false]
    exact fun hr => hdone ⟨r', t', hw', hr⟩

theorem whole_trans {u : Disk} (h : Whole w receipt s t) (htu : Kept t u)
    (k : Whole w receipt t u) : Whole w receipt s u := by
  intro key file hfile
  rcases k key file hfile with hold | hnew
  · rcases h key file hold with hfirst | ⟨i, hkey, htext⟩
    · exact Or.inl hfirst
    · exact Or.inr ⟨i, hkey, ((htu key _ hold).2 file rfl).trans htext⟩
  · exact Or.inr hnew

/-- In every run of any calls, with any faults: what stands at a receipt's path stays as it is,
and a file that appears there has the whole text of a receipt. A call that ended has returned
only where its own receipt is stored, raised where another one is, and, if it met no fault,
returned where its own is. From every state a call can come to its end. -/
theorem wal_receipts_write_once [DecidableEq ι] {qs : Pool (fun _ : ι => Store) _ _}
    (hload : ∀ i, w.model_validate_json (w.model_dump_json (receipt i)) = .ok (receipt i))
    (hhex : Function.Injective hex) (hnew : ∀ i, s.names (temporaryOf receipt hex i) = none)
    (hrun : Interleaved (world calm) s (calls w receipt hex) t qs) :
    (∀ u rs, Interleaved (world calm) t qs u rs → Kept t u) ∧ Whole w receipt s t ∧
    (∀ i, ∃ r u, Interleaved (world calm) t qs u (Function.update qs i (.ofExcept r))) ∧
    ∀ i r, qs i = .ofExcept r →
      (∀ path, r = .ok path → path = (receipt i).key ∧
        ∃ text, Stored t path text ∧ w.model_validate_json text = .ok (receipt i)) ∧
      (∀ text, Stored t (receipt i).key text → w.model_validate_json text ≠ .ok (receipt i) →
        ∃ e, r = .error e) ∧
      (calm i → ∀ text, Stored t (receipt i).key text →
        w.model_validate_json text = .ok (receipt i) → r = .ok (receipt i).key) := by
  have hstart : (contract w receipt hex).Holds (world calm) (Outcome w receipt calm) s
      (calls w receipt hex) := calls_hold hload hnew
  have hthere := hstart.run (honoured hhex) hrun
  have hpast : Kept s t ∧ Whole w receipt s t := by
    refine hstart.relates (T := fun s t => Kept s t ∧ Whole w receipt s t) (honoured hhex) hrun
      ?_ ?_ ?_
    · exact fun s => ⟨Kept.refl s, fun _ _ hfile => Or.inl hfile⟩
    · exact fun s t u h k => ⟨h.1.trans k.1, whole_trans h.2 k.1 k.2⟩
    · intro i o s r t _ hguard hw
      have hmove := move_of_guarded hguard hw.1
      exact ⟨kept_of_move hmove, whole_of_move hmove⟩
  refine ⟨?_, hpast.2, ?_, ?_⟩
  · intro u rs hlater
    exact hthere.relates (honoured hhex) hlater Kept.refl (fun _ _ _ h k => h.trans k)
      fun i o s r t _ hguard hw => kept_of_move (move_of_guarded hguard hw.1)
  · intro i
    obtain ⟨r, u, hends⟩ := exists_ending world_total (qs i) t
    exact ⟨r, u, Interleaved.run i hends⟩
  · intro i r hend
    have houtcome : Outcome w receipt calm i r t := hthere.ended hend
    refine ⟨?_, ?_, ?_⟩
    · rintro path rfl
      exact houtcome
    · intro text hstored hother
      cases r with
      | error e => exact ⟨e, rfl⟩
      | ok path =>
        obtain ⟨rfl, text', hstored', hread⟩ := houtcome
        rw [hstored.unique hstored'] at hother
        exact absurd hread hother
    · intro hi text hstored hread
      cases r with
      | error e => exact absurd hread (houtcome hi text hstored)
      | ok path => exact congrArg _ houtcome.1

/-! ## Two calls for one segment -/

/-- A disk without faults. -/
def serve : (o : StoreCall) → Disk → o.Answer × Disk
  | .open_temporary name, s => match s.names name with
    | none => (.ok s.created, s.create name)
    | some (.file file) => (.ok file, s.write file [])
    | some _ => (.error "Is a directory", s)
  | .write handle c, s => (.ok (), s.write handle (s.contents handle ++ [c]))
  | .link name path, s =>
    if s.names path ≠ none then (.collided, s)
    else if s.names name = none then (.failed "No such file or directory", s)
    else (.linked, s.hardLink name path)
  | .is_regular path, s => (.ok ((s.names path).any Node.is_regular), s)
  | .read_text path, s => match s.names path with
    | some (.file file) => (.text (s.contents file), s)
    | _ => (.os "No such file or directory", s)
  | .unlink name, s => (.ok (), s.remove name)
  | .ensure_parent _, s | .fsync _, s | .fsync_directory _, s => (.ok (), s)

theorem world_serve (o : StoreCall) (s : Disk) :
    world calm i o s (serve o s).1 (serve o s).2 := by
  cases o with
  | ensure_parent key | fsync handle | fsync_directory key =>
    exact ⟨rfl, fun _ hfailed => absurd hfailed Bool.false_ne_true⟩
  | write handle c => exact ⟨rfl, fun _ hfailed => absurd hfailed Bool.false_ne_true⟩
  | unlink name => exact ⟨rfl, fun _ hfailed => absurd hfailed Bool.false_ne_true⟩
  | is_regular path => exact ⟨⟨rfl, rfl⟩, fun _ hfailed => absurd hfailed Bool.false_ne_true⟩
  | open_temporary name =>
    cases hname : s.names name with
    | none => simp [world, disk, serve, hname, failed]
    | some node =>
      cases node with
      | file file => simp [world, disk, serve, hname, failed]
      | link | other =>
        refine ⟨by simp [disk, serve, hname], ?_⟩
        intro _ _ r' t' hw
        cases r' with
        | error e => rfl
        | ok handle => simp [disk, hname] at hw
  | read_text path =>
    cases hpath : s.names path with
    | none =>
      refine ⟨by simp [disk, serve, hpath], ?_⟩
      intro _ _ r' t' hw
      cases r' with
      | os e | decode e => rfl
      | text existing => simp [disk, hpath] at hw
    | some node =>
      cases node with
      | file file => simp [world, disk, serve, hpath, failed]
      | link | other =>
        refine ⟨by simp [disk, serve, hpath], ?_⟩
        intro _ _ r' t' hw
        cases r' with
        | os e | decode e => rfl
        | text existing => simp [disk, hpath] at hw
  | link name path =>
    by_cases hpath : s.names path = none
    · by_cases hname : s.names name = none
      · refine ⟨by simp [disk, serve, hpath, hname], ?_⟩
        intro _ _ r' t' hw
        cases r' with
        | failed e => rfl
        | linked => exact absurd hname hw.1
        | collided => exact absurd hpath hw.1
      · simp [world, disk, serve, hpath, hname, failed]
    · simp [world, disk, serve, hpath, failed]

/-- The second receipt names another object of the archive. -/
def shopReceipt (again : Bool) : Receipt where
  project := "shop"
  environment := "prod"
  cluster_id := "main"
  system_identifier := "7001"
  filename := "000000010000000000000002"
  timeline := 1
  sha256 := String.ofList (List.replicate 64 'a')
  size := 16777216
  archived_at := 738886 * BackupManifests.DAY
  remote_uri := if again then "s3://other/2" else "s3://wal/2"
  named := by decide
  on_timeline := by decide
  timeline_range := PitrArchive.first_timeline
  sized := by decide
  cluster_safe := by decide
  system_safe := by decide

def jsonMember (name value : String) : String := s!"  \"{name}\": {value},\n"

def jsonString (name value : String) : String := jsonMember name s!"\"{value}\""

/-- The members before the address. -/
def opening (receipt : Receipt) : String :=
  "\x7b\n" ++ jsonMember "schema_version" "1" ++ jsonString "project" receipt.project ++
    jsonString "environment" receipt.environment ++ jsonString "cluster_id" receipt.cluster_id ++
    jsonString "system_identifier" receipt.system_identifier ++
    jsonString "filename" receipt.filename ++
    jsonMember "timeline" (toString receipt.timeline) ++ jsonString "sha256" receipt.sha256 ++
    jsonMember "size" (toString receipt.size) ++
    jsonString "archived_at" (BackupManifests.now_utc receipt.archived_at)

def shopText (receipt : Receipt) : List Char :=
  (opening receipt).toList ++
    ((jsonString "remote_uri" receipt.remote_uri).toList ++
      "  \"status\": \"complete\"\n\x7d".toList)

theorem shop_texts : shopText (shopReceipt true) ≠ shopText (shopReceipt false) := by
  have hopening : opening (shopReceipt true) = opening (shopReceipt false) := by
    simp only [opening, shopReceipt]
  unfold shopText
  rw [hopening]
  intro h
  have htail := List.append_cancel_left h
  revert htail
  decide +kernel

def shop : Setting where
  root := ".odooctl"
  model_dump_json := shopText
  model_validate_json := fun text =>
    if text = shopText (shopReceipt false) then .ok (shopReceipt false)
    else if text = shopText (shopReceipt true) then .ok (shopReceipt true)
    else .error "Invalid JSON"

theorem shop_reads (again : Bool) :
    shop.model_validate_json (shop.model_dump_json (shopReceipt again)) =
      .ok (shopReceipt again) := by
  cases again with
  | false => simp only [shop, if_true]
  | true => simp only [shop, shop_texts, if_false, if_true]

def shopHex (again : Bool) : String := if again then "b2" else "a1"

theorem shopHex_injective : Function.Injective shopHex := by
  intro again other h
  revert again other
  decide

def emptyDisk : Disk where
  names := fun _ => none
  contents := fun _ => []
  created := 0
  bounded := fun _ _ h => by cases h

def shopTurns : List Bool := (List.range 1000).map (· % 2 == 0)

abbrev ShopState :=
  Pool (fun _ : Bool => Store) (fun _ => StoreFailure) (fun _ => SegmentKey) × Disk

/-- What is stored once two calls for one segment are served by turns decides which returned. -/
theorem shop_receipts_written_once : ∃ run : ShopState,
    run = Pool.turns (fun _ => serve) shopTurns (calls shop shopReceipt shopHex) emptyDisk ∧
    Whole shop shopReceipt emptyDisk run.2 ∧ ∀ again r, run.1 again = .ofExcept r →
      ∀ text, Stored run.2 (shopReceipt again).key text →
        (r = .ok (shopReceipt again).key ↔
          shop.model_validate_json text = .ok (shopReceipt again)) := by
  have hevery : Pool.every (fun _ => serve) (fun _ _ _ => true) shopTurns
      (calls shop shopReceipt shopHex) emptyDisk = true := every_true
  have hturns := interleaved_turns (W := world fun _ => True) (fun s => s)
    (fun _ o s _ => world_serve o s) hevery
  have hall : ∀ run : ShopState, Interleaved (world fun _ => True) emptyDisk
      (calls shop shopReceipt shopHex) run.2 run.1 →
      Whole shop shopReceipt emptyDisk run.2 ∧ ∀ again r, run.1 again = .ofExcept r →
        ∀ text, Stored run.2 (shopReceipt again).key text →
          (r = .ok (shopReceipt again).key ↔
            shop.model_validate_json text = .ok (shopReceipt again)) := by
    intro run hrun
    obtain ⟨-, hwhole, -, hended⟩ :=
      wal_receipts_write_once shop_reads shopHex_injective (fun _ => rfl) hrun
    refine ⟨hwhole, ?_⟩
    intro again r hend text hstored
    obtain ⟨hok, -, hcalm⟩ := hended again r hend
    refine ⟨?_, hcalm trivial text hstored⟩
    intro hr
    obtain ⟨-, text', hstored', hread⟩ := hok _ hr
    rw [hstored.unique hstored']
    exact hread
  exact ⟨_, rfl, hall _ hturns⟩

end WalReceipts
