import Odooctl.EffectPrograms
import Odooctl.PythonText
import Odooctl.WalSegments

/-!
# Objects of an archive scope

The verified reads and create-only writes of `adapters/wal_s3.py`. SHA-256 is a parameter.
Every request may take effect and still report failure.
-/
namespace S3Objects

open EffectPrograms PythonText WalSegments

abbrev Bytes := List UInt8

/-- What follows the scope prefix in a key. -/
inductive Key where
  | wal (filename : String)
  | base (base_backup_id path : String)
  | pin (kind pin_id : String)
  deriving DecidableEq, Repr

def Key.relative : Key → String
  | .wal filename => "wal/" ++ filename
  | .base base_backup_id path => "bases/" ++ base_backup_id ++ "/" ++ path
  | .pin kind pin_id => "pins/" ++ kind ++ "/" ++ pin_id ++ ".json"

/-- `_DIGEST_RE.fullmatch`. -/
def is_digest (value : String) : Bool :=
  value.toList.length = 64 &&
    value.toList.all fun c => ('0' ≤ c && c ≤ '9') || ('a' ≤ c && c ≤ 'f')

theorem toLower_of_digest {d : String} (h : is_digest d = true) : d.toLower = d := by
  rw [is_digest, Bool.and_eq_true, List.all_eq_true] at h
  obtain ⟨-, hall⟩ := h
  apply String.toList_inj.mp
  delta String.toLower
  rw [String.toList_map]
  generalize d.toList = cs at hall
  induction cs with
  | nil => rfl
  | cons c cs ih =>
    have hc := hall c List.mem_cons_self
    have hlower : c.toLower = c := by
      delta Char.toLower
      rw [dif_neg]
      rintro ⟨hge, hle⟩
      simp only [Bool.or_eq_true, Bool.and_eq_true, decide_eq_true_eq] at hc
      rcases hc with ⟨-, h9⟩ | ⟨ha, -⟩
      · exact absurd (Nat.le_trans hge h9) (by decide)
      · exact absurd (Nat.le_trans ha hle) (by decide)
    rw [List.map_cons, hlower, ih fun d hd => hall d (List.mem_cons_of_mem _ hd)]

/-- A body and the digest in its metadata, where that is a digest. -/
structure Stored where
  body : Bytes
  digest : Option String
  deriving DecidableEq, Repr

/-! ## Requests -/

inductive S3Call where
  | put_object (key : Key) (body : Bytes) (digest : String)
  | head_object (key : Key)
  | get_object (key : Key)
  | delete_object (key : Key)
  | list_base (base_backup_id : String)
  | list_markers
  | before_delete (key : Key)
  deriving DecidableEq, Repr

inductive Fetched (α : Type) where
  | found (value : α)
  | missing
  | failed (message : String)

abbrev S3Call.Answer : S3Call → Type
  | .head_object _ => Fetched (ℕ × Option String)
  | .get_object _ => Fetched Bytes
  | .list_base _ | .list_markers => Except String (List String)
  | _ => Except String Unit

def S3 : Interface := ⟨S3Call, S3Call.Answer⟩

/-- The objects. `deletions` counts the deletes of a key that took effect, `ever` notes what
has been stored under it. -/
structure Bucket where
  objects : Key → Option Stored
  deletions : Key → ℕ
  ever : Key → Bytes → Prop

def BASE_COMPLETION_MARKER : String := "manifest.json"

def marker (base_backup_id : String) : Key := .base base_backup_id BASE_COMPLETION_MARKER

def Bucket.put (s : Bucket) (key : Key) (o : Stored) : Bucket where
  objects := Function.update s.objects key (some o)
  deletions := s.deletions
  ever := fun k x => s.ever k x ∨ k = key ∧ x = o.body

def Bucket.delete (s : Bucket) (key : Key) : Bucket where
  objects := Function.update s.objects key none
  deletions := Function.update s.deletions key (s.deletions key + 1)
  ever := s.ever

/-- A put is conditional on the absence of its key. A read that succeeds is true; a listing
takes several pages, of which only the presence of a marker it shows is relied on. -/
def bucket : World S3 Bucket
  | .put_object key body digest, s, r, t =>
      s.objects key = none ∧
        t = s.put key ⟨body, if is_digest digest then some digest else none⟩ ∨
      t = s ∧ ∃ e, r = .error e
  | .delete_object key, s, r, t => t = s.delete key ∨ t = s ∧ ∃ e, r = .error e
  | .head_object key, s, r, t => t = s ∧ ∀ value, r = .found value →
      ∃ o, s.objects key = some o ∧ value = (o.body.length, o.digest)
  | .get_object key, s, r, t => t = s ∧ ∀ body, r = .found body →
      ∃ o, s.objects key = some o ∧ body = o.body
  | .list_markers, s, r, t => t = s ∧ ∀ ids, r = .ok ids →
      ∀ id ∈ ids, (s.objects (marker id)).isSome
  | _, s, _, t => t = s

/-! ## The adapter -/

inductive WalS3Error where
  | path (message : String)
  | provider (message : String)
  | integrity (message : String)
  | conflict (message : String)
  | not_found (key : String)
  deriving DecidableEq, Repr

/-- The scope of an archive, and the hash function. -/
structure WalS3Adapter where
  bucket_name : String
  scope_prefix : String
  project : String
  cluster_id : String
  system_identifier : String
  sha256 : Bytes → String

abbrev S3M := Prog S3 WalS3Error

variable (a : WalS3Adapter)

def WalS3Adapter.key (key : Key) : String := a.scope_prefix ++ "/" ++ key.relative

def provider_error (operation message : String) : WalS3Error :=
  .provider s!"S3 {operation} failed: {message}"

/-- `if c: raise`. -/
def refuse_if (c : Prop) [Decidable c] (e : WalS3Error) : S3M Unit :=
  if c then .raise e else .pure ()

structure WalObjectInfo where
  key : Key
  size : ℕ
  sha256 : String
  deriving DecidableEq, Repr

structure ImmutableObjectReceipt where
  key : Key
  size : ℕ
  sha256 : String
  idempotent : Bool := false
  deriving DecidableEq, Repr

def head_info (key : Key) : Fetched (ℕ × Option String) → Except WalS3Error WalObjectInfo
  | .found (size, some digest) => .ok ⟨key, size, digest⟩
  | .found (_, none) =>
    .error (.integrity s!"S3 object {quoted (a.key key)} has no valid SHA-256 metadata")
  | .missing => .error (.not_found (a.key key))
  | .failed message => .error (provider_error ("head " ++ a.key key) message)

def head (key : Key) : S3M WalObjectInfo :=
  .perform (F := S3) (.head_object key) (head_info a key)

def remote_body (key : Key) : Fetched Bytes → Except WalS3Error Bytes
  | .found body => .ok body
  | .missing => .error (.not_found (a.key key))
  | .failed message => .error (provider_error ("read " ++ a.key key) message)

def read_body (key : Key) : S3M Bytes :=
  .perform (F := S3) (.get_object key) (remote_body a key)

/-- The object's metadata and then its bytes, both compared with what is expected. -/
def read_verified (key : Key) (expected_sha256 : Option String) (expected_size max_bytes : Option ℕ) :
    S3M (WalObjectInfo × Bytes) := do
  let info ← head a key
  let expected_digest := (expected_sha256.map String.toLower).getD info.sha256
  refuse_if (is_digest expected_digest = false)
    (.integrity s!"invalid expected checksum for {quoted (a.key key)}")
  refuse_if (info.sha256 ≠ expected_digest)
    (.integrity s!"S3 object {quoted (a.key key)} checksum metadata mismatch")
  refuse_if (∃ size ∈ expected_size, info.size ≠ size)
    (.integrity (s!"S3 object {quoted (a.key key)} size mismatch: expected " ++
      s!"{expected_size.getD 0}, got {info.size}"))
  refuse_if (∃ most ∈ max_bytes, most < info.size)
    (.integrity s!"S3 object {quoted (a.key key)} exceeds the size limit")
  let body ← read_body a key
  refuse_if (∃ most ∈ max_bytes, most < body.length)
    (.integrity s!"S3 object {quoted (a.key key)} exceeds the size limit")
  refuse_if (body.length ≠ info.size ∨ a.sha256 body ≠ expected_digest)
    (.integrity s!"S3 object {quoted (a.key key)} content checksum mismatch")
  .pure (info, body)

def asConflict (key : Key) : WalS3Error → WalS3Error
  | .integrity _ => .conflict (s!"immutable S3 key {quoted (a.key key)} already contains " ++
      "different or unverifiable content")
  | e => e

def reconcile_immutable (key : Key) (expected_sha256 : String) (expected_size : ℕ) :
    S3M (WalObjectInfo × Bytes) :=
  (read_verified a key (some expected_sha256) (some expected_size) none).mapError (asConflict a key)

/-- What is raised when the object cannot be reconciled after a failed create. -/
def uncreated (key : Key) (original : String) : WalS3Error → WalS3Error
  | .conflict message => .conflict message
  | .not_found _ | .provider _ => provider_error ("create " ++ a.key key) original
  | e => e

def put_object (key : Key) (body : Bytes) : S3M (Except String Unit) :=
  .perform (F := S3) (.put_object key body (a.sha256 body)) .ok

/-- What follows the create: its object is read back. -/
def after_create (key : Key) (body : Bytes) : Except String Unit → S3M ImmutableObjectReceipt
  | .ok () => do
    let read ← read_verified a key (some (a.sha256 body)) (some body.length) none
    .pure { key, size := read.1.size, sha256 := read.1.sha256 }
  | .error original => do
    let read ← (reconcile_immutable a key (a.sha256 body) body.length).mapError
      (uncreated a key original)
    .pure { key, size := read.1.size, sha256 := read.1.sha256, idempotent := true }

def put_bytes_immutable (payload : Bytes) (key : Key) : S3M ImmutableObjectReceipt := do
  let created ← put_object a key payload
  after_create a key payload created

/-- A local path and the content of a regular file there. -/
structure Source where
  path : String
  name : String
  content : Option Bytes
  deriving DecidableEq, Repr

def put_immutable (source : Source) (key : Key) : S3M ImmutableObjectReceipt := do
  match source.content with
  | none => .raise (.path s!"upload source is not a regular file: {source.path}")
  | some body => put_bytes_immutable a body key

def wal_name (filename : String) : S3M String :=
  if is_archive_name filename then .pure filename
  else .raise (.path ("WAL archive name must be an uppercase segment, timeline history, " ++
    "or backup-history filename"))

def archive_wal (source : Source) (filename : Option String) : S3M ImmutableObjectReceipt := do
  let safe_filename ← wal_name (filename.getD source.name)
  put_immutable a source (.wal safe_filename)

def delete_owned_key (key : Key) : S3M Unit :=
  .perform (F := S3) (.delete_object key)
    (Except.mapError (provider_error ("delete " ++ a.key key)))

def delete_wal (filename : String) : S3M Unit := do
  let safe_filename ← wal_name filename
  delete_owned_key a (.wal safe_filename)

end S3Objects
