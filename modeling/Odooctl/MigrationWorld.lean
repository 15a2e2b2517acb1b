import Odooctl.ActivePointer
import Odooctl.FilestoreMigration
import Odooctl.S3Objects

/-!
# What filestore migrations act on

The manifests on disk, the directories and volumes, and the object store. The state notes
what has been read since a manifest was last loaded, which every operation of a migration
begins with.
-/
namespace MigrationWorld

open EffectPrograms FilestoreManifest ObjectFilestore FilestoreMigration
open ActivePointer (Stored)

/-! ## The state -/

/-- What is at a path. -/
inductive Held where
  | absent
  | other
  | directory (tree : Tree)
  deriving DecidableEq, Repr

/-- `listed`, `headed` and `fetched` note the directories listed and the objects read since a
manifest was last loaded; `said_absent` that the test for the source then found nothing. -/
structure State where
  manifests : String → Option MigrationFields
  held : Source → Held
  objects : Key → Option Stored
  listed : List (Source × Tree) := []
  headed : List (Key × S3ObjectInfo) := []
  fetched : List (Key × Body) := []
  said_absent : Bool := false

namespace State

variable (s : State)

/-- A manifest is loaded. -/
def afresh : State := { s with listed := [], headed := [], fetched := [], said_absent := false }

def write (m : MigrationFields) : State :=
  { s with manifests := Function.update s.manifests m.migration_id (some m) }

def hold (source : Source) (h : Held) : State :=
  { s with held := Function.update s.held source h }

def list (source : Source) (tree : Tree) : State := { s with listed := (source, tree) :: s.listed }

def head (key : Key) (info : S3ObjectInfo) : State := { s with headed := (key, info) :: s.headed }

def fetch (key : Key) (body : Body) : State := { s with fetched := (key, body) :: s.fetched }

def tested (found : Bool) : State := { s with said_absent := !found }

def put (key : Key) (o : Option Stored) : State :=
  { s with objects := Function.update s.objects key o }

/-- The regular file at a path below a root. -/
def content (root : Root) (path : String) : Option Bytes :=
  let tree := match root with
    | .extracted tree => tree
    | .directory text => match s.held (.path text) with
      | .directory tree => tree
      | _ => []
  match tree.lookup path with
  | some (.file content) => some content
  | _ => none

end State

/-- The length of a body. -/
def body_length (lib : Library) : Body → ℕ
  | .content bytes => bytes.length
  | body => lib.document_length body

/-! ## Replies -/

/-- What an interrupted removal leaves. -/
def Remains : Held → Held → Prop
  | before, after => after = before ∨ after = .absent ∨
      ∃ tree rest, before = .directory tree ∧ after = .directory rest ∧ rest.Sublist tree

/-- A call that fails may have taken effect, a removal in part. What a call finds is there;
only the test in the Odoo service also says that nothing is there when it fails. -/
def localWorld : World Local State := fun o s r t => match (o : LocalCall), r with
  | .read_manifest id, r => t = s.afresh ∧ ∀ m, r = .ok m → s.manifests id = some m
  | .existing_manifest id, r => t = s ∧ ∀ found, r = .ok found → s.manifests id = found
  | .write_manifest m, r => t = s.write m ∨ t = s ∧ ∃ e, r = .error e
  | .token_hex, _ => t = s
  | .now_utc, _ => t = s
  | .is_real_dir path, r => t = s ∧
      ∀ real, r = .ok real → (real = true ↔ ∃ tree, s.held (.path path) = .directory tree)
  | .lexists path, r => t = s ∧ ∀ found, r = .ok found →
      (found = false ↔ s.held (.path path) = .absent)
  | .source_exists source, r => (∃ e, r = .error e) ∧ t = s ∨ ∃ found, r = .ok found ∧
      t = s.tested found ∧ (found = true → ∃ tree, s.held source = .directory tree) ∧
      ∀ text, source = .path text → found = false → s.held source = .absent
  | .materialize v, r => (∃ e, r = .error e) ∧ t = s ∨ ∃ tree, r = .ok tree ∧
      s.held (.volume v) = .directory tree ∧ t = s.list (.volume v) tree
  | .walk (.directory path), r => (∃ e, r = .error e) ∧ t = s ∨ ∃ tree, r = .ok tree ∧
      s.held (.path path) = .directory tree ∧ t = s.list (.path path) tree
  | .walk (.extracted tree), r => t = s ∧ ∀ found, r = .ok found → found = tree
  | .read_file root path, r => t = s ∧ ∀ found, r = .ok found → found = s.content root path
  | .make_dir path, r => t = s.hold (.path path) (.directory []) ∨ t = s ∧ ∃ e, r = .error e
  | .copy_file root path partial_path, r => ∃ after, t = s.hold (.path partial_path) after ∧
      ∀ bytes, r = .ok bytes → s.content root path = some bytes ∧
        ∀ tree, s.held (.path partial_path) = .directory tree →
          after = .directory (tree ++ [(path, .file bytes)])
  | .replace partial_path destination, r =>
      t = (s.hold (.path destination) (s.held (.path partial_path))).hold (.path partial_path)
        .absent ∨ t = s ∧ ∃ e, r = .error e
  | .remove_partial_copy path, _ => ∃ after, Remains (s.held (.path path)) after ∧
      t = s.hold (.path path) after
  | .remove_source source, r => ∃ after, Remains (s.held source) after ∧
      t = s.hold source after ∧ (r = .ok () → after = .absent)

def info_of (lib : Library) (key : Key) (o : Stored) : S3ObjectInfo :=
  ⟨key, body_length lib o.body, o.sha256, some o.etag⟩

def accepts (found : Option Stored) : Condition → Bool
  | .always => true
  | .if_none_match => found.isNone
  | .if_match etag => found.map Stored.etag == some etag

def storeWorld (lib : Library) : World Store State := fun o s r t => match (o : StoreCall), r with
  | .head_object key, r => (∃ o, s.objects key = some o ∧ r = .ok (info_of lib key o) ∧
      t = s.head key (info_of lib key o)) ∨
      ∃ e, r = .error e ∧ t = s ∧ (e.not_found = true → s.objects key = none)
  | .get_object key, r => (∃ o, s.objects key = some o ∧ r = .ok o.body ∧ t = s.fetch key o.body) ∨
      (∃ e, r = .error e) ∧ t = s
  | .put_object key body sha256 condition, r =>
      accepts (s.objects key) condition = true ∧ (∃ etag, t = s.put key (some ⟨body, some sha256, etag⟩)) ∨
      (∃ e, r = .error e) ∧ t = s
  | .delete_object key, r => t = s.put key none ∨ (∃ e, r = .error e) ∧ t = s

def world (lib : Library) : World Migration State
  | .inl o => localWorld o
  | .inr o => storeWorld lib o

/-! ## Without faults -/

/-- The replies of a host and a service that do what they are asked. -/
def serveLocal (now : PitrRestoreRecord.Timestamp) : (c : LocalCall) → State →
    Except String c.Answer × State
  | .read_manifest id, s => (match s.manifests id with
    | some m => .ok m
    | none => .error s!"filestore migration manifest not found: {id}", s.afresh)
  | .existing_manifest id, s => (.ok (s.manifests id), s)
  | .write_manifest m, s => (.ok (), s.write m)
  | .token_hex, s => (.ok "000000000000000000000000", s)
  | .now_utc, s => (.ok now, s)
  | .is_real_dir path, s => (match s.held (.path path) with
    | .directory _ => .ok true
    | _ => .ok false, s)
  | .lexists path, s => (.ok (decide (s.held (.path path) ≠ .absent)), s)
  | .source_exists source, s => match source, s.held source with
    | _, .directory _ => (.ok true, s.tested true)
    | .path text, .other => (.error s!"Filestore path is not a real directory: {text}", s)
    | _, _ => (.ok false, s.tested false)
  | .materialize v, s => match s.held (.volume v) with
    | .directory tree => (.ok tree, s.list (.volume v) tree)
    | _ => (.error s!"tar: {v.filestore_path}: Cannot open: No such file or directory", s)
  | .walk (.directory path), s => match s.held (.path path) with
    | .directory tree => (.ok tree, s.list (.path path) tree)
    | _ => (.error s!"[Errno 2] No such file or directory: '{path}'", s)
  | .walk (.extracted tree), s => (.ok tree, s)
  | .read_file root path, s => (.ok (s.content root path), s)
  | .make_dir path, s => (.ok (), s.hold (.path path) (.directory []))
  | .copy_file root path partial_path, s => match s.content root path, s.held (.path partial_path) with
    | some bytes, .directory tree =>
      (.ok bytes, s.hold (.path partial_path) (.directory (tree ++ [(path, .file bytes)])))
    | _, _ => (.error s!"[Errno 2] No such file or directory: '{path}'", s)
  | .replace partial_path destination, s =>
    (.ok (), (s.hold (.path destination) (s.held (.path partial_path))).hold
      (.path partial_path) .absent)
  | .remove_partial_copy path, s => (.ok (), s.hold (.path path) .absent)
  | .remove_source source, s => match source, s.held source with
    | .path text, .absent => (.error s!"[Errno 2] No such file or directory: '{text}'", s)
    | .path text, .other => (.error s!"[Errno 20] Not a directory: '{text}'", s)
    | _, _ => (.ok (), s.hold source .absent)

def serveStore (lib : Library) : (c : StoreCall) → State → Except StoreException c.Answer × State
  | .head_object key, s => match s.objects key with
    | some o => (.ok (info_of lib key o), s.head key (info_of lib key o))
    | none => (.error ⟨true, "Not Found"⟩, s)
  | .get_object key, s => match s.objects key with
    | some o => (.ok o.body, s.fetch key o.body)
    | none => (.error ⟨true, "Not Found"⟩, s)
  | .put_object key body sha256 condition, s =>
    if accepts (s.objects key) condition = true then
      (.ok (), s.put key (some ⟨body, some sha256, "e0"⟩))
    else (.error ⟨false, "PreconditionFailed"⟩, s)
  | .delete_object key, s => (.ok (), s.put key none)

def serve (lib : Library) (now : PitrRestoreRecord.Timestamp) (o : Migration.Op) (s : State) :
    Migration.Reply o × State :=
  match o with
  | .inl c => serveLocal now c s
  | .inr c => serveStore lib c s

theorem hold_same (s : State) (source : Source) : s.hold source (s.held source) = s := by
  simp [State.hold]

theorem localWorld_serve (now : PitrRestoreRecord.Timestamp) (c : LocalCall) (s : State) :
    localWorld c s (serveLocal now c s).1 (serveLocal now c s).2 := by
  cases c with
  | read_manifest id =>
    refine ⟨rfl, ?_⟩
    intro m hm
    simp only [serveLocal] at hm
    cases hfound : s.manifests id with
    | none =>
      rw [hfound] at hm
      cases hm
    | some m' =>
      rw [hfound] at hm
      rw [Except.ok.inj hm]
  | existing_manifest id => exact ⟨rfl, fun found h => Except.ok.inj h⟩
  | write_manifest m => exact .inl rfl
  | token_hex => rfl
  | now_utc => rfl
  | is_real_dir path =>
    refine ⟨rfl, ?_⟩
    intro real hreal
    simp only [serveLocal] at hreal
    cases hheld : s.held (.path path) <;> rw [hheld] at hreal <;> rw [← Except.ok.inj hreal] <;>
      simp
  | lexists path =>
    refine ⟨rfl, ?_⟩
    intro found hfound
    obtain rfl := Except.ok.inj hfound
    simp
  | source_exists source =>
    cases hheld : s.held source with
    | directory tree =>
      simp only [serveLocal, hheld]
      exact .inr ⟨true, rfl, rfl, fun _ => ⟨tree, hheld⟩, fun _ _ h => nomatch h⟩
    | absent =>
      cases source <;> simp only [serveLocal, hheld]
      all_goals exact .inr ⟨false, rfl, rfl, fun h => (nomatch h), fun _ _ _ => hheld⟩
    | other =>
      cases source <;> simp only [serveLocal, hheld]
      · exact .inl ⟨⟨_, rfl⟩, rfl⟩
      · exact .inr ⟨false, rfl, rfl, fun h => (nomatch h), fun _ h => (nomatch h)⟩
  | materialize v =>
    cases hheld : s.held (.volume v) <;> simp only [serveLocal, hheld]
    · exact .inl ⟨⟨_, rfl⟩, rfl⟩
    · exact .inl ⟨⟨_, rfl⟩, rfl⟩
    · exact .inr ⟨_, rfl, hheld, rfl⟩
  | walk root =>
    cases root with
    | directory path =>
      cases hheld : s.held (.path path) <;> simp only [serveLocal, hheld]
      · exact .inl ⟨⟨_, rfl⟩, rfl⟩
      · exact .inl ⟨⟨_, rfl⟩, rfl⟩
      · exact .inr ⟨_, rfl, hheld, rfl⟩
    | extracted tree => exact ⟨rfl, fun found h => (Except.ok.inj h).symm⟩
  | read_file root path => exact ⟨rfl, fun found h => (Except.ok.inj h).symm⟩
  | make_dir path => exact .inl rfl
  | copy_file root path partial_path =>
    cases hcontent : s.content root path with
    | none =>
      simp only [serveLocal, hcontent]
      exact ⟨s.held (.path partial_path), (hold_same _ _).symm, fun _ h => nomatch h⟩
    | some bytes =>
      cases hheld : s.held (.path partial_path) with
      | directory tree =>
        simp only [serveLocal, hcontent, hheld]
        refine ⟨_, rfl, ?_⟩
        intro bytes' hbytes
        obtain rfl := Except.ok.inj hbytes
        refine ⟨hcontent, ?_⟩
        intro tree' htree
        rw [hheld] at htree
        rw [Held.directory.inj htree]
      | absent =>
        simp only [serveLocal, hcontent, hheld]
        exact ⟨s.held (.path partial_path), (hold_same _ _).symm, fun _ h => nomatch h⟩
      | other =>
        simp only [serveLocal, hcontent, hheld]
        exact ⟨s.held (.path partial_path), (hold_same _ _).symm, fun _ h => nomatch h⟩
  | replace partial_path destination => exact .inl rfl
  | remove_partial_copy path => exact ⟨.absent, .inr (.inl rfl), rfl⟩
  | remove_source source =>
    have hgone : ∃ after, Remains (s.held source) after ∧ s.hold source .absent =
        s.hold source after ∧ ((.ok () : Except String Unit) = .ok () → after = .absent) :=
      ⟨.absent, .inr (.inl rfl), rfl, fun _ => rfl⟩
    have hfailed : ∀ e, ∃ after, Remains (s.held source) after ∧ s = s.hold source after ∧
        ((.error e : Except String Unit) = .ok () → after = .absent) := fun e =>
      ⟨s.held source, .inl rfl, (hold_same _ _).symm, fun h => nomatch h⟩
    cases hheld : s.held source <;> cases source <;> simp only [serveLocal, hheld]
    all_goals first | exact hgone | exact hfailed _

theorem storeWorld_serve (lib : Library) (c : StoreCall) (s : State) :
    storeWorld lib c s (serveStore lib c s).1 (serveStore lib c s).2 := by
  cases c with
  | head_object key =>
    cases hfound : s.objects key <;> simp only [serveStore, hfound]
    · exact .inr ⟨_, rfl, rfl, fun _ => hfound⟩
    · exact .inl ⟨_, hfound, rfl, rfl⟩
  | get_object key =>
    cases hfound : s.objects key <;> simp only [serveStore, hfound]
    · exact .inr ⟨⟨_, rfl⟩, rfl⟩
    · exact .inl ⟨_, hfound, rfl, rfl⟩
  | put_object key body sha256 condition =>
    simp only [serveStore]
    split
    next haccepts => exact .inl ⟨haccepts, "e0", rfl⟩
    next => exact .inr ⟨⟨_, rfl⟩, rfl⟩
  | delete_object key => exact .inl rfl

theorem serve_world (lib : Library) (now : PitrRestoreRecord.Timestamp) (o : Migration.Op)
    (s : State) : world lib o s (serve lib now o s).1 (serve lib now o s).2 :=
  match o with
  | .inl c => localWorld_serve now c s
  | .inr c => storeWorld_serve lib c s

end MigrationWorld
