import Odooctl.EffectPrograms
import Odooctl.ProjectConfiguration

/-!
# Filestore adapters

`FilestoreAdapter` and `RuntimeVolumeFilestore` of `adapters/filestore.py` as programs over
the file system of the host and of the Odoo containers. A directory is known by its canonical
path; how the host resolves a written path, symbolic links included, is a parameter.
-/
namespace FilestoreAdapters

open EffectPrograms ProjectConfiguration

/-- The host, or the Odoo service, of one namespace where the runtime has namespaces. -/
inductive Place where
  | host
  | service (namespace_ : Option String)
  deriving DecidableEq, Repr

/-- A directory by the components of its canonical path. -/
structure Location where
  place : Place
  path : List String
  deriving DecidableEq, Repr

def Location.child (l : Location) (name : String) : Location := { l with path := l.path ++ [name] }

/-- `l` is `home` or below it. -/
def Location.Within (l home : Location) : Prop := l.place = home.place ∧ home.path <+: l.path

instance (l home : Location) : Decidable (l.Within home) :=
  inferInstanceAs (Decidable (_ ∧ _))

/-- One of the two directories holds the other. -/
def Location.Overlaps (l home : Location) : Prop := l.Within home ∨ home.Within l

instance (l home : Location) : Decidable (l.Overlaps home) :=
  inferInstanceAs (Decidable (_ ∨ _))

namespace Location

variable {l home : Location} {m n : String}

theorem child_within : (l.child n).Within home ↔ l.Within home ∨ l.child n = home := by
  constructor
  · rintro ⟨hplace, hpath⟩
    rcases List.prefix_concat_iff.mp hpath with h | h
    · exact .inr (by cases l; cases home; simp_all [child])
    · exact .inl ⟨hplace, h⟩
  · rintro (⟨hplace, hpath⟩ | rfl)
    · exact ⟨hplace, hpath.trans (List.prefix_append _ _)⟩
    · exact ⟨rfl, List.prefix_refl _⟩

theorem within_of_child (h : home.Within (l.child n)) : home.Within l :=
  ⟨h.1, (List.prefix_append _ _).trans h.2⟩

theorem within_refl (l : Location) : l.Within l := ⟨rfl, List.prefix_refl _⟩

theorem not_within_child (l : Location) (n : String) : ¬ l.Within (l.child n) := by
  rintro ⟨-, h⟩
  have hlen := h.length_le
  simp only [child, List.length_append, List.length_cons, List.length_nil] at hlen
  omega

theorem child_inj : l.child m = l.child n ↔ m = n := by
  simp [child]

theorem child_overlaps_child : (l.child m).Overlaps (l.child n) ↔ m = n := by
  constructor
  · rintro (h | h)
    · rcases child_within.mp h with h | h
      · exact absurd h (not_within_child l n)
      · exact child_inj.mp h
    · rcases child_within.mp h with h | h
      · exact absurd h (not_within_child l m)
      · exact (child_inj.mp h).symm
  · rintro rfl
    exact .inl (within_refl _)

/-- What lies in a directory overlaps no more than the directory. -/
theorem Overlaps.of_child (h : (l.child n).Overlaps home) : l.Overlaps home := by
  rcases h with h | h
  · rcases child_within.mp h with h | rfl
    · exact .inl h
    · exact .inr (child_within.mpr (.inl (within_refl l)))
  · exact .inr (within_of_child h)

end Location

/-! ## Operations -/

def isTempChar (c : Char) : Bool := ('a' ≤ c && c ≤ 'z') || ('0' ≤ c && c ≤ '9') || c = '_'

/-- The random part of a name from `tempfile`. -/
structure TempSuffix where
  chars : List Char
  length_eq : chars.length = 8
  drawn : chars.all isTempChar = true

def TempSuffix.name (stem : String) (s : TempSuffix) : String := stem ++ String.ofList s.chars

inductive FileCall where
  | archive_exists (archive : String)
  | validate_tar_members (archive : String)
  | archive_root_name (archive : String)
  | exists_ (l : Location)
  | ensure_dir (l : Location)
  | make_temp_dir (parent : Location) (stem : String)
  | extract (archive : String) (into : Location)
  | children (l : Location)
  | remove_tree (l : Location)
  | move (src dst : Location)
  | copy_tree (src dst : Location)
  deriving DecidableEq, Repr

abbrev FileCall.Answer : FileCall → Type
  | .archive_exists _ => Bool
  | .archive_root_name _ => String
  | .exists_ _ => Bool
  | .make_temp_dir _ _ => TempSuffix
  | .children _ => List String
  | _ => Unit

/-- An error reply is the text of the exception. -/
abbrev Files : Interface := ⟨FileCall, fun c => Except String c.Answer⟩

abbrev FileM := Prog Files String

def send (c : FileCall) : FileM c.Answer := .perform (F := Files) c id

/-- Whether the operation removes, replaces or writes something in `home`. -/
def FileCall.Touches (home : Location) : FileCall → Prop
  | .ensure_dir l => l.Within home
  | .make_temp_dir parent stem => ∃ s : TempSuffix, (parent.child (s.name stem)).Within home
  | .extract _ into => into.Overlaps home
  | .remove_tree l => l.Overlaps home
  | .move src dst => src.Overlaps home ∨ dst.Overlaps home
  | .copy_tree _ dst => dst.Overlaps home
  | _ => False

/-! ## On the host -/

/-- What `Path(path)` denotes: the text, its directory, that directory's parent and the last
component as written. -/
structure HostPath where
  written : String
  here : Location
  parent : Location
  name : String

namespace FilestoreAdapter

/-- `with tempfile.TemporaryDirectory(dir=parent, prefix=stem)`. -/
def withTempDir (parent : Location) (stem : String) (body : Location → FileM Unit) :
    FileM Unit := do
  let drawn ← send (.make_temp_dir parent stem)
  let tmpdir := parent.child (drawn.name stem)
  Prog.ensuring (body tmpdir) (send (.remove_tree tmpdir))

/-- `if target.exists(): shutil.rmtree(target)`, then `shutil.move(src, target)`. -/
def replace_by (src target : Location) : FileM Unit := do
  if ← send (.exists_ target) then
    send (.remove_tree target)
    send (.move src target)
  else send (.move src target)

/-- The directory that an archive was extracted to. -/
def extracted_dir (tmpdir : Location) (name : String) : FileM Location := do
  if ← send (.exists_ (tmpdir.child name)) then return tmpdir.child name
  else
    match ← send (.children tmpdir) with
    | [child] => return tmpdir.child child
    | _ => .raise s!"Archive did not contain expected filestore directory: {name}"

def restore_archive (archive : String) (target : HostPath) : FileM Unit := do
  if ← send (.archive_exists archive) then
    send (.validate_tar_members archive)
    send (.ensure_dir target.parent)
    withTempDir target.parent s!".{target.name}.restore-" fun tmpdir => do
      send (.extract archive tmpdir)
      let extracted ← extracted_dir tmpdir target.name
      replace_by extracted target.here
  else .raise s!"Filestore archive does not exist: {archive}"

def copy (source target : HostPath) : FileM Unit := do
  if ← send (.exists_ source.here) then
    send (.ensure_dir target.parent)
    withTempDir target.parent s!".{target.name}.copy-" fun tmpdir => do
      send (.copy_tree source.here (tmpdir.child target.name))
      replace_by (tmpdir.child target.name) target.here
  else .raise s!"Source filestore path does not exist: {source.written}"

def delete (path : HostPath) : FileM Unit := do
  if ← send (.exists_ path.here) then send (.remove_tree path.here)
  else return ()

end FilestoreAdapter

/-! ## In the Odoo service -/

/-- The service and the components of `filestore_container_path`. -/
structure RuntimeVolumeFilestore where
  place : Place
  root : List String
  deriving DecidableEq, Repr

namespace RuntimeVolumeFilestore

def parent (fs : RuntimeVolumeFilestore) : Location := ⟨fs.place, fs.root ++ ["filestore"]⟩

def container_filestore_dir (fs : RuntimeVolumeFilestore) (name : String) : Location :=
  fs.parent.child name

def stage (fs : RuntimeVolumeFilestore) (name : String) : Location :=
  fs.parent.child (".odooctl-restore-" ++ name)

/-- `name` is the last component of the target path. -/
def restore_archive (fs : RuntimeVolumeFilestore) (archive name : String) : FileM Unit := do
  if ← send (.archive_exists archive) then
    send (.validate_tar_members archive)
    let archive_root ← send (.archive_root_name archive)
    send (.ensure_dir fs.parent)
    send (.remove_tree (fs.stage name))
    send (.ensure_dir (fs.stage name))
    Prog.ensuring (do
        send (.extract archive (fs.stage name))
        send (.remove_tree (fs.container_filestore_dir name))
        send (.move ((fs.stage name).child archive_root) (fs.container_filestore_dir name)))
      (send (.remove_tree (fs.stage name)))
  else .raise s!"Filestore archive does not exist: {archive}"

def copy (fs : RuntimeVolumeFilestore) (source target : String) : FileM Unit := do
  send (.ensure_dir fs.parent)
  send (.remove_tree (fs.container_filestore_dir target))
  send (.copy_tree (fs.container_filestore_dir source) (fs.container_filestore_dir target))

def delete (fs : RuntimeVolumeFilestore) (name : String) : FileM Unit :=
  send (.remove_tree (fs.container_filestore_dir name))

end RuntimeVolumeFilestore

/-! ## Paths of a configuration -/

/-- The host as far as paths depend on it. -/
structure Host where
  project_root : PosixPath
  cwd : PosixPath
  expanduser : PosixPath → PosixPath
  /-- the canonical path of an absolute one -/
  real : PosixPath → List String

def PosixPath.join (base path : PosixPath) : PosixPath :=
  if path.absolute then path else { base with parts := base.parts ++ path.parts }

def PosixPath.parent (path : PosixPath) : PosixPath := { path with parts := path.parts.dropLast }

variable (host : Host)

/-- An absolute path as it is written. -/
def Host.denote (written : String) (path : PosixPath) : HostPath where
  written := written
  here := ⟨.host, host.real path⟩
  parent := ⟨.host, host.real (PosixPath.parent path)⟩
  name := path.name

/-- `Path(str(project.resolve_path(value)))`. -/
def Host.resolve_path (value : String) : HostPath :=
  let path := host.expanduser (.parse value)
  if path.absolute then host.denote value path
  else
    let resolved := host.real (PosixPath.join host.project_root path)
    { written := "/" ++ "/".intercalate resolved
      here := ⟨.host, resolved⟩
      parent := ⟨.host, resolved.dropLast⟩
      name := resolved.getLast?.getD "" }

/-- `Path(value)`: relative to the working directory. -/
def Host.as_given (value : String) : HostPath :=
  { host.denote value (PosixPath.join host.cwd (.parse value)) with
    name := (PosixPath.parse value).name }

end FilestoreAdapters
