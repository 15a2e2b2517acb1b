import Odooctl.ProjectConfiguration
import Odooctl.PythonJson

/-!
# Selecting a backup

`resolve_backup_dir` and `validate_backup_dir` of `services/restore.py` over what they find
under the backups root. A directory is known by the components of its canonical path.
-/
namespace BackupSelection

open CheckedLists ProjectConfiguration PythonJson PythonText

/-- What is read of a backup directory. -/
structure BackupDir where
  files : List String
  /-- `json.loads` of `manifest.json` -/
  manifest : Except String Json
  sha256_file : String → Except String String

/-- The backups root as a call finds it. -/
structure BackupsRoot where
  root : List String
  /-- the directories in the root that are not symbolic links -/
  entries : List String
  /-- `(root / name).resolve()` -/
  resolve : String → Except String (List String)
  dirs : List String → Option BackupDir

def pathText (parts : List String) : String := "/" ++ "/".intercalate parts

/-- `path.name`. -/
def dirName (parts : List String) : String := parts.getLast?.getD ""

/-- The names that the glob of an environment's backups matches. -/
def candidates (b : BackupsRoot) (environment : String) : List String :=
  (b.entries.filter fun name => (environment ++ "_").toList.isPrefixOf name.toList).mergeSort (· ≤ ·)

def invalid_backup_id (backup : String) : Prop :=
  backup = "" ∨ containsText backup "/" ∨ containsText backup "\\" ∨ containsText backup ".." ∨
    backup = "."

instance (backup : String) : Decidable (invalid_backup_id backup) :=
  inferInstanceAs (Decidable (_ ∨ _))

def resolve_backup_dir (b : BackupsRoot) (environment backup : String) :
    Except String (List String) :=
  if backup ≠ "latest" then do
    reject (invalid_backup_id backup)
      (s!"Invalid backup id {quoted backup}: backup ids are plain directory names " ++
        "and must not contain path separators or '..'")
    let candidate ← b.resolve backup
    reject (candidate = b.root ∨ ¬ b.root <+: candidate)
      (s!"Invalid backup id {quoted backup}: resolved path {pathText candidate} " ++
        s!"escapes the backups root {pathText b.root}")
    return candidate
  else
    match (candidates b environment).getLast? with
    | some name => .ok (b.root ++ [name])
    | none => .error s!"No backups found for environment: {environment}"

/-! ## Validation -/

mutual

/-- `repr(value)`. -/
def reprJson : Json → String
  | .null => "None"
  | .bool true => "True"
  | .bool false => "False"
  | .int i => toString i
  | .float text => text
  | .str s => quoted s
  | .list items => "[" ++ ", ".intercalate (reprList items) ++ "]"
  | .dict items => "\x7b" ++ ", ".intercalate (reprItems items) ++ "\x7d"

def reprList : List Json → List String
  | [] => []
  | v :: vs => reprJson v :: reprList vs

def reprItems : List (String × Json) → List String
  | [] => []
  | (k, v) :: rest => (quoted k ++ ": " ++ reprJson v) :: reprItems rest

end

/-- `str(manifest.get(key))`. -/
def shown (manifest : Items) (key : String) : String :=
  match get manifest key with
  | some (.str s) => s
  | some v => reprJson v
  | none => "None"

/-- A float whose text has digits, all zero up to the exponent. -/
def isZeroFloat (text : String) : Bool :=
  let mantissa := text.toList.takeWhile fun c => c ≠ 'e' && c ≠ 'E'
  mantissa.any Char.isDigit && mantissa.all fun c => !c.isDigit || c = '0'

/-- `bool(value)`. -/
def truthy : Json → Bool
  | .null => false
  | .bool b => b
  | .int i => i ≠ 0
  | .float text => !isZeroFloat text
  | .str s => s ≠ ""
  | .list items => !items.isEmpty
  | .dict items => !items.isEmpty

def attribute_error (v : Json) : String :=
  let type := match v with
    | .null => "NoneType"
    | .bool _ => "bool"
    | .int _ => "int"
    | .float _ => "float"
    | .str _ => "str"
    | .list _ => "list"
    | .dict _ => "dict"
  s!"'{type}' object has no attribute 'get'"

/-- `value.get` of something that must be a mapping. -/
def asMapping : Json → Except String Items
  | .dict items => .ok items
  | v => .error (attribute_error v)

def REQUIRED_BACKUP_FILES : List String := ["db.dump", "filestore.tar", "manifest.json"]

/-- One round of the loop over the checksums. -/
def check_checksum (d : BackupDir) (checksums : Items) (key file_name : String) :
    Except String Unit := do
  let expected := (get checksums key).getD .null
  reject (truthy expected = false) s!"Backup manifest is missing checksum for {file_name}"
  let digest ← d.sha256_file file_name
  reject (expected.asStr ≠ some digest) s!"Backup checksum mismatch for {file_name}"

/-- `manifest.get(key, default) == default` or not. -/
def differs (manifest : Items) (key default_ : String) : Bool :=
  match get manifest key with
  | none => false
  | some v => v.asStr ≠ some default_

def check_manifest (name : String) (d : BackupDir) (manifest : Items) (expected_project : String)
    (expected_environment : Option String) : Except String Unit := do
  reject (holds manifest "project" expected_project = false)
    (s!"Backup project mismatch: expected {expected_project}, got " ++ shown manifest "project")
  match expected_environment with
  | some environment =>
    reject (holds manifest "environment" environment = false)
      (s!"Backup environment mismatch: expected {environment}, got " ++
        shown manifest "environment")
  | none => .ok ()
  reject (holds manifest "backup_id" name = false)
    (s!"Backup id mismatch: expected {name}, got " ++ shown manifest "backup_id")
  reject (differs manifest "status" "complete" = true)
    ("Backup is not complete: " ++ shown manifest "status")
  reject (differs manifest "backup_mode" "full" = true)
    ("Unsupported backup mode for full restore: " ++ shown manifest "backup_mode")
  let checksums := (get manifest "checksums").getD .null
  let checksums ← if truthy checksums then asMapping checksums else .ok []
  check_checksum d checksums "db_dump" "db.dump"
  check_checksum d checksums "filestore" "filestore.tar"

/-- With `restore_mode="full"`. -/
def validate_backup_dir (b : BackupsRoot) (backup_dir : List String) (expected_project : String)
    (expected_environment : Option String) : Except String Unit := do
  match b.dirs backup_dir with
  | none => .error s!"Backup directory does not exist: {pathText backup_dir}"
  | some d =>
    let missing := REQUIRED_BACKUP_FILES.filter fun name => !d.files.contains name
    reject (missing ≠ []) ("Backup is missing required file(s): " ++ ", ".intercalate missing)
    let manifest ← d.manifest >>= asMapping
    check_manifest (dirName backup_dir) d manifest expected_project expected_environment

end BackupSelection
