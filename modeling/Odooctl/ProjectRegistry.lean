import Mathlib.Data.List.DropRight
import Odooctl.TomlText
import Odooctl.UserStore

/-!
# The project registry

`registry.py` and the route that sets an owner, on the text of `config.toml`. `tomllib` is
`TomlText.loads`, which reads all that `save_registry` can write; paths are their texts.
-/
namespace ProjectRegistry

open BackupSelection (truthy)
open ProjectConfiguration (PosixPath isSpace validate_identifier)
open PythonJson (Items Json)
open PythonText
open UserStore (text textOr)

/-! ## Registries -/

structure RegisteredProject where
  name : String
  path : String
  config : String := "odooctl.yml"
  owner : String := ""
  deriving DecidableEq, Repr

abbrev Projects := List (String × RegisteredProject)

structure Registry where
  path : String
  active : Option String
  projects : Projects
  deriving DecidableEq, Repr

/-- `projects[name] = project`. -/
def setItem (projects : Projects) (name : String) (project : RegisteredProject) : Projects :=
  if name ∈ projects.map Prod.fst then
    projects.map fun item => if item.1 = name then (name, project) else item
  else projects ++ [(name, project)]

inductive RegistryFailure where
  | decode
  | attribute (message : String)
  | runtime (message : String)
  | click (message : String)
  | http (status_code : ℕ) (detail : String)
  deriving DecidableEq, Repr

/-- `Path(s).expanduser()`, `Path(s).resolve()` and `Path(s).exists()`. What is expanded has no
home left to expand, and what is resolved begins at the root. -/
structure FileNames where
  expanduser : String → Except String String
  resolve : String → String
  exists_ : String → Bool
  default_registry_path : Except String String
  expanduser_expanduser : ∀ s p, expanduser s = .ok p → expanduser p = .ok p
  expanduser_resolve : ∀ s, expanduser (resolve s) = .ok (resolve s)
  expanduser_default : ∀ p, default_registry_path = .ok p → expanduser p = .ok p

/-! ## Reading -/

def items_error (value : Json) : String :=
  let type := match value with
    | .null => "NoneType"
    | .bool _ => "bool"
    | .int _ => "int"
    | .float _ => "float"
    | .str _ => "str"
    | .list _ => "list"
    | .dict _ => "dict"
  s!"'{type}' object has no attribute 'items'"

/-- `(data.get("projects", {}) or {}).items()`. -/
def raw_projects (data : Items) : Except RegistryFailure Items :=
  match PythonJson.get data "projects" with
  | none => .ok []
  | some value =>
    if truthy value then
      match value with
      | .dict items => .ok items
      | value => .error (.attribute (items_error value))
    else .ok []

def active_of : Option Json → Option String
  | none | some .null => none
  | some value => some (text value)

section Paths

variable (names : FileNames)

def expanded (s : String) : Except RegistryFailure String :=
  (names.expanduser s).mapError .runtime

/-- One round of the loop over the projects. -/
def load_project (projects : Projects) (item : String × Json) : Except RegistryFailure Projects :=
  match item.2 with
  | .dict raw =>
    match PythonJson.get raw "path" with
    | none => .ok projects
    | some path => do
      let path ← expanded names (text path)
      return setItem projects item.1 {
        name := item.1
        path
        config := textOr raw "config" "odooctl.yml"
        owner := textOr raw "owner" "" }
  | _ => .ok projects

def registry_path : Option String → Except RegistryFailure String
  | some path => expanded names path
  | none => names.default_registry_path.mapError .runtime

/-- `file` is what stands at the path of the registry; `None` where nothing does. -/
def load_registry (path : Option String) (file : Option (List Char)) :
    Except RegistryFailure Registry := do
  let registry_path ← registry_path names path
  match file with
  | none => return { path := registry_path, active := none, projects := [] }
  | some file =>
    match TomlText.loads file with
    | none => .error .decode
    | some data =>
      let projects ← (← raw_projects data).foldlM (load_project names) []
      return {
        path := registry_path
        active := active_of (PythonJson.get data "active")
        projects }

end Paths

/-! ## Writing -/

/-- `value.replace(c, by)`. -/
def replaceChar (c : Char) (by_ value : List Char) : List Char :=
  value.flatMap fun d => if d = c then by_ else [d]

def _toml_escape (value : String) : List Char :=
  replaceChar '"' ['\\', '"'] (replaceChar '\\' ['\\', '\\'] value.toList)

def string (value : String) : List Char := '"' :: (_toml_escape value ++ ['"'])

def entry (name : String) (project : RegisteredProject) : List Char :=
  string name ++ " = \x7b path = ".toList ++ string project.path ++
    ", config = ".toList ++ string project.config ++
    (if project.owner = "" then [] else ", owner = ".toList ++ string project.owner) ++
      " \x7d".toList

def active_lines : Option String → List (List Char)
  | none => []
  | some active => if active = "" then [] else ["active = ".toList ++ string active, []]

def sorted (projects : Projects) : Projects := projects.mergeSort fun x y => x.1 ≤ y.1

def project_lines (projects : Projects) : List (List Char) :=
  if projects = [] then []
  else "[projects]".toList :: (sorted projects).map fun item => entry item.1 item.2

def rstrip (cs : List Char) : List Char := cs.rdropWhile isSpace

/-- The text of the file that is written. -/
def save_registry (registry : Registry) : List Char :=
  rstrip (['\n'].intercalate (active_lines registry.active ++ project_lines registry.projects)) ++
    ['\n']

/-! ## What changes a registry -/

def _validate_project_name (name : String) : Except RegistryFailure String :=
  (validate_identifier name "project name").mapError .click

def is_relative_to (path root : String) : Bool :=
  (PosixPath.parse path).absolute = (PosixPath.parse root).absolute &&
    (PosixPath.parse root).parts.isPrefixOf (PosixPath.parse path).parts

def _contained_config_path (names : FileNames) (name root config : String) :
    Except RegistryFailure String := do
  let root_resolved := names.resolve (← expanded names root)
  let config_path ← expanded names config
  let resolved := names.resolve (
    if (PosixPath.parse config_path).absolute then config_path
    else root_resolved ++ "/" ++ config_path)
  if is_relative_to resolved root_resolved then return resolved
  else .error (.click (s!"Config path for project {quoted name} escapes the project root: " ++
    s!"{resolved} is not inside {root_resolved}"))

def unknown_project (name : String) : RegistryFailure := .click s!"Unknown project: {name}"

/-- `dataclasses.replace(project, owner=owner)` for the project of that name. -/
def replace_owner (missing : RegistryFailure) (name owner : String) (registry : Registry) :
    Except RegistryFailure Registry :=
  match registry.projects.lookup name with
  | none => .error missing
  | some project =>
    .ok { registry with projects := setItem registry.projects name { project with owner := owner } }

/-- What `registry.py` and the route do with the registry that they load. -/
inductive Change where
  | add_project (name path config : String) (make_active : Bool) (owner : String)
  | remove_project (name : String)
  | set_project_owner (name owner : String)
  | patch_owner (project : String) (body : Items)
  | use_project (name : String)

/-- The registry that is saved. -/
def Change.apply (names : FileNames) (registry : Registry) :
    Change → Except RegistryFailure Registry
  | .add_project name path config make_active owner => do
    let _ ← _validate_project_name name
    let root := names.resolve (← expanded names path)
    let resolved_config ← _contained_config_path names name root config
    if names.exists_ resolved_config = false then
      .error (.click (s!"Config file not found for project {quoted name}: {resolved_config}"))
    else
      return { registry with
        active := if make_active ∨ registry.active = none then some name else registry.active
        projects := setItem registry.projects name { name, path := root, config, owner } }
  | .remove_project name =>
    if name ∉ registry.projects.map Prod.fst then .error (unknown_project name)
    else
      let projects := registry.projects.filter fun item => item.1 ≠ name
      .ok { registry with
        active :=
          if registry.active = some name then (sorted projects).head?.map Prod.fst
          else registry.active
        projects }
  | .set_project_owner name owner => replace_owner (unknown_project name) name owner registry
  | .patch_owner project body =>
    replace_owner (.http 404 s!"Project {quoted project} not found") project
      (textOr body "owner" "") registry
  | .use_project name =>
    match registry.projects.lookup name with
    | none => .error (unknown_project name)
    | some _ => .ok { registry with active := some name }

/-- The registries that the code loads, and those that it saves. -/
inductive Produced (names : FileNames) : Registry → Prop
  | loaded (path file) {registry : Registry}
      (h : load_registry names path file = .ok registry) : Produced names registry
  | changed (path file) (change : Change) {loaded registry : Registry}
      (hload : load_registry names path file = .ok loaded)
      (h : change.apply names loaded = .ok registry) : Produced names registry

/-! ## When a registry is read back -/

/-- Equal as Python compares them: the order of a dictionary does not count. -/
def Same (r r' : Registry) : Prop :=
  r.path = r'.path ∧ r.active = r'.active ∧
    ∀ name, r.projects.lookup name = r'.projects.lookup name

/-- `load_registry(registry.path)` after `save_registry(registry)`. -/
def reload (names : FileNames) (registry : Registry) : Except RegistryFailure Registry :=
  load_registry names (some registry.path) (some (save_registry registry))

/-- No text holds a control character other than the tab. -/
def RegisteredProject.Readable (name : String) (project : RegisteredProject) : Prop :=
  TomlText.readable name = true ∧ TomlText.readable project.path = true ∧
    TomlText.readable project.config = true ∧ TomlText.readable project.owner = true

def Registry.Readable (registry : Registry) : Prop :=
  (∀ active ∈ registry.active, TomlText.readable active = true) ∧
    ∀ item ∈ registry.projects, item.2.Readable item.1

/-- Every text can be read, and an active project has a name. -/
def Clean (registry : Registry) : Prop := registry.active ≠ some "" ∧ registry.Readable

/-! ## Lines as they are written -/

section Lines

open TomlText

theorem replaceChar_eq (c : Char) (by_ value : List Char) :
    replaceChar c by_ value = value.flatMap fun d => if d = c then by_ else [d] := rfl

theorem string_eq (value : String) : string value = quote value := by
  have hescape : _toml_escape value = value.toList.flatMap escapeChar := by
    rw [_toml_escape, replaceChar_eq, replaceChar_eq, List.flatMap_assoc]
    refine List.flatMap_congr fun c _ => ?_
    rw [escapeChar]
    split
    · rfl
    · rw [List.flatMap_singleton]
  rw [string, hescape, quote]

variable {name : String} {project : RegisteredProject} {rest : List Char}

def owner_field (owner : String) : Items := if owner = "" then [] else [("owner", .str owner)]

/-- The inline table of a project. -/
def fields (project : RegisteredProject) : Items :=
  ("path", .str project.path) :: ("config", .str project.config) :: owner_field project.owner

/-- What follows the text of `config`. -/
def closing (owner : String) : List Char :=
  (if owner = "" then [] else ", owner = ".toList ++ quote owner) ++ " \x7d".toList

theorem entry_eq (name : String) (project : RegisteredProject) :
    entry name project = quote name ++ (" = \x7b path = ".toList ++ (quote project.path ++
      (", config = ".toList ++ (quote project.config ++ closing project.owner)))) := by
  rw [entry, string_eq, string_eq, string_eq, string_eq]
  simp only [List.append_assoc]
  rfl

/-- What the reader takes from `value`, in the line that ends with `closing`. -/
theorem members_value {k : List Char} (hne : k ≠ []) (h : ∀ c ∈ k, isBare c = true)
    (value owner : String) (n : ℕ) :
    members (n + 2) (firstLine (k ++ ' ' :: '=' :: ' ' :: (quote value ++ closing owner))) =
      if readable value && readable owner then
        some ((String.ofList k, .str value) :: owner_field owner, [])
      else none := by
  have hvalue := member_firstLine hne h value (closing owner)
  have howner := member_firstLine (k := "owner".toList) (by decide)
    (CheckedLists.forall_of_all (by decide)) owner " \x7d".toList
  cases hv : readable value with
  | false =>
    rw [hv] at hvalue
    exact members_none hvalue _
  | true =>
    rw [hv, if_pos rfl] at hvalue
    by_cases hempty : owner = ""
    · subst hempty
      exact members_last hvalue rfl rfl _
    · have hclosing : closing owner =
          ',' :: ' ' ::
            ("owner".toList ++ ' ' :: '=' :: ' ' :: (quote owner ++ " \x7d".toList)) := by
        rw [closing, if_neg hempty, List.append_assoc]
        rfl
      have hcomma : after ',' (firstLine (closing owner)) =
          some (firstLine ("owner".toList ++ ' ' :: '=' :: ' ' ::
            (quote owner ++ " \x7d".toList))) := by
        rw [hclosing]
        rfl
      rw [members_next hvalue hcomma]
      cases ho : readable owner with
      | false =>
        rw [ho] at howner
        rw [members_none howner]
        rfl
      | true =>
        rw [ho, if_pos rfl] at howner
        rw [members_last howner rfl rfl, owner_field, if_neg hempty]
        rfl

def allReadable (name : String) (project : RegisteredProject) : Bool :=
  readable name && (readable project.path && (readable project.config && readable project.owner))

theorem allReadable_iff : allReadable name project = true ↔ project.Readable name := by
  simp only [allReadable, RegisteredProject.Readable, Bool.and_eq_true]

theorem members_fields (project : RegisteredProject) (n : ℕ) :
    members (n + 3) (firstLine ("path".toList ++ ' ' :: '=' :: ' ' :: (quote project.path ++
      (", config = ".toList ++ (quote project.config ++ closing project.owner))))) =
      if readable project.path && (readable project.config && readable project.owner) then
        some (fields project, [])
      else none := by
  have hpath := member_firstLine (k := "path".toList) (by decide)
    (CheckedLists.forall_of_all (by decide)) project.path
    (", config = ".toList ++ (quote project.config ++ closing project.owner))
  have hconfig := members_value (k := "config".toList) (by decide)
    (CheckedLists.forall_of_all (by decide)) project.config project.owner n
  have hcomma : after ',' (firstLine (", config = ".toList ++
      (quote project.config ++ closing project.owner))) =
      some (firstLine ("config".toList ++ ' ' :: '=' :: ' ' ::
        (quote project.config ++ closing project.owner))) := rfl
  cases hp : readable project.path with
  | false =>
    rw [hp] at hpath
    exact members_none hpath _
  | true =>
    rw [hp, if_pos rfl] at hpath
    rw [members_next hpath hcomma, hconfig, Bool.true_and]
    split <;> rfl

theorem fields_nodup (project : RegisteredProject) :
    ((fields project).map Prod.fst).Nodup := by
  rw [fields, owner_field]
  split
  · simp
  · simp

theorem item_fields (project : RegisteredProject) :
    item ('{' :: " path = ".toList ++ firstLine (quote project.path ++
      (", config = ".toList ++ (quote project.config ++ closing project.owner)))) =
      if readable project.path && (readable project.config && readable project.owner) then
        some (.dict (fields project), [])
      else none := by
  have hbrace : ∀ rest, after '}' (" path = ".toList ++ rest) = none := fun rest => rfl
  have hlength : ∀ rest : List Char,
      (" path = ".toList ++ rest).length = rest.length + 5 + 3 := fun rest => rfl
  have hskip : ∀ rest, skip (" path = ".toList ++ firstLine rest) =
      firstLine ("path".toList ++ ' ' :: '=' :: ' ' :: rest) := fun rest => rfl
  rw [List.cons_append, item, table, hbrace]
  simp only [hlength, hskip, members_fields]
  split
  · simp [fields_nodup]
  · rfl

/-- The line of a project is read as it was written, or its first physical line is not read. -/
theorem line_entry (name : String) (project : RegisteredProject) :
    line (firstLine (entry name project)) =
      if allReadable name project then some (.pair name (.dict (fields project))) else none := by
  have hline : ∀ rest, line (firstLine (quote name ++ rest)) =
      pair (firstLine (quote name ++ rest)) := fun rest => rfl
  have hafter : ∀ rest, after '=' (firstLine (" = \x7b path = ".toList ++ rest)) =
      some ('{' :: " path = ".toList ++ firstLine rest) := fun rest => rfl
  rw [entry_eq, hline, pair, key_firstLine, allReadable]
  cases readable name with
  | false => rfl
  | true =>
    simp only [if_true, Option.bind_eq_bind, Option.bind_some, hafter, item_fields, Bool.true_and]
    split <;> rfl

theorem line_active (active : String) :
    line (firstLine ("active = ".toList ++ string active)) =
      if readable active then some (.pair "active" (.str active)) else none := by
  have hline : ∀ rest, line (firstLine ("active = ".toList ++ rest)) =
      pair ("active = ".toList ++ firstLine rest) := fun rest => rfl
  have hkey : ∀ rest, key ("active = ".toList ++ rest) = some ("active", " = ".toList ++ rest) :=
    fun rest => key_bare (k := "active".toList) (by decide) (CheckedLists.forall_of_all (by decide))
  have hafter : ∀ rest, after '=' (" = ".toList ++ firstLine (quote active ++ rest)) =
      some (firstLine (quote active ++ rest)) := fun rest => rfl
  have hitem : ∀ rest, item (firstLine (quote active ++ rest)) =
      (value (firstLine (quote active ++ rest))).map fun r => (.str r.1, r.2) := fun rest => rfl
  rw [string_eq, ← List.append_nil (quote active), hline, pair, hkey]
  simp only [Option.bind_eq_bind, Option.bind_some, hafter, hitem, value_firstLine]
  split <;> rfl

theorem closing_eq (owner : String) : ∃ l, closing owner = l ++ ['}'] := by
  rw [closing]
  exact ⟨_ ++ [' '], by rw [List.append_assoc]; rfl⟩

theorem entry_concat (name : String) (project : RegisteredProject) :
    ∃ l, entry name project = l ++ ['}'] := by
  obtain ⟨l, hl⟩ := closing_eq project.owner
  rw [entry_eq, hl]
  exact ⟨_, by simp only [← List.append_assoc]; rfl⟩

theorem active_concat (active : String) :
    ∃ l, "active = ".toList ++ string active = l ++ ['"'] :=
  ⟨"active = ".toList ++ '"' :: _toml_escape active, by rw [List.append_assoc]; rfl⟩

theorem closing_not_newline {owner : String} (h : readable owner = true) :
    ∀ c ∈ closing owner, isNewline c = false := by
  rw [closing, List.forall_mem_append]
  refine ⟨?_, CheckedLists.forall_of_all (by decide)⟩
  split
  · simp
  · rw [List.forall_mem_append]
    exact ⟨CheckedLists.forall_of_all (by decide), quote_not_newline h⟩

theorem entry_not_newline (h : project.Readable name) :
    ∀ c ∈ entry name project, isNewline c = false := by
  obtain ⟨hname, hpath, hconfig, howner⟩ := h
  rw [entry_eq]
  simp only [List.forall_mem_append]
  exact ⟨quote_not_newline hname, CheckedLists.forall_of_all (by decide), quote_not_newline hpath,
    CheckedLists.forall_of_all (by decide), quote_not_newline hconfig, closing_not_newline howner⟩

theorem active_not_newline {active : String} (h : readable active = true) :
    ∀ c ∈ "active = ".toList ++ string active, isNewline c = false := by
  rw [string_eq, List.forall_mem_append]
  exact ⟨CheckedLists.forall_of_all (by decide), quote_not_newline h⟩

end Lines

/-! ## The text that is written -/

section Text

open TomlText

variable {r : Registry}

/-- The lines of the text: what `rstrip` takes off is the line after the active project. -/
def written_lines (r : Registry) : List (List Char) :=
  if r.projects = [] then [(active_lines r.active).headD []]
  else active_lines r.active ++ project_lines r.projects

theorem rstrip_concat {c : Char} (h : isSpace c = false) (l : List Char) :
    rstrip (l ++ [c]) = l ++ [c] := by
  rw [rstrip, List.rdropWhile_concat_neg _ _ c (by rw [h]; exact Bool.false_ne_true)]

theorem sorted_ne_nil {projects : Projects} (h : projects ≠ []) : sorted projects ≠ [] := by
  intro hsorted
  have hperm : (sorted projects).Perm projects := List.mergeSort_perm _ _
  rw [hsorted] at hperm
  exact h hperm.nil_eq.symm

theorem project_lines_concat {projects : Projects} (h : projects ≠ []) :
    ∃ ls l, project_lines projects = ls ++ [l ++ ['}']] := by
  rcases List.eq_nil_or_concat (sorted projects) with hnil | ⟨init, last, hlast⟩
  · exact absurd hnil (sorted_ne_nil h)
  · obtain ⟨l, hl⟩ := entry_concat last.1 last.2
    refine ⟨"[projects]".toList :: init.map fun item => entry item.1 item.2, l, ?_⟩
    rw [project_lines, if_neg h, hlast, List.concat_eq_append, List.map_append,
      List.map_singleton, hl]
    rfl

theorem save_registry_eq (r : Registry) : save_registry r = unlines (written_lines r) := by
  rw [save_registry, written_lines]
  by_cases hempty : r.projects = []
  · rw [if_pos hempty, project_lines, if_pos hempty, List.append_nil]
    cases hactive : r.active with
    | none => rfl
    | some active =>
      rw [active_lines]
      split
      · rfl
      · obtain ⟨l, hl⟩ := active_concat active
        rw [hl]
        have hjoin : ['\n'].intercalate [l ++ ['"'], []] = l ++ ['"'] ++ ['\n'] := by
          rw [List.intercalate_cons_cons, List.intercalate_singleton, List.append_nil]
        rw [hjoin, rstrip, List.rdropWhile_concat_pos _ _ '\n' rfl, ← rstrip, rstrip_concat rfl]
        exact (List.append_nil _).symm
  · obtain ⟨ls, l, hls⟩ := project_lines_concat hempty
    rw [if_neg hempty, hls, ← List.append_assoc, intercalate_concat, ← List.append_assoc,
      rstrip_concat rfl, unlines_concat, List.append_assoc (unlines _)]

theorem active_lines_some {active : String} (h : active ≠ "") :
    active_lines (some active) = ["active = ".toList ++ string active, []] := if_neg h

theorem mem_active_lines {l : List Char} (h : l ∈ active_lines r.active) :
    (∃ active ∈ r.active, l = "active = ".toList ++ string active) ∨ l = [] := by
  cases hactive : r.active with
  | none =>
    rw [hactive] at h
    cases h
  | some active =>
    rw [hactive, active_lines] at h
    split at h
    · cases h
    · rcases List.mem_cons.mp h with rfl | h
      · exact .inl ⟨active, rfl, rfl⟩
      · exact .inr (List.mem_singleton.mp h)

theorem mem_written_lines {l : List Char} (h : l ∈ written_lines r) :
    (∃ active ∈ r.active, l = "active = ".toList ++ string active) ∨ l = [] ∨
      l = "[projects]".toList ∨ ∃ item ∈ r.projects, l = entry item.1 item.2 := by
  rw [written_lines] at h
  split at h
  · have hl := List.mem_singleton.mp h
    cases hlines : active_lines r.active with
    | nil =>
      rw [hlines] at hl
      exact .inr (.inl hl)
    | cons first rest =>
      rw [hlines] at hl
      subst hl
      rcases mem_active_lines (hlines ▸ List.mem_cons_self) with hfirst | hfirst
      · exact .inl hfirst
      · exact .inr (.inl hfirst)
  · next hne =>
    rcases List.mem_append.mp h with h | h
    · rcases mem_active_lines h with h | h
      · exact .inl h
      · exact .inr (.inl h)
    · rw [project_lines, if_neg hne] at h
      rcases List.mem_cons.mp h with h | h
      · exact .inr (.inr (.inl h))
      · obtain ⟨item, hitem, rfl⟩ := List.mem_map.mp h
        exact .inr (.inr (.inr ⟨item, List.mem_mergeSort.mp hitem, rfl⟩))

theorem written_not_newline (h : r.Readable) :
    ∀ l ∈ written_lines r, ∀ c ∈ l, isNewline c = false := by
  intro l hl
  obtain ⟨active, hactive, rfl⟩ | rfl | rfl | ⟨item, hitem, rfl⟩ := mem_written_lines hl
  · exact active_not_newline (h.1 active hactive)
  · simp
  · exact CheckedLists.forall_of_all (by decide)
  · exact entry_not_newline (h.2 item hitem)

theorem written_getLast (r : Registry) : ∀ l ∈ written_lines r, l.getLast? ≠ some '\r' := by
  intro l hl
  obtain ⟨active, hactive, rfl⟩ | rfl | rfl | ⟨item, hitem, rfl⟩ := mem_written_lines hl
  · obtain ⟨l, hl⟩ := active_concat active
    rw [hl, List.getLast?_concat]
    decide
  · decide
  · decide
  · obtain ⟨l, hl⟩ := entry_concat item.1 item.2
    rw [hl, List.getLast?_concat]
    decide

/-! ## What is read back -/

def active_items : Option String → Items
  | none => []
  | some active => if active = "" then [] else [("active", .str active)]

def project_items (projects : Projects) : Items :=
  (sorted projects).map fun item => (item.1, .dict (fields item.2))

def document (r : Registry) : Items :=
  active_items r.active ++
    if r.projects = [] then [] else [("projects", .dict (project_items r.projects))]

theorem entries_read {projects : Projects} (h : ∀ item ∈ projects, item.2.Readable item.1) :
    (projects.map fun item => entry item.1 item.2).mapM line =
      some (projects.map fun item => .pair item.1 (.dict (fields item.2))) := by
  induction projects with
  | nil => rfl
  | cons item projects ih =>
    obtain ⟨hitem, hprojects⟩ := List.forall_mem_cons.mp h
    have hline := line_entry item.1 item.2
    rw [firstLine_self (entry_not_newline hitem), if_pos (allReadable_iff.mpr hitem)] at hline
    rw [List.map_cons, List.mapM_cons, hline, ih hprojects]
    rfl

theorem active_read (h : ∀ active ∈ r.active, readable active = true) :
    ∃ parsed, (active_lines r.active).mapM line = some parsed ∧
      ∀ rest, assemble [] none (parsed ++ rest) = assemble (active_items r.active) none rest := by
  cases hactive : r.active with
  | none => exact ⟨[], rfl, fun rest => rfl⟩
  | some active =>
    rw [active_lines, active_items]
    split
    · exact ⟨[], rfl, fun rest => rfl⟩
    · have hread := h active hactive
      have hline := line_active active
      rw [firstLine_self (active_not_newline hread), if_pos hread] at hline
      refine ⟨[.pair "active" (.str active), .blank], ?_, fun rest => rfl⟩
      rw [List.mapM_cons, hline]
      rfl

theorem sorted_perm (projects : Projects) : (sorted projects).Perm projects :=
  List.mergeSort_perm _ _

theorem loads_active (h : r.Readable) (hempty : r.projects = []) :
    loads (save_registry r) = some (active_items r.active) := by
  have hlines := written_not_newline h
  rw [save_registry_eq]
  rw [written_lines, if_pos hempty] at hlines ⊢
  cases hactive : r.active with
  | none => rfl
  | some active =>
    rw [hactive] at hlines
    by_cases hname : active = ""
    · subst hname
      rfl
    · have hread := h.1 active hactive
      have hline := line_active active
      rw [firstLine_self (active_not_newline hread), if_pos hread] at hline
      rw [active_lines_some hname] at hlines ⊢
      have hparsed : [["active = ".toList ++ string active, []].headD []].mapM line =
          some [.pair "active" (.str active)] := by
        rw [List.headD_cons, List.mapM_cons, hline]
        rfl
      rw [loads_unlines hlines hparsed, active_items, if_neg hname]
      rfl

theorem loads_save (h : r.Readable) (hkeys : (r.projects.map Prod.fst).Nodup) :
    loads (save_registry r) = some (document r) := by
  rw [document]
  by_cases hempty : r.projects = []
  · rw [loads_active h hempty, if_pos hempty, List.append_nil]
  · obtain ⟨parsed, hactive, hassemble⟩ := active_read h.1
    have hlines := written_not_newline h
    rw [save_registry_eq]
    rw [written_lines, if_neg hempty, project_lines, if_neg hempty] at hlines ⊢
    have hsorted : ∀ item ∈ sorted r.projects, item.2.Readable item.1 :=
      fun item hitem => h.2 item ((sorted_perm _).mem_iff.mp hitem)
    have hentries := entries_read hsorted
    have hparsed : (active_lines r.active ++ "[projects]".toList ::
        (sorted r.projects).map fun item => entry item.1 item.2).mapM line =
        some (parsed ++ .header "projects" ::
          (project_items r.projects).map fun p => .pair p.1 p.2) := by
      rw [List.mapM_append, hactive, List.mapM_cons, hentries, project_items, List.map_map]
      rfl
    have hfree : "projects" ∉ (flush (active_items r.active) none).map Prod.fst := by
      rw [flush]
      cases r.active with
      | none => simp [active_items]
      | some active =>
        rw [active_items]
        split <;> simp
    have hpairs : (([] ++ project_items r.projects).map Prod.fst).Nodup := by
      rw [List.nil_append, project_items, List.map_map]
      exact ((sorted_perm _).map Prod.fst).nodup_iff.mpr hkeys
    rw [loads_unlines hlines hparsed, List.append_assoc, hassemble, List.cons_append, assemble,
      if_neg hfree, assemble_pairs hpairs, if_neg hempty]
    rfl

/-- A control character in any text makes the whole file unreadable. -/
theorem loads_save_none (h : ¬r.Readable) : loads (save_registry r) = none := by
  rw [save_registry_eq]
  rw [Registry.Readable, not_and_or] at h
  rcases h with h | h
  · push Not at h
    obtain ⟨active, hactive, hread⟩ := h
    have hname : active ≠ "" := by
      rintro rfl
      exact hread rfl
    refine loads_unlines_none (written_getLast r) (l := "active = ".toList ++ string active) ?_ ?_
    · rw [written_lines, show r.active = some active from hactive, active_lines_some hname]
      split
      · exact List.mem_singleton_self _
      · exact List.mem_append_left _ List.mem_cons_self
    · rw [line_active, if_neg hread]
  · push Not at h
    obtain ⟨item, hitem, hread⟩ := h
    have hempty : r.projects ≠ [] := List.ne_nil_of_mem hitem
    refine loads_unlines_none (written_getLast r) (l := entry item.1 item.2) ?_ ?_
    · rw [written_lines, if_neg hempty, project_lines, if_neg hempty]
      refine List.mem_append_right _ (List.mem_cons_of_mem _ ?_)
      exact List.mem_map.mpr ⟨item, (sorted_perm _).mem_iff.mpr hitem, rfl⟩
    · rw [line_entry, if_neg (mt allReadable_iff.mp hread)]

end Text

/-! ## What holds of every registry -/

section Produced

variable {names : FileNames} {r r' : Registry} {projects projects' : Projects}
variable {name : String} {project : RegisteredProject}

/-- Every project stands under its own name, and its path is expanded. -/
structure ProjectsFormed (names : FileNames) (projects : Projects) : Prop where
  keys : (projects.map Prod.fst).Nodup
  entries : ∀ item ∈ projects, item.2.name = item.1 ∧
    names.expanduser item.2.path = .ok item.2.path

structure WellFormed (names : FileNames) (r : Registry) : Prop where
  projects : ProjectsFormed names r.projects
  path : names.expanduser r.path = .ok r.path

theorem setItem_new (h : name ∉ projects.map Prod.fst) :
    setItem projects name project = projects ++ [(name, project)] := if_neg h

theorem keys_setItem (h : name ∈ projects.map Prod.fst) :
    (setItem projects name project).map Prod.fst = projects.map Prod.fst := by
  rw [setItem, if_pos h, List.map_map]
  refine List.map_congr_left fun item _ => ?_
  rw [Function.comp_apply]
  split
  · next heq => exact heq.symm
  · rfl

theorem mem_setItem {item : String × RegisteredProject} (h : item ∈ setItem projects name project) :
    item = (name, project) ∨ item ∈ projects := by
  rw [setItem] at h
  split at h
  · obtain ⟨old, hold, heq⟩ := List.mem_map.mp h
    split at heq
    · exact .inl heq.symm
    · exact .inr (heq ▸ hold)
  · rcases List.mem_append.mp h with h | h
    · exact .inr h
    · exact .inl (List.mem_singleton.mp h)

theorem ProjectsFormed.setItem (h : ProjectsFormed names projects) (hname : project.name = name)
    (hpath : names.expanduser project.path = .ok project.path) :
    ProjectsFormed names (setItem projects name project) where
  keys := by
    by_cases hmem : name ∈ projects.map Prod.fst
    · rw [keys_setItem hmem]
      exact h.keys
    · rw [setItem_new hmem, List.map_append, List.map_singleton,
        ← List.concat_eq_append]
      exact h.keys.concat hmem
  entries := by
    intro item hitem
    rcases mem_setItem hitem with rfl | hitem
    · exact ⟨hname, hpath⟩
    · exact h.entries item hitem

theorem expanded_ok {s p : String} (h : expanded names s = .ok p) :
    names.expanduser s = .ok p := by
  rw [expanded] at h
  cases hs : names.expanduser s with
  | error e =>
    rw [hs] at h
    cases h
  | ok q =>
    rw [hs] at h
    cases h
    rfl

theorem expanded_expanduser {s p : String} (h : expanded names s = .ok p) :
    names.expanduser p = .ok p := names.expanduser_expanduser s p (expanded_ok h)

theorem load_project_formed {item : String × Json} (hf : ProjectsFormed names projects)
    (h : load_project names projects item = .ok projects') : ProjectsFormed names projects' := by
  obtain ⟨name, raw⟩ := item
  rw [load_project] at h
  split at h
  · split at h
    · cases h
      exact hf
    · next path _ =>
      obtain ⟨path', hpath, h⟩ := CheckedLists.bind_eq_ok.mp h
      cases h
      exact hf.setItem rfl (expanded_expanduser hpath)
  · cases h
    exact hf

theorem load_projects_formed {items : Items} (hf : ProjectsFormed names projects)
    (h : items.foldlM (load_project names) projects = .ok projects') :
    ProjectsFormed names projects' := by
  induction items generalizing projects with
  | nil =>
    cases h
    exact hf
  | cons item items ih =>
    rw [List.foldlM_cons] at h
    obtain ⟨projects₁, hitem, h⟩ := CheckedLists.bind_eq_ok.mp h
    exact ih (load_project_formed hf hitem) h

theorem formed_nil : ProjectsFormed names [] := ⟨List.nodup_nil, by simp⟩

theorem registry_path_expanded {path : Option String} {p : String}
    (h : registry_path names path = .ok p) : names.expanduser p = .ok p := by
  cases path with
  | some path => exact expanded_expanduser h
  | none =>
    cases hdefault : names.default_registry_path with
    | error e =>
      rw [registry_path, hdefault] at h
      cases h
    | ok q =>
      rw [registry_path, hdefault] at h
      cases h
      exact names.expanduser_default _ hdefault

theorem load_registry_formed {path : Option String} {file : Option (List Char)}
    (h : load_registry names path file = .ok r) : WellFormed names r := by
  rw [load_registry] at h
  obtain ⟨at_, hpath, h⟩ := CheckedLists.bind_eq_ok.mp h
  have hexpanded := registry_path_expanded hpath
  cases file with
  | none =>
    cases h
    exact ⟨formed_nil, hexpanded⟩
  | some file =>
    simp only at h
    split at h
    · cases h
    · obtain ⟨raw, -, h⟩ := CheckedLists.bind_eq_ok.mp h
      obtain ⟨projects, hprojects, h⟩ := CheckedLists.bind_eq_ok.mp h
      cases h
      exact ⟨load_projects_formed formed_nil hprojects, hexpanded⟩

theorem replace_owner_formed {missing : RegistryFailure} {owner : String} (hf : WellFormed names r)
    (h : replace_owner missing name owner r = .ok r') : WellFormed names r' := by
  rw [replace_owner] at h
  split at h
  · cases h
  · next project hproject =>
    cases h
    obtain ⟨l₁, l₂, heq, -⟩ := List.lookup_eq_some_iff.mp hproject
    obtain ⟨hname, hpath⟩ := hf.projects.entries (name, project) (by rw [heq]; simp)
    exact ⟨hf.projects.setItem hname hpath, hf.path⟩

theorem change_formed {change : Change} (hf : WellFormed names r)
    (h : change.apply names r = .ok r') : WellFormed names r' := by
  cases change with
  | add_project name path config make_active owner =>
    obtain ⟨_, -, h⟩ := CheckedLists.bind_eq_ok.mp h
    obtain ⟨expanded_path, -, h⟩ := CheckedLists.bind_eq_ok.mp h
    obtain ⟨_, -, h⟩ := CheckedLists.bind_eq_ok.mp h
    split at h
    · cases h
    · cases h
      exact ⟨hf.projects.setItem rfl (names.expanduser_resolve expanded_path), hf.path⟩
  | remove_project name =>
    rw [Change.apply] at h
    split at h
    · cases h
    · cases h
      refine ⟨⟨?_, fun item hitem => hf.projects.entries item (List.mem_of_mem_filter hitem)⟩,
        hf.path⟩
      exact hf.projects.keys.sublist (List.filter_sublist.map Prod.fst)
  | set_project_owner name owner => exact replace_owner_formed hf h
  | patch_owner project body => exact replace_owner_formed hf h
  | use_project name =>
    rw [Change.apply] at h
    split at h
    · cases h
    · cases h
      exact ⟨hf.projects, hf.path⟩

theorem produced_formed (h : Produced names r) : WellFormed names r := by
  cases h with
  | loaded path file h => exact load_registry_formed h
  | changed path file change hload h => exact change_formed (load_registry_formed hload) h

end Produced

/-! ## Saving and loading -/

section Reload

variable {names : FileNames} {r r' : Registry} {projects done : Projects}
variable {name : String} {project : RegisteredProject}

theorem load_fields (hname : project.name = name)
    (hpath : names.expanduser project.path = .ok project.path) :
    load_project names done (name, .dict (fields project)) = .ok (setItem done name project) := by
  have hget : PythonJson.get (fields project) "path" = some (.str project.path) := by
    simp [PythonJson.get, fields]
  have hconfig : textOr (fields project) "config" "odooctl.yml" = project.config := by
    simp [textOr, PythonJson.get, fields, text]
  have howner : textOr (fields project) "owner" "" = project.owner := by
    by_cases hempty : project.owner = ""
    · simp [textOr, PythonJson.get, fields, owner_field, hempty]
    · simp [textOr, PythonJson.get, fields, owner_field, hempty, text]
  rw [load_project]
  simp only [hget, text, hconfig, howner, expanded, hpath]
  subst hname
  rfl

/-- The projects are read in the order in which they are written. -/
theorem load_items (he : ∀ item ∈ projects, item.2.name = item.1 ∧
      names.expanduser item.2.path = .ok item.2.path)
    (hkeys : ((done ++ projects).map Prod.fst).Nodup) :
    (projects.map fun item => (item.1, Json.dict (fields item.2))).foldlM (load_project names)
      done = .ok (done ++ projects) := by
  induction projects generalizing done with
  | nil =>
    rw [List.append_nil]
    rfl
  | cons item projects ih =>
    obtain ⟨⟨hname, hpath⟩, he⟩ := List.forall_mem_cons.mp he
    have hnew : item.1 ∉ done.map Prod.fst := by
      rw [List.map_append, List.map_cons, List.nodup_middle, List.nodup_cons] at hkeys
      exact fun hmem => hkeys.1 (List.mem_append_left _ hmem)
    have hcons : done ++ item :: projects = (done ++ [item]) ++ projects := by
      rw [List.append_assoc, List.singleton_append]
    rw [hcons] at hkeys ⊢
    rw [List.map_cons, List.foldlM_cons, load_fields hname hpath, setItem_new hnew]
    exact ih he hkeys

theorem project_items_ne_nil (h : projects ≠ []) : project_items projects ≠ [] := by
  rw [project_items]
  exact fun hnil => sorted_ne_nil h (List.map_eq_nil_iff.mp hnil)

theorem get_projects (r : Registry) :
    PythonJson.get (document r) "projects" =
      if r.projects = [] then none else some (.dict (project_items r.projects)) := by
  have hactive : ∀ item ∈ active_items r.active, item.1 ≠ "projects" := by
    cases r.active with
    | none => simp [active_items]
    | some active =>
      rw [active_items]
      split <;> simp
  have hfind : (active_items r.active).find? (fun item => item.1 = "projects") = none := by
    simpa using hactive
  rw [PythonJson.get, document, List.find?_append, hfind]
  split <;> simp

theorem raw_projects_document (r : Registry) :
    raw_projects (document r) = .ok (project_items r.projects) := by
  rw [raw_projects, get_projects]
  by_cases hempty : r.projects = []
  · rw [if_pos hempty, hempty, project_items, sorted, List.mergeSort_nil]
    rfl
  · have hitems := project_items_ne_nil hempty
    rw [if_neg hempty]
    simp [truthy, hitems]

theorem active_of_document (r : Registry) :
    active_of (PythonJson.get (document r) "active") = r.active.filter fun a => a ≠ "" := by
  have hprojects : PythonJson.get (if r.projects = [] then []
      else [("projects", Json.dict (project_items r.projects))]) "active" = none := by
    split <;> rfl
  cases hactive : r.active with
  | none =>
    rw [document, hactive, active_items, List.nil_append, hprojects]
    rfl
  | some active =>
    rw [document, hactive, active_items]
    by_cases hempty : active = ""
    · rw [if_pos hempty, List.nil_append, hprojects]
      simp [active_of, Option.filter, hempty]
    · rw [if_neg hempty]
      simp [PythonJson.get, active_of, text, Option.filter, hempty]

theorem reload_eq (hf : WellFormed names r) :
    reload names r = match TomlText.loads (save_registry r) with
      | none => .error .decode
      | some data => do
        let projects ← (← raw_projects data).foldlM (load_project names) []
        return {
          path := r.path
          active := active_of (PythonJson.get data "active")
          projects } := by
  rw [reload, load_registry, registry_path, expanded, hf.path]
  rfl

/-- A readable registry comes back, in the order of its names and without an empty active one. -/
theorem reload_readable (hf : WellFormed names r) (h : r.Readable) :
    reload names r = .ok {
      path := r.path
      active := r.active.filter fun a => a ≠ ""
      projects := sorted r.projects } := by
  have hkeys : (([] ++ sorted r.projects).map Prod.fst).Nodup :=
    ((sorted_perm r.projects).map Prod.fst).nodup_iff.mpr hf.projects.keys
  have hitems : (project_items r.projects).foldlM (load_project names) [] =
      .ok (sorted r.projects) :=
    load_items (fun item hitem =>
      hf.projects.entries item ((sorted_perm r.projects).mem_iff.mp hitem)) hkeys
  rw [reload_eq hf, loads_save h hf.projects.keys]
  simp only [raw_projects_document, active_of_document]
  rw [show (Except.ok (project_items r.projects) : Except RegistryFailure Items) =
    pure (project_items r.projects) from rfl, pure_bind, hitems]
  rfl

theorem reload_unreadable (hf : WellFormed names r) (h : ¬r.Readable) :
    reload names r = .error .decode := by
  rw [reload_eq hf, loads_save_none h]

theorem lookup_sorted (hf : ProjectsFormed names projects) (name : String) :
    (sorted projects).lookup name = projects.lookup name := by
  have hkeys : ((sorted projects).map Prod.fst).Nodup :=
    ((sorted_perm projects).map Prod.fst).nodup_iff.mpr hf.keys
  cases hlookup : projects.lookup name with
  | none =>
    rw [List.lookup_eq_none_iff] at hlookup ⊢
    exact fun item hitem => hlookup item ((sorted_perm projects).mem_iff.mp hitem)
  | some project =>
    obtain ⟨l₁, l₂, heq, -⟩ := List.lookup_eq_some_iff.mp hlookup
    have hmem : (name, project) ∈ projects := by rw [heq]; simp
    exact ProjectConfiguration.lookup_of_mem hkeys ((sorted_perm projects).mem_iff.mpr hmem)

/-- No home is named in the paths. -/
def plainNames : FileNames where
  expanduser := .ok
  resolve := id
  exists_ := fun _ => true
  default_registry_path := .ok "/root/.config/odooctl/config.toml"
  expanduser_expanduser := fun _ _ _ => rfl
  expanduser_resolve := fun _ => rfl
  expanduser_default := fun _ _ => rfl

def shopFile : List Char :=
  "active = \"shop\"\n\n[projects]\n\"shop\" = \x7b path = \"/srv/shop\" \x7d\n".toList

def shopOwned (owner : String) : Registry where
  path := "/root/.config/odooctl/config.toml"
  active := some "shop"
  projects := [("shop", { name := "shop", path := "/srv/shop", owner })]

theorem shopFile_loads :
    load_registry plainNames none (some shopFile) = .ok (shopOwned "") := by decide +kernel

theorem patch_shop (owner : String) :
    Change.apply plainNames (shopOwned "") (.patch_owner "shop" [("owner", .str owner)]) =
      .ok (shopOwned owner) := rfl

theorem shopOwned_produced (owner : String) : Produced plainNames (shopOwned owner) :=
  .changed none (some shopFile) _ shopFile_loads (patch_shop owner)

end Reload

end ProjectRegistry
