import Odooctl.ProjectConfiguration

/-!
# The import contract of the API

The static scan of `security/runner_contract.py` over syntax trees, and what the import
statements of a tree make available. A dotted name is compared by its components.
-/
namespace ImportContract

open ProjectConfiguration (PosixPath)

/-! ## Syntax trees -/

structure Alias where
  name : String
  asname : Option String := none
  deriving DecidableEq, Repr

/-- A syntax tree as the scan sees it: the import statements, and any other node by its
children. A `from` import has at least one name. -/
inductive Node where
  | import_ (names : List Alias) (lineno : ℕ)
  | import_from (module : Option String) (first : Alias) (rest : List Alias) (level lineno : ℕ)
  | other (children : List Node)

/-- `ast.iter_child_nodes`. -/
def Node.children : Node → List Node
  | .import_ names _ => names.map fun _ => .other []
  | .import_from _ first rest _ _ => (first :: rest).map fun _ => .other []
  | .other children => children

mutual

def Node.count : Node → ℕ
  | .import_ names _ => 1 + names.length
  | .import_from _ _ rest _ _ => 2 + rest.length
  | .other children => 1 + countAll children

def countAll : List Node → ℕ
  | [] => 0
  | node :: nodes => node.count + countAll nodes

end

/-- The queue of `ast.walk`, for as many nodes as there are. -/
def walk_from : ℕ → List Node → List Node
  | 0, _ => []
  | _ + 1, [] => []
  | n + 1, node :: todo => node :: walk_from n (todo ++ node.children)

def walk (tree : Node) : List Node := walk_from tree.count [tree]

/-! ## The scan -/

def PRIVILEGED_MODULE_PREFIXES : List String := ["odooctl.adapters", "odooctl.odoo"]

structure ImportViolation where
  package : String
  module : String
  source_file : String
  lineno : ℕ
  deriving DecidableEq, Repr

def is_privileged (module : String) : Bool :=
  PRIVILEGED_MODULE_PREFIXES.any fun p =>
    module == p || (p ++ ".").toList.isPrefixOf module.toList

/-- `text.rsplit(".", maxsplit)`. -/
def rsplit (text : String) (maxsplit : ℕ) : List String :=
  let parts := text.toList.splitOn '.'
  let head := parts.length - maxsplit
  if head ≤ 1 then parts.map String.ofList
  else String.ofList (['.'].intercalate (parts.take head)) :: (parts.drop head).map String.ofList

def resolve_relative (module : Option String) (level : ℕ) (anchor_package : String) :
    Option String :=
  if anchor_package = "" then none
  else
    let bits := rsplit anchor_package (level - 1)
    if bits.length < level then none
    else
      let base := bits.head?.getD ""
      match module with
      | none => some base
      | some module => if module = "" then some base else some (base ++ "." ++ module)

def anchor_package (package_name : String) (module_name : Option String) (filename : String) :
    String :=
  match module_name with
  | none => package_name
  | some module_name =>
    if (PosixPath.parse filename).name = "__init__.py" then module_name
    else if '.' ∈ module_name.toList then (rsplit module_name 1).head?.getD ""
    else ""

def found_at (lineno : ℕ) : Option String → List (String × ℕ)
  | none => []
  | some module => if module = "" then [] else [(module, lineno)]

/-- The modules that one node imports. -/
def imported_by (anchor : String) : Node → List (String × ℕ)
  | .import_ names lineno => names.map fun a => (a.name, lineno)
  | .import_from module _ _ level lineno =>
    found_at lineno (if level = 0 then module else resolve_relative module level anchor)
  | .other _ => []

def imported_modules (tree : Node) (anchor : String) : List (String × ℕ) :=
  (walk tree).flatMap (imported_by anchor)

def scan_source_for_violations (package_name : String) (tree : Node) (filename : String)
    (module_name : Option String) : List ImportViolation :=
  ((imported_modules tree (anchor_package package_name module_name filename)).filter
    fun found => is_privileged found.1).map fun found => ⟨package_name, found.1, filename, found.2⟩

/-! ## What a source makes available -/

/-- A dotted name by its components. -/
abbrev Dotted := List (List Char)

def components (name : String) : Dotted := name.toList.splitOn '.'

/-- In one of the two packages, or one of them. -/
def Privileged (d : Dotted) : Prop :=
  ∃ p ∈ PRIVILEGED_MODULE_PREFIXES, components p <+: d

/-- The package of a module: itself for the `__init__` of a package, else its parent. A source
without a module name is the `__init__` of the scanned package. -/
def package_of (package_name : String) (module_name : Option String) (filename : String) :
    Dotted :=
  match module_name with
  | none => components package_name
  | some module_name =>
    if (PosixPath.parse filename).name = "__init__.py" then components module_name
    else (components module_name).dropLast

/-- The module that a `from` import reads from: one dot is the package itself, and every
further dot its parent. -/
def origin (package : Dotted) (module : Option String) : ℕ → Option Dotted
  | 0 => (module.filter fun m => m ≠ "").map components
  | level + 1 =>
    if package = [[]] ∨ package.length ≤ level then none
    else some (package.take (package.length - level) ++
      ((module.filter fun m => m ≠ "").map components).getD [])

/-- What a statement of a module in `package` makes available under a name. `star` is what a
star import of a module binds, which stands for the module as well. -/
inductive MakesAvailable (package : Dotted) (star : Dotted → List (List Char)) :
    Node → Dotted → Prop where
  | module {names lineno a} (ha : a ∈ names) :
      MakesAvailable package star (.import_ names lineno) (components a.name)
  | parent {names lineno a d} (ha : a ∈ names) (hname : a.asname = none) (hne : d ≠ [])
      (hd : d <+: components a.name) : MakesAvailable package star (.import_ names lineno) d
  | member {module first rest level lineno a base} (ha : a ∈ first :: rest)
      (hbase : origin package module level = some base) (hstar : a.name ≠ "*") :
      MakesAvailable package star (.import_from module first rest level lineno)
        (base ++ components a.name)
  | whole {module first rest level lineno a base} (ha : a ∈ first :: rest)
      (hbase : origin package module level = some base) (hstar : a.name = "*") :
      MakesAvailable package star (.import_from module first rest level lineno) base
  | starred {module first rest level lineno a base n} (ha : a ∈ first :: rest)
      (hbase : origin package module level = some base) (hstar : a.name = "*")
      (hn : n ∈ star base) :
      MakesAvailable package star (.import_from module first rest level lineno) (base ++ [n])

/-- A node of the tree, however deep. -/
inductive Within : Node → Node → Prop where
  | here (n : Node) : Within n n
  | child {t c n : Node} (hc : c ∈ t.children) (h : Within c n) : Within t n

/-- Some statement of the tree makes something privileged available. -/
def Exposes (package : Dotted) (star : Dotted → List (List Char)) (tree : Node) : Prop :=
  ∃ n d, Within tree n ∧ MakesAvailable package star n d ∧ Privileged d

/-! ## Dotted names -/

section Names

variable {name text : String} {a b d : Dotted}

theorem ofList_intercalate_components (text : String) :
    String.ofList (['.'].intercalate (components text)) = text := by
  rw [components, List.intercalate_splitOn, String.ofList_toList]

theorem components_injective {a b : String} (h : components a = components b) : a = b := by
  rw [← ofList_intercalate_components a, h, ofList_intercalate_components]

theorem components_join (a b : String) :
    components (a ++ "." ++ b) = components a ++ components b := by
  have hlist : (a ++ "." ++ b).toList = a.toList ++ '.' :: b.toList := by
    simp [String.toList_append]
  rw [components, hlist, List.splitOn_append_cons_self]
  rfl

theorem components_ne_nil (text : String) : components text ≠ [] := List.splitOn_ne_nil _ _

theorem not_mem_splitOn {x : Char} {cs part : List Char} (h : part ∈ cs.splitOn x) : x ∉ part := by
  induction cs generalizing part with
  | nil =>
    rw [List.splitOn_nil, List.mem_singleton] at h
    rw [h]
    exact List.not_mem_nil
  | cons c cs ih =>
    rw [List.splitOn_cons_eq_if_modifyHead] at h
    split at h
    · rcases List.mem_cons.mp h with rfl | h
      · exact List.not_mem_nil
      · exact ih h
    · next hne =>
      cases hsplit : cs.splitOn x with
      | nil => exact absurd hsplit (List.splitOn_ne_nil _ _)
      | cons first rest =>
        rw [hsplit, List.modifyHead_cons] at h
        rcases List.mem_cons.mp h with rfl | h
        · intro hx
          rcases List.mem_cons.mp hx with rfl | hx
          · exact hne (beq_self_eq_true _)
          · exact ih (hsplit ▸ List.mem_cons_self) hx
        · exact ih (hsplit ▸ List.mem_cons_of_mem _ h)

theorem no_dot_of_mem {part : List Char} (h : part ∈ components text) : '.' ∉ part :=
  not_mem_splitOn h

/-- The name of some components, whose dots are those between them. -/
theorem components_ofList (hne : d ≠ []) (h : ∀ part ∈ d, '.' ∉ part) :
    components (String.ofList (['.'].intercalate d)) = d := by
  rw [components, String.toList_ofList, List.splitOn_intercalate '.' h hne]

theorem components_empty : components "" = [[]] := rfl

theorem eq_empty_of_components (h : components name = [[]]) : name = "" :=
  components_injective (h.trans components_empty.symm)

/-- A name is below another one exactly where its components start with those of the other. -/
theorem below_iff {p : String} : name = p ∨ (p ++ ".").toList <+: name.toList ↔
    components p <+: components name := by
  constructor
  · rintro (rfl | ⟨rest, hrest⟩)
    · exact List.prefix_rfl
    · have hname : name = p ++ "." ++ String.ofList rest := by
        apply String.toList_inj.mp
        rw [String.toList_append, String.toList_ofList, hrest]
      rw [hname, components_join]
      exact List.prefix_append _ _
  · rintro ⟨rest, hrest⟩
    cases rest with
    | nil =>
      rw [List.append_nil] at hrest
      exact Or.inl (components_injective hrest).symm
    | cons part parts =>
      have hname : p ++ "." ++ String.ofList (['.'].intercalate (part :: parts)) = name := by
        apply components_injective
        rw [components_join, ← hrest, components_ofList (List.cons_ne_nil _ _)]
        intro x hx
        exact no_dot_of_mem (hrest ▸ List.mem_append_right _ hx)
      refine Or.inr ⟨(String.ofList (['.'].intercalate (part :: parts))).toList, ?_⟩
      rw [← String.toList_append, hname]

theorem is_privileged_iff : is_privileged name = true ↔ Privileged (components name) := by
  simp only [is_privileged, List.any_eq_true, Bool.or_eq_true, beq_iff_eq, List.isPrefixOf_iff_prefix,
    below_iff, Privileged]

theorem Privileged.mono (h : Privileged a) (hab : a <+: b) : Privileged b := by
  obtain ⟨p, hp, hprefix⟩ := h
  exact ⟨p, hp, hprefix.trans hab⟩

/-! ## Relative imports -/

/-- The last dots of a text are those that `rsplit` splits at. -/
theorem length_rsplit {k : ℕ} : (rsplit text k).length = min (k + 1) (components text).length := by
  have hpos : 0 < (components text).length := List.length_pos_of_ne_nil (components_ne_nil text)
  rw [components] at hpos ⊢
  simp only [rsplit]
  split
  · rw [List.length_map]
    omega
  · rw [List.length_cons, List.length_map, List.length_drop]
    omega

theorem head_rsplit {k : ℕ} (hk : k < (components text).length) :
    ∃ base, (rsplit text k).head? = some base ∧
      components base = (components text).take ((components text).length - k) := by
  simp only [rsplit]
  split
  · next hle =>
    rw [← components] at hle ⊢
    cases hparts : components text with
    | nil => exact absurd hparts (components_ne_nil text)
    | cons part parts =>
      rw [hparts] at hle hk
      refine ⟨String.ofList part, rfl, ?_⟩
      have htake : (part :: parts).length - k = 1 := by omega
      have hpart : '.' ∉ part := no_dot_of_mem (hparts ▸ List.mem_cons_self)
      rw [htake, components, String.toList_ofList, List.splitOn_eq_singleton hpart]
      rfl
  · refine ⟨_, rfl, components_ofList ?_ ?_⟩
    · exact List.ne_nil_of_length_pos (by rw [List.length_take, ← components]; omega)
    · exact fun part hpart => no_dot_of_mem (List.mem_of_mem_take hpart)

theorem resolve_relative_origin {module : Option String} {level : ℕ} :
    (resolve_relative module (level + 1) text).map components =
      origin (components text) module (level + 1) := by
  rw [resolve_relative, origin]
  by_cases hempty : text = ""
  · rw [if_pos hempty, if_pos (Or.inl (by rw [hempty, components_empty]))]
    rfl
  rw [if_neg hempty, Nat.add_sub_cancel]
  by_cases hbeyond : (components text).length ≤ level
  · rw [if_pos (Or.inr hbeyond), if_pos (by rw [length_rsplit]; omega)]
    rfl
  · have hne : components text ≠ [[]] := fun h => hempty (eq_empty_of_components h)
    obtain ⟨base, hbase, hcomponents⟩ := head_rsplit (Nat.lt_of_not_le hbeyond)
    rw [if_neg (not_or.mpr ⟨hne, hbeyond⟩), if_neg (by rw [length_rsplit]; omega), hbase,
      ← hcomponents]
    cases module with
    | none => simp
    | some module =>
      by_cases hmodule : module = ""
      · simp [hmodule, Option.filter]
      · simp [hmodule, components_join, Option.filter]

theorem length_of_dot (h : '.' ∈ text.toList) : 1 < (components text).length := by
  cases hparts : components text with
  | nil => exact absurd hparts (components_ne_nil text)
  | cons part parts =>
    cases parts with
    | nil =>
      have htext := ofList_intercalate_components text
      rw [hparts, List.intercalate_singleton] at htext
      rw [← htext, String.toList_ofList] at h
      exact absurd h (no_dot_of_mem (hparts ▸ List.mem_cons_self))
    | cons next rest => exact Nat.succ_lt_succ (Nat.succ_pos _)

/-- The anchor of the scan is the package of the module. -/
theorem origin_anchor {package_name filename : String} {module_name module : Option String}
    {level : ℕ} :
    origin (components (anchor_package package_name module_name filename)) module level =
      origin (package_of package_name module_name filename) module level := by
  cases module_name with
  | none => rfl
  | some module_name =>
    rw [anchor_package, package_of]
    by_cases hinit : (PosixPath.parse filename).name = "__init__.py"
    · rw [if_pos hinit, if_pos hinit]
    rw [if_neg hinit, if_neg hinit]
    by_cases hdot : '.' ∈ module_name.toList
    · have htwo := length_of_dot hdot
      obtain ⟨base, hbase, hcomponents⟩ := head_rsplit htwo
      rw [if_pos hdot, hbase, Option.getD_some, hcomponents, List.dropLast_eq_take]
    · have hone : components module_name = [module_name.toList] :=
        List.splitOn_eq_singleton hdot
      rw [if_neg hdot, hone, components_empty]
      cases level with
      | zero => rfl
      | succ level =>
        have hbeyond : ([] : Dotted).length ≤ level := Nat.zero_le level
        rw [origin, origin, if_pos (Or.inl rfl), List.dropLast_singleton, if_pos (Or.inr hbeyond)]

end Names

/-! ## The walk -/

section Walk

theorem countAll_append (a b : List Node) : countAll (a ++ b) = countAll a + countAll b := by
  induction a with
  | nil => simp [countAll]
  | cons node rest ih => rw [List.cons_append, countAll, countAll, ih, Nat.add_assoc]

theorem countAll_names (names : List Alias) :
    countAll (names.map fun _ => Node.other []) = names.length := by
  induction names with
  | nil => rfl
  | cons a names ih =>
    rw [List.map_cons, countAll, ih, Node.count, countAll, List.length_cons]
    omega

theorem count_eq (node : Node) : node.count = 1 + countAll node.children := by
  cases node with
  | import_ names lineno => rw [Node.count, Node.children, countAll_names]
  | import_from module first rest level lineno =>
    rw [Node.count, Node.children, countAll_names, List.length_cons]
    omega
  | other children => rw [Node.count, Node.children]

/-- The queue holds what is still to be visited; every node below it comes out. -/
theorem mem_walk_from {fuel : ℕ} {todo : List Node} {n : Node} (h : countAll todo ≤ fuel) :
    n ∈ walk_from fuel todo ↔ ∃ t ∈ todo, Within t n := by
  induction fuel generalizing todo with
  | zero =>
    cases todo with
    | nil => simp [walk_from]
    | cons t todo =>
      rw [countAll, count_eq] at h
      omega
  | succ fuel ih =>
    cases todo with
    | nil => simp [walk_from]
    | cons t todo =>
      have hfuel : countAll (todo ++ t.children) ≤ fuel := by
        rw [countAll, count_eq] at h
        rw [countAll_append]
        omega
      rw [walk_from, List.mem_cons, ih hfuel]
      constructor
      · rintro (rfl | ⟨c, hc, hwithin⟩)
        · exact ⟨n, List.mem_cons_self, .here n⟩
        · rcases List.mem_append.mp hc with hc | hc
          · exact ⟨c, List.mem_cons_of_mem t hc, hwithin⟩
          · exact ⟨t, List.mem_cons_self, .child hc hwithin⟩
      · rintro ⟨c, hc, hwithin⟩
        rcases List.mem_cons.mp hc with rfl | hc
        · cases hwithin with
          | here => exact Or.inl rfl
          | child hc hwithin => exact Or.inr ⟨_, List.mem_append_right _ hc, hwithin⟩
        · exact Or.inr ⟨c, List.mem_append_left _ hc, hwithin⟩

theorem mem_walk {tree n : Node} : n ∈ walk tree ↔ Within tree n := by
  have hcount : countAll [tree] ≤ tree.count := by rw [countAll, countAll, Nat.add_zero]
  rw [walk, mem_walk_from hcount]
  simp

end Walk

/-! ## What the scan reports -/

/-- A statement names a privileged module: it imports one, or imports from one. -/
def NamesPrivileged (package : Dotted) : Node → Prop
  | .import_ names _ => ∃ a ∈ names, Privileged (components a.name)
  | .import_from module _ _ level _ =>
    ∃ base, origin package module level = some base ∧ Privileged base
  | .other _ => False

/-- A statement takes one of the two packages as a member of a module outside them. -/
def TakesPackage (package : Dotted) (star : Dotted → List (List Char)) : Node → Prop
  | .import_from module first rest level _ =>
    ∃ base, origin package module level = some base ∧ ¬ Privileged base ∧
      ∃ a ∈ first :: rest, (a.name ≠ "*" ∧ Privileged (base ++ components a.name)) ∨
        (a.name = "*" ∧ ∃ n ∈ star base, Privileged (base ++ [n]))
  | _ => False

section Scan

variable {package_name filename anchor : String} {module_name : Option String} {tree n : Node}
  {package : Dotted} {star : Dotted → List (List Char)}

theorem not_privileged_empty : ¬ Privileged (components "") := by
  rw [← is_privileged_iff]
  decide

/-- What a `from` import adds to the scan, by the module that it resolves to. -/
theorem found_iff {resolved : Option String} {lineno : ℕ} :
    (∃ found ∈ found_at lineno resolved, Privileged (components found.1)) ↔
      ∃ base, resolved.map components = some base ∧ Privileged base := by
  cases resolved with
  | none => simp [found_at]
  | some resolved =>
    by_cases hempty : resolved = ""
    · subst hempty
      simp [found_at, not_privileged_empty]
    · simp [found_at, hempty]

/-- A node adds a privileged module to the scan exactly where it names one. -/
theorem imported_by_iff (h : ∀ module level,
      origin (components anchor) module level = origin package module level) :
    (∃ found ∈ imported_by anchor n, is_privileged found.1 = true) ↔ NamesPrivileged package n := by
  simp only [is_privileged_iff]
  cases n with
  | other children => simp [imported_by, NamesPrivileged]
  | import_ names lineno =>
    constructor
    · rintro ⟨found, hfound, hprivileged⟩
      obtain ⟨a, ha, rfl⟩ := List.mem_map.mp hfound
      exact ⟨a, ha, hprivileged⟩
    · rintro ⟨a, ha, hprivileged⟩
      exact ⟨_, List.mem_map_of_mem ha, hprivileged⟩
  | import_from module first rest level lineno =>
    rw [NamesPrivileged, ← h module level]
    refine Iff.trans found_iff ?_
    cases level with
    | succ level =>
      rw [if_neg (Nat.succ_ne_zero level), resolve_relative_origin]
    | zero =>
      rw [if_pos rfl, origin]
      cases module with
      | none => simp
      | some module =>
        by_cases hempty : module = ""
        · subst hempty
          simp [Option.filter, not_privileged_empty]
        · simp [Option.filter, hempty]

theorem scan_iff : scan_source_for_violations package_name tree filename module_name ≠ [] ↔
    ∃ n, Within tree n ∧ NamesPrivileged (package_of package_name module_name filename) n := by
  have hreported : scan_source_for_violations package_name tree filename module_name ≠ [] ↔
      ∃ n ∈ walk tree, ∃ found ∈ imported_by (anchor_package package_name module_name filename) n,
        is_privileged found.1 = true := by
    rw [scan_source_for_violations, imported_modules, Ne, List.map_eq_nil_iff,
      List.filter_eq_nil_iff]
    simp only [List.mem_flatMap, not_forall, not_not]
    constructor
    · rintro ⟨found, ⟨n, hn, hfound⟩, hprivileged⟩
      exact ⟨n, hn, found, hfound, hprivileged⟩
    · rintro ⟨n, hn, found, hfound, hprivileged⟩
      exact ⟨found, ⟨n, hn, hfound⟩, hprivileged⟩
  rw [hreported]
  simp only [imported_by_iff fun _ _ => origin_anchor, mem_walk]

/-- A statement makes something privileged available where it names a privileged module, or
takes one of the two packages from outside. -/
theorem exposes_iff : Exposes package star tree ↔
    ∃ n, Within tree n ∧ (NamesPrivileged package n ∨ TakesPackage package star n) := by
  constructor
  · rintro ⟨n, d, hn, havailable, hprivileged⟩
    refine ⟨n, hn, ?_⟩
    cases havailable with
    | module ha => exact Or.inl ⟨_, ha, hprivileged⟩
    | parent ha _ _ hd => exact Or.inl ⟨_, ha, hprivileged.mono hd⟩
    | whole ha hbase hstar => exact Or.inl ⟨_, hbase, hprivileged⟩
    | @member module first rest level lineno a base ha hbase hstar =>
      by_cases hinside : Privileged base
      · exact Or.inl ⟨base, hbase, hinside⟩
      · exact Or.inr ⟨base, hbase, hinside, a, ha, Or.inl ⟨hstar, hprivileged⟩⟩
    | @starred module first rest level lineno a base name ha hbase hstar hname =>
      by_cases hinside : Privileged base
      · exact Or.inl ⟨base, hbase, hinside⟩
      · exact Or.inr ⟨base, hbase, hinside, a, ha, Or.inr ⟨hstar, name, hname, hprivileged⟩⟩
  · rintro ⟨n, hn, hnamed | htaken⟩
    · cases n with
      | other children => exact hnamed.elim
      | import_ names lineno =>
        obtain ⟨a, ha, hprivileged⟩ := hnamed
        exact ⟨_, _, hn, .module ha, hprivileged⟩
      | import_from module first rest level lineno =>
        obtain ⟨base, hbase, hprivileged⟩ := hnamed
        by_cases hstar : first.name = "*"
        · exact ⟨_, _, hn, .whole List.mem_cons_self hbase hstar, hprivileged⟩
        · exact ⟨_, _, hn, .member List.mem_cons_self hbase hstar,
            hprivileged.mono (List.prefix_append _ _)⟩
    · cases n with
      | other children => exact htaken.elim
      | import_ names lineno => exact htaken.elim
      | import_from module first rest level lineno =>
        obtain ⟨base, hbase, -, a, ha, ⟨hstar, hprivileged⟩ | ⟨hstar, name, hname, hprivileged⟩⟩ :=
          htaken
        · exact ⟨_, _, hn, .member ha hbase hstar, hprivileged⟩
        · exact ⟨_, _, hn, .starred ha hbase hstar hname, hprivileged⟩

/-- The scan reports a violation for a source that makes something privileged available, and
only for such a source, exactly where no statement takes one of the two packages from outside
or some statement names a privileged module. -/
theorem scan_complete_iff (package_name filename : String) (module_name : Option String)
    (star : Dotted → List (List Char)) (tree : Node) :
    ((Exposes (package_of package_name module_name filename) star tree →
        scan_source_for_violations package_name tree filename module_name ≠ []) ∧
      (¬ Exposes (package_of package_name module_name filename) star tree →
        scan_source_for_violations package_name tree filename module_name = [])) ↔
    (∀ n, Within tree n → ¬ TakesPackage (package_of package_name module_name filename) star n) ∨
      ∃ n, Within tree n ∧ NamesPrivileged (package_of package_name module_name filename) n := by
  rw [scan_iff, exposes_iff]
  constructor
  · rintro ⟨hcomplete, -⟩
    by_cases htaken : ∃ n, Within tree n ∧
        TakesPackage (package_of package_name module_name filename) star n
    · obtain ⟨n, hn, htaken⟩ := htaken
      exact Or.inr (hcomplete ⟨n, hn, Or.inr htaken⟩)
    · exact Or.inl fun n hn h => htaken ⟨n, hn, h⟩
  · intro hcondition
    constructor
    · rintro ⟨n, hn, hnamed | htaken⟩
      · exact ⟨n, hn, hnamed⟩
      · rcases hcondition with hnone | hsome
        · exact absurd htaken (hnone n hn)
        · exact hsome
    · intro hnone
      by_contra hreported
      obtain ⟨n, hn, hnamed⟩ := scan_iff.mp hreported
      exact hnone ⟨n, hn, Or.inl hnamed⟩

end Scan

/-! ## The packages taken from their parent -/

/-- `from odooctl import adapters`, in a function. -/
def adaptersImport : Node :=
  .other [.other [.import_from (some "odooctl") ⟨"adapters", none⟩ [] 0 2]]

/-- `from .. import odoo as engine`. -/
def odooImport : Node := .other [.import_from none ⟨"odoo", some "engine"⟩ [] 2 1]

def appPackage : Dotted := package_of "odooctl.api" (some "odooctl.api.app") "app.py"

theorem parent_imports_unreported :
    (Exposes appPackage (fun _ => []) adaptersImport ∧
      scan_source_for_violations "odooctl.api" adaptersImport "app.py" (some "odooctl.api.app") =
        []) ∧
    Exposes appPackage (fun _ => []) odooImport ∧
      scan_source_for_violations "odooctl.api" odooImport "app.py" (some "odooctl.api.app") = [] := by
  have hadapters : Within adaptersImport (.import_from (some "odooctl") ⟨"adapters", none⟩ [] 0 2) :=
    .child List.mem_cons_self (.child List.mem_cons_self (.here _))
  have hodoo : Within odooImport (.import_from none ⟨"odoo", some "engine"⟩ [] 2 1) :=
    .child List.mem_cons_self (.here _)
  refine ⟨⟨⟨_, _, hadapters, .member List.mem_cons_self rfl (by decide), ?_⟩, by decide +kernel⟩,
    ⟨_, _, hodoo, .member List.mem_cons_self rfl (by decide), ?_⟩, by decide +kernel⟩
  · exact ⟨"odooctl.adapters", by decide, by decide +kernel⟩
  · exact ⟨"odooctl.odoo", by decide, by decide +kernel⟩

end ImportContract
