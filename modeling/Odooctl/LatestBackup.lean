import Odooctl.BackupManifests
import Odooctl.BackupSelection

/-!
# The latest backup of a project

`resolve_backup_dir` of `services/restore.py` where a project is expected: the directories of the
environment are tried in the reversed order of their names, which the code builds from the
environment, the second of the creation and a random token.
-/
namespace LatestBackup

open BackupManifests BackupSelection CheckedLists PythonJson PythonText
open PitrRestoreRecord (Timestamp)
open PitrRetention (HOUR)

/-- A backups root that projects may share. -/
structure SharedRoot extends BackupsRoot where
  /-- whether `manifest.json` of a directory is a symbolic link -/
  linked : String → Bool
  /-- whether a fault of reading it is an `OSError` or a `JSONDecodeError` -/
  caught : String → Bool

section Resolve

variable (b : SharedRoot)

def SharedRoot.dir (name : String) : Option BackupDir := b.dirs (b.root ++ [name])

/-- One round of the loop: whether the manifest of the directory claims the project. -/
def claims_project (expected_project name : String) : Except String Bool :=
  match b.dir name with
  | none => .ok false
  | some d =>
    if "manifest.json" ∉ d.files ∨ b.linked name then .ok false
    else
      match d.manifest with
      | .error e => if b.caught e then .ok false else .error e
      | .ok value => do
        let manifest ← asMapping value
        return holds manifest "project" expected_project

def select_latest (expected_project : String) : List String → Except String (Option String)
  | [] => .ok none
  | candidate :: rest => do
    if ← claims_project b expected_project candidate then return some candidate
    else select_latest expected_project rest

def resolve_backup_dir (environment backup : String) (expected_project : Option String) :
    Except String (List String) :=
  match expected_project with
  | some project =>
    if backup = "latest" then do
      match ← select_latest b project (candidates b.toBackupsRoot environment).reverse with
      | some name => return b.root ++ [name]
      | none =>
        .error (s!"No backups found for project {quoted project} " ++
          s!"and environment {quoted environment}")
    else BackupSelection.resolve_backup_dir b.toBackupsRoot environment backup
  | none => BackupSelection.resolve_backup_dir b.toBackupsRoot environment backup

end Resolve

/-! ## Published backups -/

/-- The name that `_reserve_backup_staging` gives. -/
def backupId (environment : String) (created_at : Timestamp) (token : String) : String :=
  environment ++ "_" ++ stamp created_at ++ "_" ++ token

/-- How the directories of the root have come to be. -/
structure Published (b : SharedRoot) where
  environment : String → String
  created : String → Timestamp
  token : String → String
  name : ∀ name ∈ b.entries, name = backupId (environment name) (created name) (token name)
  manifest : ∀ name ∈ b.entries, ∀ d items e, b.dir name = some d →
    d.manifest = .ok (.dict items) → holds items "environment" e = true → e = environment name

/-- All files are there, and the manifest says so. -/
def Complete (d : BackupDir) (items : Items) : Prop :=
  (∀ name ∈ REQUIRED_BACKUP_FILES, name ∈ d.files) ∧ differs items "status" "complete" = false

section Statement

variable (b : SharedRoot) (environment project : String)

/-- A complete backup whose manifest names the environment and the project. -/
structure Matching (name : String) : Prop where
  entry : name ∈ b.entries
  complete : ∃ d items, b.dir name = some d ∧ d.manifest = .ok (.dict items) ∧ Complete d items ∧
    holds items "environment" environment = true
  claims : claims_project b project name = .ok true

variable {b}

def Newest (h : Published b) (name : String) : Prop :=
  Matching b environment project name ∧
    ∀ other, Matching b environment project other → h.created other ≤ h.created name

def IsLatest (h : Published b) : Except String (List String) → Prop
  | .ok dir => ∃ name, dir = b.root ++ [name] ∧ Newest environment project h name
  | .error _ => ¬ ∃ name, Matching b environment project name

/-- A newest backup comes last by name among the directories that claim the project; without
one, no directory is reached that claims it. -/
def InOrder (h : Published b) : Prop :=
  ((∃ name, Matching b environment project name) →
    ∃ name, Newest environment project h name ∧
      ∀ c ∈ candidates b.toBackupsRoot environment, name < c →
        claims_project b project c = .ok false) ∧
  ((¬ ∃ name, Matching b environment project name) →
    ∀ c ∈ candidates b.toBackupsRoot environment, claims_project b project c = .ok true →
      ∃ c' ∈ candidates b.toBackupsRoot environment, c < c' ∧
        ∃ e, claims_project b project c' = .error e)

end Statement

/-! ## The selection -/

section Selection

variable {b : SharedRoot} {environment project : String} {l : List String} {name : String}

theorem select_latest_cons (c : String) (l : List String) :
    select_latest b project (c :: l) =
      match claims_project b project c with
      | .error e => .error e
      | .ok true => .ok (some c)
      | .ok false => select_latest b project l := by
  rw [select_latest]
  cases claims_project b project c with
  | error e => rfl
  | ok claims => cases claims <;> rfl

theorem select_latest_eq_some (hl : l.Pairwise fun c d => d ≤ c) :
    select_latest b project l = .ok (some name) ↔
      name ∈ l ∧ claims_project b project name = .ok true ∧
        ∀ c ∈ l, name < c → claims_project b project c = .ok false := by
  induction l with
  | nil =>
    constructor
    · intro h
      cases h
    · rintro ⟨h, -⟩
      cases h
  | cons c l ih =>
    obtain ⟨hfirst, hrest⟩ := List.pairwise_cons.mp hl
    -- unless it is the first one, a selected name has a first one before it that does not claim
    have hsplit : name ∈ c :: l →
        (∀ d ∈ c :: l, name < d → claims_project b project d = .ok false) →
        name = c ∨ claims_project b project c = .ok false := by
      intro hmem hlater
      rcases List.mem_cons.mp hmem with rfl | hmem
      · exact Or.inl rfl
      · rcases lt_or_eq_of_le (hfirst name hmem) with hlt | rfl
        · exact Or.inr (hlater c List.mem_cons_self hlt)
        · exact Or.inl rfl
    rw [select_latest_cons]
    cases hclaims : claims_project b project c with
    | error e =>
      constructor
      · intro h
        cases h
      · rintro ⟨hmem, htrue, hlater⟩
        rcases hsplit hmem hlater with rfl | hfalse
        · rw [hclaims] at htrue
          cases htrue
        · rw [hclaims] at hfalse
          cases hfalse
    | ok claims =>
      cases claims with
      | true =>
        constructor
        · intro h
          obtain rfl := Option.some.inj (Except.ok.inj h)
          refine ⟨List.mem_cons_self, hclaims, fun d hd hlt => ?_⟩
          rcases List.mem_cons.mp hd with rfl | hd
          · exact absurd hlt (lt_irrefl _)
          · exact absurd hlt (not_lt_of_ge (hfirst d hd))
        · rintro ⟨hmem, -, hlater⟩
          rcases hsplit hmem hlater with rfl | hfalse
          · rfl
          · rw [hclaims] at hfalse
            cases hfalse
      | false =>
        refine (ih hrest).trans ⟨?_, ?_⟩
        · rintro ⟨hmem, htrue, hlater⟩
          refine ⟨List.mem_cons_of_mem _ hmem, htrue, fun d hd hlt => ?_⟩
          rcases List.mem_cons.mp hd with rfl | hd
          · exact hclaims
          · exact hlater d hd hlt
        · rintro ⟨hmem, htrue, hlater⟩
          refine ⟨?_, htrue, fun d hd => hlater d (List.mem_cons_of_mem _ hd)⟩
          rcases List.mem_cons.mp hmem with rfl | hmem
          · rw [hclaims] at htrue
            cases htrue
          · exact hmem

/-- Whether a directory that claims the project is reached. -/
theorem select_latest_ne_some (hl : l.Pairwise fun c d => d ≤ c) :
    (∀ name, select_latest b project l ≠ .ok (some name)) ↔
      ∀ c ∈ l, claims_project b project c = .ok true →
        ∃ c' ∈ l, c < c' ∧ ∃ e, claims_project b project c' = .error e := by
  induction l with
  | nil =>
    constructor
    · exact fun _ c hc => absurd hc List.not_mem_nil
    · intro _ name h
      cases h
  | cons c l ih =>
    obtain ⟨hfirst, hrest⟩ := List.pairwise_cons.mp hl
    simp only [select_latest_cons]
    cases hclaims : claims_project b project c with
    | error e =>
      constructor
      · intro _ d hd htrue
        rcases List.mem_cons.mp hd with rfl | hd
        · rw [hclaims] at htrue
          cases htrue
        · refine ⟨c, List.mem_cons_self, lt_of_le_of_ne (hfirst d hd) ?_, e, hclaims⟩
          rintro rfl
          rw [hclaims] at htrue
          cases htrue
      · intro _ name h
        cases h
    | ok claims =>
      cases claims with
      | true =>
        constructor
        · exact fun h => absurd rfl (h c)
        · intro h
          obtain ⟨d, hd, hlt, -⟩ := h c List.mem_cons_self hclaims
          rcases List.mem_cons.mp hd with rfl | hd
          · exact absurd hlt (lt_irrefl _)
          · exact absurd hlt (not_lt_of_ge (hfirst d hd))
      | false =>
        refine (ih hrest).trans ⟨?_, ?_⟩
        · intro h d hd htrue
          rcases List.mem_cons.mp hd with rfl | hd
          · rw [hclaims] at htrue
            cases htrue
          · obtain ⟨d', hd', hlt, e, he⟩ := h d hd htrue
            exact ⟨d', List.mem_cons_of_mem _ hd', hlt, e, he⟩
        · intro h d hd htrue
          obtain ⟨d', hd', hlt, e, he⟩ := h d (List.mem_cons_of_mem _ hd) htrue
          rcases List.mem_cons.mp hd' with rfl | hd'
          · rw [hclaims] at he
            cases he
          · exact ⟨d', hd', hlt, e, he⟩

/-! ## The latest backup -/

theorem Matching.candidate (h : Published b) (hname : Matching b environment project name) :
    name ∈ candidates b.toBackupsRoot environment := by
  obtain ⟨d, items, hdir, hmanifest, -, henv⟩ := hname.complete
  have hown := h.manifest name hname.entry d items environment hdir hmanifest henv
  refine List.mem_mergeSort.mpr (List.mem_filter.mpr ⟨hname.entry, ?_⟩)
  rw [h.name name hname.entry, ← hown, List.isPrefixOf_iff_prefix, backupId]
  simp only [String.toList_append, List.append_assoc]
  exact ⟨_, by rw [List.append_assoc]⟩

theorem pairwise_candidates :
    (candidates b.toBackupsRoot environment).reverse.Pairwise fun c d => d ≤ c := by
  rw [List.pairwise_reverse]
  refine (List.pairwise_mergeSort ?_ ?_ _).imp of_decide_eq_true
  · intro x y z hxy hyz
    exact decide_eq_true (le_trans (of_decide_eq_true hxy) (of_decide_eq_true hyz))
  · intro x y
    simpa using le_total x y

theorem resolve_backup_dir_latest :
    resolve_backup_dir b environment "latest" (some project) =
      match select_latest b project (candidates b.toBackupsRoot environment).reverse with
      | .ok (some name) => .ok (b.root ++ [name])
      | .ok none => .error (s!"No backups found for project {quoted project} " ++
          s!"and environment {quoted environment}")
      | .error e => .error e := by
  rw [resolve_backup_dir]
  cases select_latest b project (candidates b.toBackupsRoot environment).reverse with
  | error e => rfl
  | ok found => cases found <;> rfl

/-- A newest backup that only directories of other projects follow is selected. -/
theorem Newest.selected {h : Published b} (hname : Newest environment project h name)
    (hlater : ∀ c ∈ candidates b.toBackupsRoot environment, name < c →
      claims_project b project c = .ok false) :
    select_latest b project (candidates b.toBackupsRoot environment).reverse =
      .ok (some name) := by
  refine (select_latest_eq_some pairwise_candidates).mpr ⟨?_, hname.1.claims, fun c hc => ?_⟩
  · exact List.mem_reverse.mpr (hname.1.candidate h)
  · exact hlater c (List.mem_reverse.mp hc)

theorem inOrder_of_none {h : Published b}
    (hnone : ∀ name, select_latest b project (candidates b.toBackupsRoot environment).reverse ≠
      .ok (some name)) :
    (¬ ∃ name, Matching b environment project name) ↔ InOrder environment project h := by
  have hunreached := (select_latest_ne_some pairwise_candidates).mp hnone
  simp only [List.mem_reverse] at hunreached
  constructor
  · exact fun hempty => ⟨fun hexists => absurd hexists hempty, fun _ => hunreached⟩
  · intro horder hexists
    obtain ⟨name, hname, hlater⟩ := horder.1 hexists
    exact hnone name (hname.selected hlater)

theorem inOrder_of_some {h : Published b}
    (hselect : select_latest b project (candidates b.toBackupsRoot environment).reverse =
      .ok (some name)) :
    Newest environment project h name ↔ InOrder environment project h := by
  obtain ⟨hmem, htrue, hlater⟩ := (select_latest_eq_some pairwise_candidates).mp hselect
  simp only [List.mem_reverse] at hmem hlater
  constructor
  · exact fun hname => ⟨fun _ => ⟨name, hname, hlater⟩, fun hempty => absurd ⟨name, hname.1⟩ hempty⟩
  · intro horder
    by_cases hexists : ∃ name, Matching b environment project name
    · obtain ⟨other, hother, hothers⟩ := horder.1 hexists
      have hsame := (hother.selected hothers).symm.trans hselect
      exact Option.some.inj (Except.ok.inj hsame) ▸ hother
    · obtain ⟨c, hc, hlt, e, he⟩ := horder.2 hexists name hmem htrue
      rw [hlater c hc hlt] at he
      cases he

/-- `latest` is the latest exactly where the names are in the order of the creations. -/
theorem resolve_latest_iff (h : Published b) (environment project : String) :
    IsLatest environment project h (resolve_backup_dir b environment "latest" (some project)) ↔
      InOrder environment project h := by
  rw [resolve_backup_dir_latest]
  cases hselect : select_latest b project (candidates b.toBackupsRoot environment).reverse with
  | error e => exact inOrder_of_none fun name hname => by rw [hselect] at hname; cases hname
  | ok found =>
    cases found with
    | none => exact inOrder_of_none fun name hname => by rw [hselect] at hname; cases hname
    | some name =>
      refine Iff.trans ⟨?_, fun hname => ⟨name, rfl, hname⟩⟩ (inOrder_of_some hselect)
      rintro ⟨other, hdir, hother⟩
      have hlast := List.append_cancel_left hdir
      exact (List.cons.inj hlast).1 ▸ hother

end Selection

/-! ## Two environments of one project -/

structure Backup where
  environment : String
  project : String
  created : Timestamp
  token : String

def Backup.id (x : Backup) : String := backupId x.environment x.created x.token

def Backup.items (x : Backup) : Items :=
  [("project", .str x.project), ("environment", .str x.environment), ("backup_id", .str x.id),
    ("status", .str "complete")]

def Backup.directory (x : Backup) : BackupDir :=
  ⟨REQUIRED_BACKUP_FILES, .ok (.dict x.items), fun _ => .error "not read"⟩

/-- A root with these backups, all of them complete. -/
def shared (backups : List Backup) : SharedRoot where
  root := ["srv", "backups"]
  entries := backups.map Backup.id
  resolve := fun name => .ok ["srv", "backups", name]
  dirs := fun path => path.getLast?.bind fun name =>
    (backups.find? fun x => x.id = name).map Backup.directory
  linked := fun _ => false
  caught := fun _ => true

variable {backups : List Backup} {name : String}

theorem dir_shared : (shared backups).dir name =
    (backups.find? fun x => x.id = name).map Backup.directory := rfl

theorem find_of_entry (h : name ∈ (shared backups).entries) :
    ∃ x ∈ backups, x.id = name ∧ backups.find? (fun x => x.id = name) = some x := by
  obtain ⟨y, hy, rfl⟩ := List.mem_map.mp h
  have hsome : (backups.find? fun x => x.id = y.id).isSome := by
    rw [List.find?_isSome]
    exact ⟨y, hy, decide_eq_true rfl⟩
  obtain ⟨x, hx⟩ := Option.isSome_iff_exists.mp hsome
  have hid := List.find?_some hx
  exact ⟨x, List.mem_of_find?_eq_some hx, of_decide_eq_true hid, hx⟩

def publishedShared (backups : List Backup) : Published (shared backups) where
  environment name := ((backups.find? fun x => x.id = name).map Backup.environment).getD ""
  created name := ((backups.find? fun x => x.id = name).map Backup.created).getD 0
  token name := ((backups.find? fun x => x.id = name).map Backup.token).getD ""
  name := by
    intro name hname
    obtain ⟨x, -, hid, hfind⟩ := find_of_entry hname
    rw [hfind]
    exact hid.symm
  manifest := by
    intro name hname d items e hdir hmanifest henv
    obtain ⟨x, -, -, hfind⟩ := find_of_entry hname
    rw [dir_shared, hfind] at hdir
    obtain rfl := Option.some.inj hdir
    obtain rfl : x.items = items := Json.dict.inj (Except.ok.inj hmanifest)
    rw [hfind]
    exact (Json.str.inj (Option.some.inj (holds_iff.mp henv))).symm

/-- Noon of a day of March 2026. -/
def noon (day : ℕ) : Timestamp := (739674 + day) * DAY + 12 * HOUR

def older : Backup := ⟨"production", "acme", noon 1, "0f3a5c7e9b1d2f4a6c8e0b1d"⟩

def newer : Backup := ⟨"production", "acme", noon 2, "00a1b2c3d4e5f60718293a4b"⟩

def foreign : Backup := ⟨"production_eu", "acme", noon 1, "5d6e7f8091a2b3c4d5e6f708"⟩

example : newer.id = "production_2026-03-02_120000_00a1b2c3d4e5f60718293a4b" := by decide +kernel

theorem candidates_of_sorted {b : SharedRoot} {environment : String}
    (hnames : ∀ name ∈ b.entries, (environment ++ "_").toList.isPrefixOf name.toList = true)
    (hsorted : b.entries.Pairwise (· ≤ ·)) :
    candidates b.toBackupsRoot environment = b.entries := by
  rw [candidates, List.filter_eq_self.mpr hnames]
  exact List.mergeSort_of_pairwise (hsorted.imp decide_eq_true)

theorem latest_of_two :
    IsLatest "production" "acme" (publishedShared [older, newer])
      (resolve_backup_dir (shared [older, newer]) "production" "latest" (some "acme")) := by
  have hcandidates : candidates (shared [older, newer]).toBackupsRoot "production" =
      [older.id, newer.id] := candidates_of_sorted (by decide +kernel) (by decide +kernel)
  have hdir : (shared [older, newer]).dir newer.id = some newer.directory := by
    rw [dir_shared, List.find?_cons_of_neg (by decide +kernel),
      List.find?_cons_of_pos (by decide +kernel)]
    rfl
  have hnewest : Newest "production" "acme" (publishedShared [older, newer]) newer.id := by
    refine ⟨⟨by decide +kernel, ⟨_, _, hdir, rfl, ⟨fun _ h => h, by decide +kernel⟩,
      by decide +kernel⟩, by decide +kernel⟩, fun other hother => ?_⟩
    rcases List.mem_pair.mp hother.entry with rfl | rfl
    · decide +kernel
    · exact le_refl _
  refine (resolve_latest_iff _ _ _).mpr ⟨fun _ => ⟨newer.id, hnewest, ?_⟩, fun hempty => ?_⟩
  · rw [hcandidates]
    decide +kernel
  · exact absurd ⟨newer.id, hnewest.1⟩ hempty

/-- The older backup of an environment whose name begins with that of the other. -/
theorem foreign_backup_selected :
    resolve_backup_dir (shared [newer, foreign]) "production" "latest" (some "acme") =
        .ok ["srv", "backups", foreign.id] ∧
      ¬ IsLatest "production" "acme" (publishedShared [newer, foreign])
        (resolve_backup_dir (shared [newer, foreign]) "production" "latest" (some "acme")) := by
  have hcandidates : candidates (shared [newer, foreign]).toBackupsRoot "production" =
      [newer.id, foreign.id] := candidates_of_sorted (by decide +kernel) (by decide +kernel)
  have hselected : resolve_backup_dir (shared [newer, foreign]) "production" "latest"
      (some "acme") = .ok ["srv", "backups", foreign.id] := by
    rw [resolve_backup_dir_latest, hcandidates]
    decide +kernel
  refine ⟨hselected, fun h => ?_⟩
  rw [hselected] at h
  obtain ⟨name, hdir, hname, -⟩ := h
  obtain rfl : foreign.id = name := Option.some.inj (congrArg List.getLast? hdir)
  obtain ⟨d, items, hfound, hmanifest, -, henv⟩ := hname.complete
  have hown := (publishedShared [newer, foreign]).manifest foreign.id hname.entry d items
    "production" hfound hmanifest henv
  revert hown
  decide +kernel

end LatestBackup
