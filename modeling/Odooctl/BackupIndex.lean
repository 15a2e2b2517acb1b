import Odooctl.BackupPruningSafety

/-!
# The metadata index of backups

`save_backup_manifest`, `update_backup_manifest` and `synchronize_backup_manifests` of
`metadata/store.py` on the files of `backups/`, where every operation does what it should: what
is left is what the arguments and the files decide.
-/
namespace BackupIndex

open BackupManifests BackupPruning BackupPruningSafety BackupRetention EffectPrograms ProgramRules
open FilestoreMigration (safe_backup_component)
open PitrRestoreRecord (Timestamp)
open PythonText

/-- The files of the directory, in the order in which `glob` finds them. -/
abbrev Files := List (String × Body)

def Files.erase (s : Files) (name : String) : Files := s.filter fun file => file.1 ≠ name

def Files.put (s : Files) (name : String) (manifest : BackupManifest) : Files :=
  (name, .manifest manifest) :: s.erase name

def serve : (o : PruneCall) → Files → PruneCalls.Reply o × Files
  | .index_files, s => (.ok (s.filter fun file => ".json".toList.isSuffixOf file.1.toList), s)
  | .unlink name, s => (.ok (), s.erase name)
  | .write_atomic name manifest, s => (.ok (), s.put name manifest)
  | .fsync_directory, s => (.ok (), s)
  | .iterdir, s => (.ok [], s)
  | .utc_now, s => (.ok (0 : ℕ), s)
  | .remove_tree _, s => (.ok (), s)

def fileName (backup_id : String) : String := backup_id ++ ".json"

def save_backup_manifest (backup_id : String) (manifest : BackupManifest) (s : Files) :
    Except String Files := do
  let safe_id ← safe_backup_component backup_id "backup_id"
  if manifest.backup_id ≠ safe_id then
    .error s!"Backup manifest identity mismatch: {quoted safe_id} != {quoted manifest.backup_id}"
  else
    let environment ← safe_backup_component manifest.environment "environment"
    return (s.put (fileName safe_id) manifest).put (latestName environment) manifest

/-- The pointer is rewritten where it already names the backup. -/
def update_backup_manifest (f : Formats) (now : Timestamp) (manifest : BackupManifest)
    (s : Files) : Except String Files := do
  let safe_id ← safe_backup_component manifest.backup_id "backup_id"
  let environment ← safe_backup_component manifest.environment "environment"
  let s := s.put (fileName safe_id) manifest
  let current := (s.lookup (latestName environment)).bind fun text =>
    (f.model_validate_json now text).toOption
  if current.any fun current => current.backup_id = safe_id then
    return s.put (latestName environment) manifest
  else return s

variable (f : Formats) (now : Timestamp)

/-- What a call returns or raises, and the files after it. -/
def synchronized (environment : String) (manifests : List BackupManifest)
    (latest_backup_id : Option String) (s : Files) : Except String Unit × Files :=
  (synchronize_backup_manifests f now environment manifests latest_backup_id).run serve s

/-- The directories that the store itself writes. -/
inductive WrittenByStore : Files → Prop where
  | empty : WrittenByStore []
  | save {s t : Files} (backup_id : String) (manifest : BackupManifest) : WrittenByStore s →
      save_backup_manifest backup_id manifest s = .ok t → WrittenByStore t
  | update {s t : Files} (manifest : BackupManifest) : WrittenByStore s →
      update_backup_manifest f now manifest s = .ok t → WrittenByStore t
  | synchronize {s : Files} (environment : String) (manifests : List BackupManifest)
      (latest_backup_id : Option String) : WrittenByStore s →
      WrittenByStore (synchronized f now environment manifests latest_backup_id s).2

/-! ## What a call should do -/

section Statement

variable (environment : String) (manifests : List BackupManifest)

/-- The index of the environment holds the given manifests, and that of the others is as it
was. -/
structure Synchronized (s t : Files) : Prop where
  index : ∀ m, (m.environment = environment ∧
    ∃ name, isIndexFile name = true ∧ t.lookup name = some (.manifest m)) ↔ m ∈ manifests
  others : ∀ name m, name ≠ latestName environment → m.environment ≠ environment →
    (t.lookup name = some (.manifest m) ↔ s.lookup name = some (.manifest m))
  pointer : ∀ text, t.lookup (latestName environment) = some text →
    ∃ m ∈ manifests, text = .manifest m

def AllOrNothing (s : Files) (r : Except String Unit) (t : Files) : Prop :=
  (∀ e, r = .error e → ∀ name, t.lookup name = s.lookup name) ∧
    (r = .ok () → Synchronized environment manifests s t)

/-- The arguments pass the checks that are made before the first write. -/
def Accepted : Prop :=
  (∃ safe, safe_backup_component environment "environment" = .ok safe) ∧
    ∃ desired, desired_manifests environment [] manifests = .ok desired

/-- The id for the pointer is not one of the given ones: this is checked after the writes. -/
def RejectedLate (latest_backup_id : Option String) : Prop :=
  manifests ≠ [] ∧ ∃ backup_id, latest_backup_id = some backup_id ∧
    ∀ m ∈ manifests, m.backup_id ≠ backup_id

/-- The files hold the given manifests already, and no other one of the environment. -/
structure UpToDate (s : Files) : Prop where
  stored : ∀ m ∈ manifests, s.lookup (fileName m.backup_id) = some (.manifest m)
  fresh : ∀ name m, isIndexFile name = true → s.lookup name = some (.manifest m) →
    m.environment = environment → ∃ n ∈ manifests, n.backup_id = m.backup_id

/-- The file of a given manifest is none of a pointer or of another environment. -/
def OwnFile (s : Files) (m : BackupManifest) : Prop :=
  isIndexFile (fileName m.backup_id) = true ∧
    ∀ n, s.lookup (fileName m.backup_id) = some (.manifest n) → n.environment = environment

def Safe (latest_backup_id : Option String) (s : Files) : Prop :=
  Accepted environment manifests →
    (RejectedLate manifests latest_backup_id → UpToDate environment manifests s) ∧
    (¬ RejectedLate manifests latest_backup_id → ∀ m ∈ manifests, OwnFile environment s m)

end Statement

/-! ## Files by name -/

section Names

variable {s t : Files} {name other : String}

theorem lookup_erase :
    (s.erase name).lookup other = if other = name then none else s.lookup other := by
  induction s with
  | nil => simp [Files.erase]
  | cons file s ih =>
    obtain ⟨key, text⟩ := file
    rw [Files.erase, List.filter_cons]
    by_cases hkey : key = name
    · subst hkey
      rw [if_neg (by simp), ← Files.erase, ih, List.lookup_cons]
      by_cases hother : other = key
      · rw [if_pos hother, if_pos hother]
      · rw [if_neg hother, if_neg hother, beq_false_of_ne hother]
    · rw [if_pos (by simpa using hkey), ← Files.erase, List.lookup_cons, List.lookup_cons, ih]
      by_cases hother : other = key
      · simp [hother, hkey]
      · rw [beq_false_of_ne hother]

theorem lookup_put {m : BackupManifest} :
    (s.put name m).lookup other = if other = name then some (.manifest m) else s.lookup other := by
  rw [Files.put, List.lookup_cons, lookup_erase]
  by_cases hother : other = name
  · subst hother
    simp
  · rw [beq_false_of_ne hother, if_neg hother, if_neg hother]

theorem fileName_inj {i j : String} (h : fileName i = fileName j) : i = j := by
  rw [fileName, fileName, ← String.toList_inj, String.toList_append, String.toList_append] at h
  exact String.toList_inj.mp (List.append_cancel_right h)

theorem fileName_ne_latest {i environment : String} (h : isIndexFile (fileName i) = true) :
    fileName i ≠ latestName environment := by
  intro heq
  rw [heq, latest_no_index] at h
  cases h

end Names

/-! ## The files that the store writes -/

/-- Every file is that of a backup or the pointer of an environment. -/
structure Written (s : Files) : Prop where
  names : (s.map Prod.fst).Nodup
  content : ∀ name text, s.lookup name = some text → ∃ m : BackupManifest, text = .manifest m ∧
    (name = fileName m.backup_id ∨ name = latestName m.environment)

section Written

variable {f : Formats} {now : Timestamp} {s t : Files} {environment : String}
  {manifests : List BackupManifest} {m : BackupManifest}

theorem Written.erase (h : Written s) (name : String) : Written (s.erase name) where
  names := h.names.sublist (List.filter_sublist.map _)
  content := by
    intro other text hlookup
    rw [lookup_erase] at hlookup
    split at hlookup
    · cases hlookup
    · exact h.content other text hlookup

theorem Written.put (h : Written s) {name : String}
    (hname : name = fileName m.backup_id ∨ name = latestName m.environment) :
    Written (s.put name m) where
  names := by
    refine List.nodup_cons.mpr ⟨?_, (h.erase name).names⟩
    intro hmem
    obtain ⟨file, hfile, heq⟩ := List.mem_map.mp hmem
    have hne := (List.mem_filter.mp hfile).2
    simp [heq] at hne
  content := by
    intro other text hlookup
    rw [lookup_put] at hlookup
    split at hlookup
    · next heq =>
      subst heq
      exact ⟨m, (Option.some.inj hlookup).symm, hname⟩
    · exact h.content other text hlookup

/-- Under the name of a backup there is this backup. -/
theorem Written.named (h : Written s) {name : String} (hname : isIndexFile name = true)
    (hlookup : s.lookup name = some (.manifest m)) : name = fileName m.backup_id := by
  obtain ⟨n, heq, hn⟩ := h.content name _ hlookup
  obtain rfl := Body.manifest.inj heq
  rcases hn with hn | rfl
  · exact hn
  · rw [latest_no_index] at hname
    cases hname

/-! ## The steps of a call -/

/-- An index file of the environment whose backup is not one of the given ones. -/
def Stale (f : Formats) (now : Timestamp) (environment : String)
    (desired : List (String × BackupManifest)) (files : Files) (name : String) : Prop :=
  ∃ file ∈ files, file.1 = name ∧ isIndexFile name = true ∧
    isStale f now environment desired file.2 = true

theorem stale_cons {desired : List (String × BackupManifest)} {file : String × Body} {files : Files}
    {name : String} : Stale f now environment desired (file :: files) name ↔
      (file.1 = name ∧ isIndexFile name = true ∧
        isStale f now environment desired file.2 = true) ∨
        Stale f now environment desired files name := by
  simp only [Stale, List.mem_cons, exists_eq_or_imp]

theorem run_unlink_stale (f : Formats) (now : Timestamp) (environment : String)
    (desired : List (String × BackupManifest)) (files : Files) (hs : Written s) :
    ∃ t, (unlink_stale f now environment desired files).run serve s = (.ok (), t) ∧ Written t ∧
      ∀ name, (Stale f now environment desired files name → t.lookup name = none) ∧
        (¬ Stale f now environment desired files name → t.lookup name = s.lookup name) := by
  induction files generalizing s with
  | nil =>
    refine ⟨s, rfl, hs, fun name => ⟨?_, fun _ => rfl⟩⟩
    rintro ⟨file, hfile, -⟩
    cases hfile
  | cons file files ih =>
    obtain ⟨key, text⟩ := file
    have hfirst : ∃ u, (unlink_if_stale f now environment desired key text).run serve s =
        (.ok (), u) ∧ Written u ∧ ∀ name, u.lookup name =
          if key = name ∧ isIndexFile name = true ∧ isStale f now environment desired text = true
          then none else s.lookup name := by
      rw [unlink_if_stale]
      split
      · next hstale =>
        refine ⟨s.erase key, rfl, hs.erase key, fun name => ?_⟩
        rw [lookup_erase]
        by_cases hname : name = key
        · subst hname
          rw [if_pos rfl, if_pos ⟨rfl, hstale⟩]
        · rw [if_neg hname, if_neg fun h => hname h.1.symm]
      · next hstale =>
        refine ⟨s, rfl, hs, fun name => ?_⟩
        rw [if_neg]
        rintro ⟨rfl, h⟩
        exact hstale h
    obtain ⟨u, hrun, hu, hlookup⟩ := hfirst
    obtain ⟨t, hrest, ht, hnames⟩ := ih hu
    refine ⟨t, (run_seq hrun).trans hrest, ht, fun name => ?_⟩
    rw [stale_cons]
    have hname := hnames name
    rw [hlookup name] at hname
    by_cases hrest : Stale f now environment desired files name
    · exact ⟨fun _ => hname.1 hrest, fun h => absurd (Or.inr hrest) h⟩
    · rw [hname.2 hrest]
      constructor
      · rintro (hfile | h)
        · exact if_pos hfile
        · exact absurd h hrest
      · exact fun h => if_neg fun hfile => h (Or.inl hfile)

theorem run_write_desired (desired : List (String × BackupManifest)) (hs : Written s)
    (hdesired : ∀ item ∈ desired, item.1 = item.2.backup_id) (hids : (desired.map Prod.fst).Nodup) :
    ∃ t, (write_desired desired).run serve s = (.ok (), t) ∧ Written t ∧
      (∀ item ∈ desired, t.lookup (fileName item.1) = some (.manifest item.2)) ∧
      ∀ name, (∀ item ∈ desired, name ≠ fileName item.1) → t.lookup name = s.lookup name := by
  induction desired generalizing s with
  | nil => exact ⟨s, rfl, hs, fun item hitem => (by cases hitem), fun _ _ => rfl⟩
  | cons item desired ih =>
    obtain ⟨backup_id, manifest⟩ := item
    obtain ⟨hnew, hids⟩ := List.nodup_cons.mp hids
    have hid : backup_id = manifest.backup_id := hdesired _ List.mem_cons_self
    have hput : Written (s.put (fileName backup_id) manifest) := hs.put (Or.inl (hid ▸ rfl))
    obtain ⟨t, hrun, ht, hgiven, hother⟩ :=
      ih hput (fun item hitem => hdesired item (List.mem_cons_of_mem _ hitem)) hids
    refine ⟨t, hrun, ht, ?_, ?_⟩
    · intro item hitem
      rcases List.mem_cons.mp hitem with rfl | hitem
      · rw [hother, lookup_put, if_pos rfl]
        intro item hitem heq
        exact hnew (fileName_inj heq ▸ List.mem_map_of_mem hitem)
      · exact hgiven item hitem
    · intro name hname
      rw [hother name fun item hitem => hname item (List.mem_cons_of_mem _ hitem), lookup_put,
        if_neg (hname _ List.mem_cons_self)]

/-! ## The arguments -/

theorem safe_component_eq {value label safe : String}
    (h : safe_backup_component value label = .ok safe) (other : String) :
    safe_backup_component value other = .ok value ∧ safe = value := by
  rw [safe_backup_component] at h ⊢
  split at h
  · cases h
  · next hsafe =>
    rw [if_neg hsafe]
    exact ⟨rfl, (Except.ok.inj h).symm⟩

/-- What the checks before the first write make sure of. -/
structure Given (environment : String) (manifests : List BackupManifest) : Prop where
  own : ∀ m ∈ manifests, m.environment = environment
  safe : ∀ m ∈ manifests, ∀ label, safe_backup_component m.backup_id label = .ok m.backup_id
  distinct : (manifests.map BackupManifest.backup_id).Nodup

theorem given_of_desired {before after : List (String × BackupManifest)}
    (h : desired_manifests environment before manifests = .ok after) :
    (∀ m ∈ manifests, m.environment = environment ∧
      ∀ label, safe_backup_component m.backup_id label = .ok m.backup_id) ∧
    ((before.map Prod.fst).Nodup →
      (before.map Prod.fst ++ manifests.map BackupManifest.backup_id).Nodup) := by
  induction manifests generalizing before with
  | nil => exact ⟨fun m hm => (by cases hm), fun hbefore => by simpa using hbefore⟩
  | cons m rest ih =>
    rw [desired_manifests] at h
    split at h
    · cases h
    · next henv =>
      obtain ⟨safe_id, hsafe, h⟩ := CheckedLists.bind_eq_ok.mp h
      split at h
      · cases h
      · next hnew =>
        obtain rfl := (safe_component_eq hsafe "").2
        obtain ⟨hrest, hnodup⟩ := ih h
        refine ⟨?_, fun hbefore => ?_⟩
        · intro n hn
          rcases List.mem_cons.mp hn with rfl | hn
          · exact ⟨not_not.mp henv, fun label => (safe_component_eq hsafe label).1⟩
          · exact hrest n hn
        · rw [List.map_append, List.append_assoc] at hnodup
          refine hnodup (List.nodup_append.mpr ⟨hbefore, List.nodup_singleton _, ?_⟩)
          intro i hi j hj heq
          obtain rfl := List.mem_singleton.mp hj
          rw [List.lookup_isSome_iff] at hnew
          obtain ⟨item, hitem, rfl⟩ := List.mem_map.mp hi
          exact hnew ⟨item, hitem, by simp [heq]⟩

theorem Accepted.given (h : Accepted environment manifests) : Given environment manifests := by
  obtain ⟨-, desired, hdesired⟩ := h
  obtain ⟨hall, hnodup⟩ := given_of_desired hdesired
  exact ⟨fun m hm => (hall m hm).1, fun m hm => (hall m hm).2, hnodup List.nodup_nil⟩

theorem newest_mem {desired : List (String × BackupManifest)} (h : desired ≠ []) :
    ∃ backup_id, newest_desired desired = some backup_id ∧ backup_id ∈ desired.map Prod.fst := by
  induction desired with
  | nil => exact absurd rfl h
  | cons item rest ih =>
    obtain ⟨backup_id, manifest⟩ := item
    rw [newest_desired]
    by_cases hrest : rest = []
    · subst hrest
      exact ⟨backup_id, rfl, List.mem_cons_self⟩
    · obtain ⟨other, hother, hmem⟩ := ih hrest
      simp only [hother]
      split
      · exact ⟨other, rfl, List.mem_cons_of_mem _ hmem⟩
      · exact ⟨backup_id, rfl, List.mem_cons_self⟩

/-! ## What a call does -/

/-- A file that is taken away: of the environment, and of none of the given backups. -/
def Outdated (environment : String) (manifests : List BackupManifest) (s : Files)
    (name : String) : Prop :=
  isIndexFile name = true ∧ ∃ m, s.lookup name = some (.manifest m) ∧ m.environment = environment ∧
    ∀ n ∈ manifests, n.backup_id ≠ m.backup_id

/-- The files before the pointer is settled. -/
structure Published (environment : String) (manifests : List BackupManifest) (s u : Files) :
    Prop where
  written : Written u
  given : ∀ m ∈ manifests, u.lookup (fileName m.backup_id) = some (.manifest m)
  outdated : ∀ name, Outdated environment manifests s name → u.lookup name = none
  kept : ∀ name, ¬ Outdated environment manifests s name →
    (∀ m ∈ manifests, name ≠ fileName m.backup_id) → u.lookup name = s.lookup name

theorem isStale_manifest :
    isStale f now environment (manifests.map fun m => (m.backup_id, m)) (.manifest m) = true ↔
      m.environment = environment ∧ ∀ n ∈ manifests, n.backup_id ≠ m.backup_id := by
  have hlookup := @lookup_desired manifests m.backup_id
  rw [isStale, validate_written, Bool.and_eq_true, decide_eq_true_eq]
  refine and_congr_right fun _ => ?_
  rw [← not_iff_not, Bool.not_eq_true, hlookup]
  simp only [ne_eq, not_forall, not_not, exists_prop]

theorem Written.lookup (hs : Written s) {file : String × Body} (h : file ∈ s) :
    s.lookup file.1 = some file.2 := by
  obtain ⟨l₁, l₂, rfl⟩ := List.append_of_mem h
  have hnames := hs.names
  rw [List.map_append, List.map_cons] at hnames
  refine List.lookup_eq_some_iff.mpr ⟨l₁, l₂, rfl, fun other hother => ?_⟩
  have hne := (List.nodup_append.mp hnames).2.2 other.1 (List.mem_map_of_mem hother) file.1
    List.mem_cons_self
  simpa using Ne.symm hne

theorem stale_iff (hs : Written s) {name : String} :
    Stale f now environment (manifests.map fun m => (m.backup_id, m))
      (s.filter fun file => ".json".toList.isSuffixOf file.1.toList) name ↔
        Outdated environment manifests s name := by
  constructor
  · rintro ⟨file, hfile, rfl, hname, hstale⟩
    have hlookup := hs.lookup (List.mem_filter.mp hfile).1
    obtain ⟨m, hm, -⟩ := hs.content _ _ hlookup
    rw [hm] at hstale hlookup
    obtain ⟨henv, hnew⟩ := isStale_manifest.mp hstale
    exact ⟨hname, m, hlookup, henv, hnew⟩
  · rintro ⟨hname, m, hlookup, henv, hnew⟩
    refine ⟨(name, .manifest m), List.mem_filter.mpr ⟨?_, ?_⟩, rfl, hname, ?_⟩
    · obtain ⟨l₁, l₂, rfl, -⟩ := List.lookup_eq_some_iff.mp hlookup
      simp
    · rw [isIndexFile, Bool.and_eq_true] at hname
      exact hname.1
    · exact isStale_manifest.mpr ⟨henv, hnew⟩

/-- An outdated file is not that of a given backup. -/
theorem outdated_ne (hs : Written s) {name : String} (h : Outdated environment manifests s name) :
    ∀ n ∈ manifests, name ≠ fileName n.backup_id := by
  obtain ⟨hname, m, hlookup, -, hnew⟩ := h
  intro n hn heq
  exact hnew n hn (fileName_inj (heq.symm.trans (hs.named hname hlookup)))

theorem synchronized_accepted (f : Formats) (now : Timestamp) (hs : Written s)
    (h : Accepted environment manifests) (latest_backup_id : Option String) :
    ∃ u, Published environment manifests s u ∧
      synchronized f now environment manifests latest_backup_id s =
        (settle_latest environment (manifests.map fun m => (m.backup_id, m))
          latest_backup_id).run serve u := by
  have hgiven := h.given
  obtain ⟨⟨safe, hsafe⟩, desired, hdesired⟩ := h
  obtain rfl := (safe_component_eq hsafe "").2.symm
  obtain rfl : desired = manifests.map fun m => (m.backup_id, m) := by
    simpa using desired_ok hdesired
  obtain ⟨t, hunlink, ht, hnames⟩ := run_unlink_stale f now environment
    (manifests.map fun m => (m.backup_id, m))
    (s.filter fun file => ".json".toList.isSuffixOf file.1.toList) hs
  obtain ⟨u, hwrite, hu, hstored, hkept⟩ := run_write_desired
    (manifests.map fun m => (m.backup_id, m)) ht (by simp)
    (by simpa [Function.comp_def] using hgiven.distinct)
  refine ⟨u, ⟨hu, ?_, ?_, ?_⟩, ?_⟩
  · intro m hm
    exact hstored (m.backup_id, m) (List.mem_map_of_mem hm)
  · intro name hname
    rw [hkept name, (hnames name).1 ((stale_iff hs).mpr hname)]
    intro item hitem
    obtain ⟨n, hn, rfl⟩ := List.mem_map.mp hitem
    exact outdated_ne hs hname n hn
  · intro name hname hother
    rw [hkept name, (hnames name).2 fun hstale => hname ((stale_iff hs).mp hstale)]
    intro item hitem
    obtain ⟨n, hn, rfl⟩ := List.mem_map.mp hitem
    exact hother n hn
  · rw [synchronized, synchronize_backup_manifests, run_ofExcept_ok hsafe, run_ofExcept_ok hdesired]
    have hfiles : (ask .index_files).run serve s = (.ok _, s) := rfl
    rw [run_seq hfiles, run_seq hunlink, run_seq hwrite]

/-! ## The pointer -/

theorem settled_empty {u : Files} (latest_backup_id : Option String) :
    (settle_latest environment [] latest_backup_id).run serve u =
      (.ok (), u.erase (latestName environment)) := rfl

/-- The pointer is written last, and then the call returns. -/
theorem settled {u : Files} (h : Given environment manifests) (hmanifests : manifests ≠ [])
    {latest_backup_id : Option String} (hlatest : ¬ RejectedLate manifests latest_backup_id) :
    ∃ m ∈ manifests, (settle_latest environment (manifests.map fun m => (m.backup_id, m))
      latest_backup_id).run serve u = (.ok (), u.put (latestName environment) m) := by
  have hdesired : (manifests.map fun m => (m.backup_id, m)) ≠ [] := by simpa using hmanifests
  obtain ⟨newest, hnewest, hmem⟩ := newest_mem hdesired
  have hchosen : ∃ n ∈ manifests, latest_backup_id.getD
      ((newest_desired (manifests.map fun m => (m.backup_id, m))).getD "") = n.backup_id := by
    cases latest_backup_id with
    | none =>
      obtain ⟨item, hitem, rfl⟩ := List.mem_map.mp hmem
      obtain ⟨n, hn, rfl⟩ := List.mem_map.mp hitem
      exact ⟨n, hn, by rw [hnewest]; rfl⟩
    | some backup_id =>
      by_contra hnone
      exact hlatest ⟨hmanifests, backup_id, rfl, fun n hn heq => hnone ⟨n, hn, heq.symm⟩⟩
  obtain ⟨n, hn, heq⟩ := hchosen
  have hlookup : ∃ m, (manifests.map fun m => (m.backup_id, m)).lookup n.backup_id = some m := by
    have hsome := lookup_desired.mpr ⟨n, hn, rfl⟩
    rwa [Option.isNone_eq_false_iff, Option.isSome_iff_exists] at hsome
  obtain ⟨m, hm⟩ := hlookup
  refine ⟨m, (mem_of_lookup hm).1, ?_⟩
  rw [settle_latest, if_neg hdesired, write_latest, heq, run_ofExcept_ok (h.safe n hn _)]
  simp only [hm]
  rfl

/-- An id for the pointer that is not given is found too late. -/
theorem settled_late {u : Files} {latest_backup_id : Option String}
    (hlatest : RejectedLate manifests latest_backup_id) :
    ∃ e, (settle_latest environment (manifests.map fun m => (m.backup_id, m))
      latest_backup_id).run serve u = (.error e, u) := by
  obtain ⟨hmanifests, backup_id, rfl, hother⟩ := hlatest
  have hdesired : (manifests.map fun m => (m.backup_id, m)) ≠ [] := by simpa using hmanifests
  rw [settle_latest, if_neg hdesired, write_latest, Option.getD_some]
  cases hsafe : safe_backup_component backup_id "latest_backup_id" with
  | error e => exact ⟨e, rfl⟩
  | ok safe =>
    obtain rfl := (safe_component_eq hsafe "").2.symm
    have hlookup : (manifests.map fun m => (m.backup_id, m)).lookup backup_id = none := by
      rw [← Option.isNone_iff_eq_none]
      by_contra hsome
      obtain ⟨n, hn, heq⟩ := lookup_desired.mp (Bool.eq_false_iff.mpr hsome)
      exact hother n hn heq
    rw [run_ofExcept_ok rfl]
    simp only [hlookup]
    exact ⟨_, rfl⟩

theorem synchronized_rejected (f : Formats) (now : Timestamp)
    (h : ¬ Accepted environment manifests) (latest_backup_id : Option String) (s : Files) :
    ∃ e, synchronized f now environment manifests latest_backup_id s = (.error e, s) := by
  rw [synchronized, synchronize_backup_manifests]
  cases hsafe : safe_backup_component environment "environment" with
  | error e => exact ⟨e, rfl⟩
  | ok safe =>
    obtain rfl := (safe_component_eq hsafe "").2.symm
    rw [run_ofExcept_ok rfl]
    cases hdesired : desired_manifests environment [] manifests with
    | error e => exact ⟨e, rfl⟩
    | ok desired => exact absurd ⟨⟨_, hsafe⟩, _, hdesired⟩ h

/-! ## All or nothing -/

/-- Nothing has changed before the pointer is settled. -/
theorem Published.unchanged_iff (h : Published environment manifests s t) :
    (∀ name, t.lookup name = s.lookup name) ↔ UpToDate environment manifests s := by
  constructor
  · intro hsame
    refine ⟨fun m hm => (hsame _).symm.trans (h.given m hm), ?_⟩
    intro name m hname hlookup henv
    by_contra hnone
    have hgone := h.outdated name ⟨hname, m, hlookup, henv, fun n hn heq => hnone ⟨n, hn, heq⟩⟩
    rw [hsame name, hlookup] at hgone
    cases hgone
  · intro huptodate name
    by_cases hgiven : ∃ m ∈ manifests, name = fileName m.backup_id
    · obtain ⟨m, hm, rfl⟩ := hgiven
      rw [h.given m hm, huptodate.stored m hm]
    · refine h.kept name ?_ fun m hm heq => hgiven ⟨m, hm, heq⟩
      rintro ⟨hname, m, hlookup, henv, hnew⟩
      obtain ⟨n, hn, heq⟩ := huptodate.fresh name m hname hlookup henv
      exact hnew n hn heq

/-- The files after the pointer is settled. -/
structure Settled (environment : String) (manifests : List BackupManifest) (u t : Files) :
    Prop where
  same : ∀ name, name ≠ latestName environment → t.lookup name = u.lookup name
  pointer : ∀ text, t.lookup (latestName environment) = some text →
    ∃ m ∈ manifests, text = .manifest m

theorem Settled.at_index {u : Files} (h : Settled environment manifests u t) {name : String}
    (hname : isIndexFile name = true) : t.lookup name = u.lookup name := by
  refine h.same name ?_
  rintro rfl
  rw [latest_no_index] at hname
  cases hname

theorem synchronized_of_ownFile {u : Files} (h : Published environment manifests s u)
    (hgiven : Given environment manifests) (ht : Settled environment manifests u t)
    (hown : ∀ m ∈ manifests, OwnFile environment s m) :
    Synchronized environment manifests s t where
  index := by
    intro m
    constructor
    · rintro ⟨henv, name, hname, hlookup⟩
      rw [ht.at_index hname] at hlookup
      obtain rfl := h.written.named hname hlookup
      by_cases hnew : ∃ n ∈ manifests, n.backup_id = m.backup_id
      · obtain ⟨n, hn, heq⟩ := hnew
        have hstored := h.given n hn
        rw [heq, hlookup] at hstored
        exact Body.manifest.inj (Option.some.inj hstored) ▸ hn
      · -- a file that the call has not written was outdated
        have hfresh : ∀ n ∈ manifests, n.backup_id ≠ m.backup_id :=
          fun n hn heq => hnew ⟨n, hn, heq⟩
        have hnames : ∀ n ∈ manifests, fileName m.backup_id ≠ fileName n.backup_id :=
          fun n hn heq => hfresh n hn (fileName_inj heq).symm
        by_cases hold : Outdated environment manifests s (fileName m.backup_id)
        · rw [h.outdated _ hold] at hlookup
          cases hlookup
        · rw [h.kept _ hold hnames] at hlookup
          exact absurd ⟨hname, m, hlookup, henv, hfresh⟩ hold
    · intro hm
      have hname := (hown m hm).1
      exact ⟨hgiven.own m hm, _, hname, (ht.at_index hname).trans (h.given m hm)⟩
  others := by
    intro name m hname henv
    rw [ht.same name hname]
    by_cases hwritten : ∃ n ∈ manifests, name = fileName n.backup_id
    · obtain ⟨n, hn, rfl⟩ := hwritten
      rw [h.given n hn]
      constructor
      · intro heq
        obtain rfl := Body.manifest.inj (Option.some.inj heq)
        exact absurd (hgiven.own n hn) henv
      · exact fun hlookup => absurd ((hown n hn).2 m hlookup) henv
    · have hnames : ∀ n ∈ manifests, name ≠ fileName n.backup_id :=
        fun n hn heq => hwritten ⟨n, hn, heq⟩
      by_cases hold : Outdated environment manifests s name
      · rw [h.outdated name hold]
        obtain ⟨-, n, hlookup, hn, -⟩ := hold
        rw [hlookup]
        constructor
        · exact fun hnone => (by cases hnone)
        · intro heq
          obtain rfl := Body.manifest.inj (Option.some.inj heq)
          exact absurd hn henv
      · rw [h.kept name hold hnames]
  pointer := ht.pointer

theorem ownFile_of_synchronized {u : Files} (h : Published environment manifests s u)
    (hgiven : Given environment manifests) (ht : Settled environment manifests u t)
    (hsync : Synchronized environment manifests s t) :
    ∀ m ∈ manifests, OwnFile environment s m := by
  intro m hm
  obtain ⟨-, name, hname, hlookup⟩ := (hsync.index m).mpr hm
  rw [ht.at_index hname] at hlookup
  obtain rfl := h.written.named hname hlookup
  refine ⟨hname, fun n hn => ?_⟩
  by_contra henv
  have hstays := (hsync.others _ n (fileName_ne_latest hname) henv).mpr hn
  rw [ht.at_index hname, hlookup] at hstays
  obtain rfl := Body.manifest.inj (Option.some.inj hstays)
  exact henv (hgiven.own m hm)

theorem settled_put {u : Files} (hm : m ∈ manifests) :
    Settled environment manifests u (u.put (latestName environment) m) where
  same := fun name hname => by rw [lookup_put, if_neg hname]
  pointer := by
    intro text htext
    rw [lookup_put, if_pos rfl] at htext
    exact ⟨m, hm, (Option.some.inj htext).symm⟩

theorem settled_erase {u : Files} :
    Settled environment manifests u (u.erase (latestName environment)) where
  same := fun name hname => by rw [lookup_erase, if_neg hname]
  pointer := by
    intro text htext
    rw [lookup_erase, if_pos rfl] at htext
    cases htext

theorem settled_in_time {u : Files} (hu : Written u) (h : Given environment manifests)
    {latest_backup_id : Option String} (hlatest : ¬ RejectedLate manifests latest_backup_id) :
    ∃ t, (settle_latest environment (manifests.map fun m => (m.backup_id, m))
      latest_backup_id).run serve u = (.ok (), t) ∧ Written t ∧
        Settled environment manifests u t := by
  by_cases hmanifests : manifests = []
  · subst hmanifests
    exact ⟨_, settled_empty latest_backup_id, hu.erase _, settled_erase⟩
  · obtain ⟨m, hm, hrun⟩ := settled h hmanifests hlatest
    have hpointer : latestName environment = latestName m.environment := by rw [h.own m hm]
    exact ⟨_, hrun, hu.put (Or.inr hpointer), settled_put hm⟩

/-- A call is all or nothing exactly when an id for the pointer that is not given comes with
files that are up to date, and otherwise each given manifest has a file of its own. -/
theorem synchronize_all_or_nothing_iff (f : Formats) (now : Timestamp) (environment : String)
    (manifests : List BackupManifest) (latest_backup_id : Option String) {s : Files}
    (hs : Written s) :
    AllOrNothing environment manifests s
        (synchronized f now environment manifests latest_backup_id s).1
        (synchronized f now environment manifests latest_backup_id s).2 ↔
      Safe environment manifests latest_backup_id s := by
  by_cases haccepted : Accepted environment manifests
  · have hgiven := haccepted.given
    obtain ⟨u, hpublished, hrun⟩ := synchronized_accepted f now hs haccepted latest_backup_id
    rw [hrun]
    by_cases hlate : RejectedLate manifests latest_backup_id
    · obtain ⟨e, hsettled⟩ := @settled_late environment manifests u latest_backup_id hlate
      rw [hsettled]
      constructor
      · intro h
        have huptodate := hpublished.unchanged_iff.mp (h.1 e rfl)
        exact fun _ => ⟨fun _ => huptodate, fun hintime => absurd hlate hintime⟩
      · intro h
        refine ⟨fun _ _ => ?_, fun hok => (by cases hok)⟩
        exact hpublished.unchanged_iff.mpr ((h haccepted).1 hlate)
    · obtain ⟨t, hsettled, -, ht⟩ := settled_in_time hpublished.written hgiven hlate
      rw [hsettled]
      constructor
      · intro h
        have hown := ownFile_of_synchronized hpublished hgiven ht (h.2 rfl)
        exact fun _ => ⟨fun hlater => absurd hlater hlate, fun _ => hown⟩
      · intro h
        refine ⟨fun _ herror => (by cases herror), fun _ => ?_⟩
        exact synchronized_of_ownFile hpublished hgiven ht ((h haccepted).2 hlate)
  · obtain ⟨e, hrun⟩ := synchronized_rejected f now haccepted latest_backup_id s
    rw [hrun]
    constructor
    · exact fun _ h => absurd h haccepted
    · exact fun _ => ⟨fun _ _ _ => rfl, fun h => (by cases h)⟩

/-- The directories that the store writes hold nothing else. -/
theorem WrittenByStore.written (h : WrittenByStore f now s) : Written s := by
  induction h with
  | empty => exact ⟨List.nodup_nil, fun name text h => (by cases h)⟩
  | @save s t backup_id manifest _ hsave ih =>
    obtain ⟨safe_id, hsafe, hsave⟩ := CheckedLists.bind_eq_ok.mp hsave
    split at hsave
    · cases hsave
    · next hid =>
      obtain ⟨environment, henv, hsave⟩ := CheckedLists.bind_eq_ok.mp hsave
      obtain rfl := Except.ok.inj hsave
      obtain rfl := (safe_component_eq henv "").2
      exact (ih.put (Or.inl (by rw [not_not.mp hid]))).put (Or.inr rfl)
  | @update s t manifest _ hupdate ih =>
    obtain ⟨safe_id, hsafe, hupdate⟩ := CheckedLists.bind_eq_ok.mp hupdate
    obtain ⟨environment, henv, hupdate⟩ := CheckedLists.bind_eq_ok.mp hupdate
    obtain rfl := (safe_component_eq hsafe "").2
    obtain rfl := (safe_component_eq henv "").2
    have hput : Written (s.put (fileName manifest.backup_id) manifest) := ih.put (Or.inl rfl)
    dsimp only at hupdate
    split at hupdate
    · obtain rfl := Except.ok.inj hupdate
      exact hput.put (Or.inr rfl)
    · obtain rfl := Except.ok.inj hupdate
      exact hput
  | @synchronize s environment manifests latest_backup_id _ ih =>
    by_cases haccepted : Accepted environment manifests
    · obtain ⟨u, hpublished, hrun⟩ := synchronized_accepted f now ih haccepted latest_backup_id
      rw [hrun]
      by_cases hlate : RejectedLate manifests latest_backup_id
      · obtain ⟨e, hsettled⟩ := @settled_late environment manifests u latest_backup_id hlate
        rw [hsettled]
        exact hpublished.written
      · obtain ⟨t, hsettled, ht, -⟩ :=
          settled_in_time hpublished.written haccepted.given hlate
        rw [hsettled]
        exact ht
    · obtain ⟨e, hrun⟩ := synchronized_rejected f now haccepted latest_backup_id s
      rw [hrun]
      exact ih

end Written

/-! ## A directory with one backup -/

def saved : Files :=
  [("production-latest.json", .manifest morning), ("production_1.json", .manifest morning)]

theorem saved_by_store : WrittenByStore exampleVault.toFormats (hours 20) saved :=
  .save "production_1" morning .empty (by decide +kernel)

theorem synchronize_two_backups :
    AllOrNothing "production" [morning, evening] saved
      (synchronized exampleVault.toFormats (hours 20) "production" [morning, evening] none saved).1
      (synchronized exampleVault.toFormats (hours 20) "production" [morning, evening] none
        saved).2 := by
  refine (synchronize_all_or_nothing_iff _ _ _ _ _ saved_by_store.written).mpr fun _ =>
    ⟨?_, fun _ => ?_⟩
  · rintro ⟨-, backup_id, hlatest, -⟩
    cases hlatest
  · intro m hm
    rcases List.mem_cons.mp hm with rfl | hm
    · refine ⟨by decide +kernel, fun n hn => ?_⟩
      have hstored : saved.lookup (fileName morning.backup_id) = some (.manifest morning) := by
        decide +kernel
      rw [hstored] at hn
      rw [← Body.manifest.inj (Option.some.inj hn)]
      rfl
    · obtain rfl := List.mem_singleton.mp hm
      refine ⟨by decide +kernel, fun n hn => ?_⟩
      have hfree : saved.lookup (fileName evening.backup_id) = none := by decide +kernel
      rw [hfree] at hn
      cases hn

/-- The call raises after it has taken the only backup out of the index. -/
theorem late_rejection_changes_index :
    save_backup_manifest "production_1" morning [] = .ok saved ∧
      (synchronized exampleVault.toFormats (hours 20) "production" [evening] (some "production_3")
        saved).1 = .error "Latest backup 'production_3' is not retained" ∧
      ¬ AllOrNothing "production" [evening] saved
        (synchronized exampleVault.toFormats (hours 20) "production" [evening]
          (some "production_3") saved).1
        (synchronized exampleVault.toFormats (hours 20) "production" [evening]
          (some "production_3") saved).2 := by
  have hraised : (synchronized exampleVault.toFormats (hours 20) "production" [evening]
      (some "production_3") saved).1 =
        .error "Latest backup 'production_3' is not retained" := by decide +kernel
  refine ⟨by decide +kernel, hraised, fun h => ?_⟩
  have hsame := h.1 _ hraised "production_1.json"
  revert hsame
  decide +kernel

end BackupIndex
