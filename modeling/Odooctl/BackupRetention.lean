import Odooctl.PeriodSelection
import Odooctl.PythonIntegers
import Odooctl.RemoteBackups

/-!
# Retention of local backups

The candidates of `services/backup.py` and the selection by day, ISO week and month, beside
the selection inside `prune_remote_backups`.
-/
namespace BackupRetention

open BackupManifests PeriodSelection PythonIntegers
open CheckedLists (bind_eq_ok)
open PitrRestoreRecord (Timestamp isSpace)
open PitrRetention (HOUR newestFirst compareKey perm_newestFirst sorted_newestFirst
  eq_of_compareKey)
open RemoteBackups (Candidate age_key dated named_for ordered_candidates parsed_timestamp
  retained zulu)
open RemoteStore (S3Adapter)

/-! ## Candidates -/

structure BackupCandidate where
  path : String
  manifest : BackupManifest
  timestamp : Timestamp
  published_at : Timestamp
  deriving DecidableEq, Repr

def BackupCandidate.id (c : BackupCandidate) : String := c.manifest.backup_id

/-- The key that candidates are sorted by. -/
def BackupCandidate.key (c : BackupCandidate) : Timestamp × String := (c.timestamp, c.id)

/-- `fromisoformat` takes a time without an offset for UTC. -/
def parse_manifest_timestamp (f : Formats) (value : String) : Option Timestamp :=
  let normalized := trim isSpace value.toList
  let normalized := if normalized.getLast? = some 'Z' then
    normalized.dropLast ++ "+00:00".toList else normalized
  f.fromisoformat (String.ofList normalized)

/-- An entry of the backup directory; `manifest` is the text of its `manifest.json` and when
that was last modified. -/
structure BackupDirectory where
  name : String
  is_dir : Bool
  is_symlink : Bool
  manifest : Option (Body × Timestamp)
  deriving DecidableEq, Repr

def is_published_backup_dir (d : BackupDirectory) : Bool :=
  d.is_dir && !d.is_symlink && !".partial-".toList.isPrefixOf d.name.toList

/-- One turn of the loop of `_backup_candidates`. -/
def candidate_of (f : Formats) (now : Timestamp) (environment : String) (project : Option String)
    (d : BackupDirectory) : Option BackupCandidate :=
  if ¬ (is_published_backup_dir d ∧ named_for environment d.name) then none
  else do
    let (text, published_at) ← d.manifest
    let manifest ← (f.model_validate_json now text).toOption
    let timestamp ← parse_manifest_timestamp f manifest.timestamp
    if manifest.backup_id ≠ d.name ∨ manifest.environment ≠ environment ∨
        project.any (manifest.project ≠ ·) ∨ manifest.status ≠ "complete" then none
    else some ⟨d.name, manifest, timestamp, published_at⟩

def newest_first (candidates : List BackupCandidate) : List BackupCandidate :=
  newestFirst BackupCandidate.key candidates

def backup_candidates (f : Formats) (now : Timestamp) (environment : String)
    (project : Option String) (directories : List BackupDirectory) : List BackupCandidate :=
  newest_first (directories.filterMap (candidate_of f now environment project))

/-! ## Selection -/

/-- The days of the years before `year`. -/
def days_before_year (year : ℕ) : ℕ :=
  let y := year - 1
  y * 365 + y / 4 - y / 100 + y / 400

/-- Year and week of `isocalendar`: a week belongs to the year of its Thursday. -/
def isocalendar (t : Timestamp) : ℕ × ℤ :=
  let thursday := 7 * (date t / 7) + 3
  let year := (civil thursday).1
  (year, ((thursday : ℤ) - days_before_year year) / 7 + 1)

def retain_periods {β : Type} [DecidableEq β] (count : ℤ) (bucket_for : Timestamp → β)
    (candidates : List BackupCandidate) : List String :=
  if count ≤ 0 then []
  else (firstOfPeriods (fun c => bucket_for c.timestamp) count.toNat [] candidates).map
    BackupCandidate.id

/-- `retained_ids` of `_select_gfs_candidates`. -/
def selected_ids (daily weekly monthly : ℤ) (keep_latest : Bool)
    (candidates : List BackupCandidate) : List String :=
  (if keep_latest then (candidates.head?.map BackupCandidate.id).toList else []) ++
    retain_periods (max daily 0) date candidates ++
    retain_periods (max weekly 0) isocalendar candidates ++
    retain_periods (max monthly 0) month candidates

def select_gfs_candidates (daily weekly monthly : ℤ) (keep_latest : Bool)
    (candidates : List BackupCandidate) : List BackupCandidate :=
  candidates.filter fun c => c.id ∈ selected_ids daily weekly monthly keep_latest candidates

/-- The weeks of `isocalendar` are the runs of seven days from the first Monday on. -/
theorem isocalendar_eq_iff (t u : Timestamp) : isocalendar t = isocalendar u ↔
    iso_week t = iso_week u := by
  have hweek : ∀ v, iso_week v = date v / 7 := by
    intro v
    rw [iso_week, date, Nat.div_div_eq_div_mul, Nat.mul_comm]
  rw [hweek, hweek]
  constructor
  · intro h
    obtain ⟨hyear, hnumber⟩ := Prod.mk.inj h
    rw [hyear] at hnumber
    omega
  · intro h
    rw [isocalendar, isocalendar, h]

/-- The last days of 2020 belong to its week 53, and so do the first three of 2021. -/
example : isocalendar (737789 * DAY) = (2020, 53) ∧ isocalendar (737792 * DAY) = (2020, 53) ∧
    isocalendar (737793 * DAY) = (2021, 1) := by decide

/-! ## The walk of the remote selection -/

theorem retain_periods_walk {β : Type} [DecidableEq β] (bucket_for : Timestamp → β) (left : ℕ)
    (seen : List β) (candidates : List BackupCandidate) :
    BackupManifests.retain_periods bucket_for (left + 1) seen
        (candidates.map BackupCandidate.key) =
      (firstOfPeriods (fun c => bucket_for c.timestamp) (seen.length + left + 1) seen
        candidates).map BackupCandidate.id := by
  induction candidates generalizing seen left with
  | nil => rfl
  | cons c rest ih =>
    rw [List.map_cons, BackupCandidate.key, BackupManifests.retain_periods, firstOfPeriods]
    split
    · exact ih left seen
    · rw [List.map_cons]
      cases left with
      | zero =>
        rw [if_pos (by omega)]
        cases rest <;> rfl
      | succ left =>
        rw [if_neg (by omega), ih left (bucket_for c.timestamp :: seen), List.length_cons,
          show seen.length + 1 + left + 1 = seen.length + (left + 1) + 1 by omega]

/-- The two loops keep the same identifiers. -/
theorem retain_periods_eq {β : Type} [DecidableEq β] (bucket_for : Timestamp → β) (count : ℕ)
    (candidates : List BackupCandidate) :
    BackupManifests.retain_periods bucket_for count [] (candidates.map BackupCandidate.key) =
      retain_periods (max (count : ℤ) 0) bucket_for candidates := by
  cases count with
  | zero => cases candidates <;> rfl
  | succ count =>
    have hcount : max ((count + 1 : ℕ) : ℤ) 0 = (count + 1 : ℕ) := by omega
    rw [retain_periods_walk, retain_periods, hcount, if_neg (by omega), Int.toNat_natCast,
      List.length_nil, Nat.zero_add]

theorem retain_weeks_eq (count : ℤ) (candidates : List BackupCandidate) :
    retain_periods count isocalendar candidates = retain_periods count iso_week candidates := by
  have hwalk : firstOfPeriods (fun c => isocalendar c.timestamp) count.toNat [] candidates =
      firstOfPeriods (fun c => iso_week c.timestamp) count.toNat [] candidates :=
    firstOfPeriods_congr (fun c d : BackupCandidate => isocalendar_eq_iff c.timestamp d.timestamp)
      [] candidates
  rw [retain_periods, retain_periods, hwalk]

/-! ## One order -/

theorem eq_of_newest_first {l r : List (Timestamp × String)} (hperm : l.Perm r)
    (hl : l.Pairwise fun x y => (compareKey y x).isLE = true)
    (hr : r.Pairwise fun x y => (compareKey y x).isLE = true) : l = r := by
  apply hperm.eq_of_pairwise _ hl hr
  intro x y _ _ hxy hyx
  apply eq_of_compareKey
  cases hc : compareKey x y with
  | eq => rfl
  | lt =>
    rw [Std.OrientedCmp.gt_of_lt hc] at hxy
    cases hxy
  | gt =>
    rw [hc] at hyx
    cases hyx

theorem key_newest_first {α : Type} (key : α → Timestamp × String) (l : List α) :
    ((newestFirst key l).map key).Pairwise fun x y => (compareKey y x).isLE = true :=
  List.pairwise_map.mpr (sorted_newestFirst key l)

/-! ## Timestamps -/

/-- Of a time in ISO 8601 only this matters here: no blanks around it, and `Z` nowhere but as
its offset. -/
structure IsoText (text : String) : Prop where
  trimmed : trim isSpace text.toList = text.toList
  offset : 'Z' ∉ text.toList.dropLast

theorem flatMap_zulu {cs : List Char} (h : 'Z' ∉ cs) :
    (cs.flatMap fun c => if c = 'Z' then "+00:00".toList else [c]) = cs := by
  induction cs with
  | nil => rfl
  | cons c cs ih =>
    rw [List.mem_cons, not_or] at h
    rw [List.flatMap_cons, ih h.2, if_neg fun heq => h.1 heq.symm]
    rfl

theorem normalized_zulu {text : String} (h : IsoText text) (f : Formats) :
    parse_manifest_timestamp f text = f.fromisoformat (zulu text) := by
  have hzulu : zulu text = String.ofList (if text.toList.getLast? = some 'Z' then
      text.toList.dropLast ++ "+00:00".toList else text.toList) := by
    rw [zulu]
    rcases List.eq_nil_or_concat' text.toList with hnil | ⟨body, c, htext⟩
    · rw [hnil]
      rfl
    · have hbody : 'Z' ∉ body := by
        have hoffset := h.offset
        rwa [htext, List.dropLast_concat] at hoffset
      rw [htext, List.flatMap_append, flatMap_zulu hbody, List.getLast?_concat,
        List.dropLast_concat]
      by_cases hc : c = 'Z'
      · rw [hc, List.flatMap_singleton, if_pos rfl, if_pos rfl]
      · rw [List.flatMap_singleton, if_neg hc, if_neg fun h => hc (Option.some.inj h)]
  rw [parse_manifest_timestamp, h.trimmed, hzulu]

/-! ## Agreement -/

/-- What `prune_remote_backups` retains before the grace period. -/
def gfs_retained (policy : RetentionConfig) (protected_backup_ids : List String)
    (ordered : List (Timestamp × Candidate)) : List String :=
  protected_backup_ids ++ (ordered.head?.map fun item => item.2.id).toList ++
    gfs_ids policy.daily policy.weekly policy.monthly (ordered.map age_key)

theorem dated_ok {a : S3Adapter} {remote : List Candidate}
    (h : ∀ c ∈ remote, ∃ t, parsed_timestamp a c.manifest = .ok t) :
    ∃ items, remote.mapM (dated a) = .ok items ∧ items.map Prod.snd = remote ∧
      ∀ item ∈ items, parsed_timestamp a item.2.manifest = .ok item.1 := by
  induction remote with
  | nil => exact ⟨[], rfl, rfl, fun _ hitem => by cases hitem⟩
  | cons c rest ih =>
    obtain ⟨t, ht⟩ := h c List.mem_cons_self
    obtain ⟨items, hitems, hsame, hread⟩ := ih fun d hd => h d (List.mem_cons_of_mem c hd)
    refine ⟨(t, c) :: items, ?_, by rw [List.map_cons, hsame], ?_⟩
    · have hfirst : dated a c = .ok (t, c) := by
        rw [dated, ht]
        rfl
      rw [List.mapM_cons]
      exact bind_eq_ok.mpr ⟨_, hfirst, bind_eq_ok.mpr ⟨items, hitems, rfl⟩⟩
    · intro item hitem
      rcases List.mem_cons.mp hitem with rfl | hitem
      · exact ht
      · exact hread item hitem

section Agreement

variable {a : S3Adapter} {manifests : List BackupManifest} {candidates : List BackupCandidate}
  {remote : List Candidate}

/-- The pairs that both sides sort. -/
theorem keys_perm (hlocal : (candidates.map BackupCandidate.manifest).Perm manifests)
    (hremote : (remote.map Candidate.manifest).Perm manifests)
    (hread : ∀ c ∈ candidates,
      parse_manifest_timestamp a.toFormats c.manifest.timestamp = some c.timestamp)
    (hiso : ∀ m ∈ manifests, IsoText m.timestamp) :
    ∃ items, remote.mapM (dated a) = .ok items ∧
      (candidates.map BackupCandidate.key).Perm (items.map age_key) := by
  let keyOf : BackupManifest → Timestamp × String := fun m =>
    ((a.fromisoformat (zulu m.timestamp)).getD 0, m.backup_id)
  have hstamp : ∀ c ∈ candidates, a.fromisoformat (zulu c.manifest.timestamp) =
      some c.timestamp := by
    intro c hc
    have hm : c.manifest ∈ manifests := hlocal.mem_iff.mp (List.mem_map_of_mem hc)
    rw [← hread c hc, normalized_zulu (hiso _ hm)]
  have hremotely : ∀ c ∈ remote, ∃ t, parsed_timestamp a c.manifest = .ok t := by
    intro c hc
    have hm := hlocal.mem_iff.mpr (hremote.mem_iff.mp (List.mem_map_of_mem hc))
    obtain ⟨d, hd, heq⟩ := List.mem_map.mp hm
    refine ⟨d.timestamp, ?_⟩
    rw [parsed_timestamp, ← heq, hstamp d hd]
  obtain ⟨items, hitems, hsame, hdated⟩ := dated_ok hremotely
  refine ⟨items, hitems, ?_⟩
  have hleft : candidates.map BackupCandidate.key =
      (candidates.map BackupCandidate.manifest).map keyOf := by
    rw [List.map_map]
    apply List.map_congr_left
    intro c hc
    simp [keyOf, BackupCandidate.key, BackupCandidate.id, hstamp c hc]
  have hright : items.map age_key = (remote.map Candidate.manifest).map keyOf := by
    rw [← hsame, List.map_map, List.map_map]
    apply List.map_congr_left
    intro item hitem
    have ht := hdated item hitem
    rw [parsed_timestamp] at ht
    cases hparsed : a.fromisoformat (zulu item.2.manifest.timestamp) with
    | none =>
      rw [hparsed] at ht
      cases ht
    | some t =>
      rw [hparsed] at ht
      simp [keyOf, age_key, Candidate.id, hparsed, Except.ok.inj ht]
  rw [hleft, hright]
  exact (hlocal.trans hremote.symm).map keyOf

end Agreement

theorem mem_select {daily weekly monthly : ℤ} {keep_latest : Bool}
    {candidates : List BackupCandidate} {backup_id : String} :
    backup_id ∈ (select_gfs_candidates daily weekly monthly keep_latest candidates).map
        BackupCandidate.id ↔
      backup_id ∈ selected_ids daily weekly monthly keep_latest candidates := by
  have hsub : ∀ {β : Type} [DecidableEq β] (count : ℤ) (bucket_for : Timestamp → β),
      ∀ i ∈ retain_periods count bucket_for candidates, i ∈ candidates.map BackupCandidate.id := by
    intro β _ count bucket_for i hi
    rw [retain_periods] at hi
    split at hi
    · cases hi
    · exact List.map_subset _ (firstOfPeriods_subset _ _ _ _) hi
  rw [select_gfs_candidates]
  constructor
  · intro h
    obtain ⟨c, hc, rfl⟩ := List.mem_map.mp h
    exact of_decide_eq_true (List.mem_filter.mp hc).2
  · intro h
    have hmem : backup_id ∈ candidates.map BackupCandidate.id := by
      simp only [selected_ids, List.mem_append] at h
      rcases h with ((h | h) | h) | h
      · cases keep_latest with
        | false => cases h
        | true =>
          cases candidates with
          | nil => cases h
          | cons c rest =>
            rw [List.mem_singleton.mp h]
            exact List.mem_cons_self
      · exact hsub _ _ _ h
      · exact hsub _ _ _ h
      · exact hsub _ _ _ h
    obtain ⟨c, hc, rfl⟩ := List.mem_map.mp hmem
    exact List.mem_map_of_mem (List.mem_filter.mpr ⟨hc, decide_eq_true h⟩)

/-- The local selection with the protected backups keeps the identifiers that the remote
selection keeps of the same manifests, before either grants a grace period. -/
theorem local_and_remote_retention_agree (a : S3Adapter) (policy : RetentionConfig)
    (protected_backup_ids : List String) {manifests : List BackupManifest}
    {candidates : List BackupCandidate} {remote : List Candidate}
    (hlocal : (candidates.map BackupCandidate.manifest).Perm manifests)
    (hremote : (remote.map Candidate.manifest).Perm manifests)
    (hread : ∀ c ∈ candidates,
      parse_manifest_timestamp a.toFormats c.manifest.timestamp = some c.timestamp)
    (hiso : ∀ m ∈ manifests, IsoText m.timestamp) :
    ∃ ordered, ordered_candidates a remote = .ok ordered ∧
      (∀ cutoff, retained policy protected_backup_ids cutoff ordered =
        gfs_retained policy protected_backup_ids ordered ++
          (ordered.filter fun item => item.2.completed_at.all (cutoff ≤ ·)).map
            fun item => item.2.id) ∧
      ∀ backup_id,
        (backup_id ∈ (select_gfs_candidates policy.daily policy.weekly policy.monthly true
          (newest_first candidates)).map BackupCandidate.id ∨
            backup_id ∈ protected_backup_ids) ↔
        backup_id ∈ gfs_retained policy protected_backup_ids ordered := by
  obtain ⟨items, hitems, hperm⟩ := keys_perm hlocal hremote hread hiso
  have hordered : ordered_candidates a remote = .ok (newestFirst age_key items) :=
    bind_eq_ok.mpr ⟨items, hitems, rfl⟩
  have hkeys : (newest_first candidates).map BackupCandidate.key =
      (newestFirst age_key items).map age_key :=
    eq_of_newest_first
      (((perm_newestFirst BackupCandidate.key candidates).map _).trans
        (hperm.trans ((perm_newestFirst age_key items).map _).symm))
      (key_newest_first _ _) (key_newest_first _ _)
  refine ⟨newestFirst age_key items, hordered, fun cutoff => rfl, ?_⟩
  intro backup_id
  have hhead : ((newest_first candidates).head?.map BackupCandidate.id) =
      (newestFirst age_key items).head?.map fun item => item.2.id := by
    have hfirst := congrArg (fun l => l.head?.map Prod.snd) hkeys
    rw [List.head?_map, List.head?_map, Option.map_map, Option.map_map] at hfirst
    exact hfirst
  rw [mem_select, selected_ids, if_pos rfl, hhead, retain_weeks_eq, ← retain_periods_eq,
    ← retain_periods_eq, ← retain_periods_eq, hkeys, gfs_retained, gfs_ids]
  simp only [List.mem_append]
  tauto

/-! ## Two backups of one day -/

def backupAt (backup_id timestamp : String) : BackupManifest where
  backup_id := backup_id
  project := "acme"
  environment := "production"
  timestamp := timestamp
  db_name := "odoo_production"
  odoo_version := "17.0"

def morning : BackupManifest := backupAt "production_1" "2026-03-01T09:00:00Z"

def evening : BackupManifest := backupAt "production_2" "2026-03-01T19:00:00+01:00"

def hours (n : ℕ) : Timestamp := 739675 * DAY + n * HOUR

def exampleVault : S3Adapter where
  size := fun _ => 784
  sha256 := fun _ => "9a92c00371c5c9e53eb5a38461c9c75c23470f33cd6a84fdaba985429ee53e92"
  json_loads := fun _ => .error "Expecting value: line 1 column 1 (char 0)"
  int_of := fun _ => none
  validation_error := fun _ => "validation error"
  fromisoformat := fun text =>
    if text = "2026-03-01T09:00:00+00:00" then some (hours 9)
    else if text = "2026-03-01T19:00:00+01:00" then some (hours 18)
    else none
  redact := fun text => text
  hexdigest := fun _ => by decide +kernel
  bucket := "vault"
  scope := "acme"

theorem retention_agrees_on_one_day :
    ∃ ordered, ordered_candidates exampleVault [⟨morning, none⟩, ⟨evening, none⟩] = .ok ordered ∧
      ∀ backup_id, (backup_id ∈ (select_gfs_candidates 1 0 0 true
          (newest_first [⟨"production_2", evening, hours 18, hours 18⟩,
            ⟨"production_1", morning, hours 9, hours 9⟩])).map BackupCandidate.id ∨
          backup_id ∈ ["production_0"]) ↔
        backup_id ∈ gfs_retained ⟨1, 0, 0, 1, by decide⟩ ["production_0"] ordered := by
  have hiso : ∀ m ∈ [morning, evening], IsoText m.timestamp := by
    intro m hm
    rcases List.mem_cons.mp hm with rfl | hm
    · exact ⟨by decide +kernel, by decide +kernel⟩
    · rw [List.mem_singleton.mp hm]
      exact ⟨by decide +kernel, by decide +kernel⟩
  obtain ⟨ordered, hordered, -, hsame⟩ := @local_and_remote_retention_agree exampleVault
    ⟨1, 0, 0, 1, by decide⟩ ["production_0"] [morning, evening]
    [⟨"production_2", evening, hours 18, hours 18⟩, ⟨"production_1", morning, hours 9, hours 9⟩]
    [⟨morning, none⟩, ⟨evening, none⟩] (.swap _ _ _) (.refl _) (by decide +kernel) hiso
  exact ⟨ordered, hordered, hsame⟩

end BackupRetention
