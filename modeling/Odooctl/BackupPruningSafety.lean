import Odooctl.BackupPruning

/-!
# What pruning keeps

The identifiers that a pass retains, in terms of the candidates alone, and what holds of the
backup directory and the metadata's index at every moment of a pass.
-/
namespace BackupPruningSafety

open BackupManifests BackupPruning BackupRetention EffectPrograms PeriodSelection ProgramRules
open FilestoreMigration (safe_backup_component)
open PitrRestoreRecord (Timestamp)
open PitrRetention (compareKey perm_newestFirst sorted_newestFirst eq_of_compareKey)

/-! ## The policy -/

def newer (x y : BackupCandidate) : Bool := compareKey y.key x.key == .lt

/-- Where the cutoff would lie before the first instant there is, every backup is fresh. -/
def InGrace (request : PruneRequest) (clock : Timestamp) (c : BackupCandidate) : Prop :=
  request.grace_hours > 0 ∧ ∀ cutoff,
    hours_before (request.now.getD clock) request.grace_hours.toNat = .ok cutoff →
      cutoff ≤ c.published_at

/-- The newest backup of each of the newest `count` periods. -/
def InTier {β : Type} [DecidableEq β] (period : Timestamp → β) (count : ℤ)
    (candidates : List BackupCandidate) (c : BackupCandidate) : Prop :=
  NewestOfPeriod newer (fun d => period d.timestamp) count.toNat candidates c

def Kept (request : PruneRequest) (clock : Timestamp) (candidates : List BackupCandidate)
    (c : BackupCandidate) : Prop :=
  c.id ∈ request.protected_backup_ids ∨ InGrace request clock c ∨
    (request.keep_latest = true ∧ ∀ d ∈ candidates, newer d c = false) ∨
    InTier date request.daily candidates c ∨ InTier isocalendar request.weekly candidates c ∨
    InTier month request.monthly candidates c

/-- The candidates of the disk. -/
def candidatesOf (f : Formats) (now : Timestamp) (request : PruneRequest) (s : Disk) :
    List BackupCandidate :=
  backup_candidates f now request.environment (some request.project) s.directories

section Selection

variable {f : Formats} {now clock : Timestamp} {request : PruneRequest} {s : Disk}
  {candidates : List BackupCandidate} {c d : BackupCandidate}

theorem newer_asymm (x y : BackupCandidate) (h : newer x y = true) : newer y x = false := by
  rw [newer, beq_iff_eq] at h
  rw [newer, Std.OrientedCmp.gt_of_lt h]
  rfl

theorem candidate_name {environment : String} {project : Option String} {d : BackupDirectory}
    (h : candidate_of f now environment project d = some c) :
    c.path = d.name ∧ c.id = d.name ∧ c.manifest.environment = environment := by
  rw [candidate_of] at h
  split at h
  · cases h
  · obtain ⟨⟨text, published⟩, -, h⟩ := Option.bind_eq_some_iff.mp h
    obtain ⟨manifest, -, h⟩ := Option.bind_eq_some_iff.mp h
    obtain ⟨timestamp, -, h⟩ := Option.bind_eq_some_iff.mp h
    split at h
    · cases h
    · next hgood =>
      simp only [not_or, not_not] at hgood
      obtain rfl := Option.some.inj h
      exact ⟨rfl, hgood.1, hgood.2.1⟩

/-- What the names of a directory say of the candidates in it. -/
structure Sorted (candidates : List BackupCandidate) : Prop where
  distinct : (candidates.map BackupCandidate.id).Nodup
  ordered : candidates.Pairwise fun x y => newer x y = true
  named : ∀ c ∈ candidates, c.path = c.id

theorem Sorted.eq_of_id (h : Sorted candidates) (hc : c ∈ candidates) (hd : d ∈ candidates)
    (hid : c.id = d.id) : c = d :=
  List.inj_on_of_nodup_map h.distinct hc hd hid

theorem distinct_ids {environment : String} {project : Option String}
    {directories : List BackupDirectory} (h : (directories.map BackupDirectory.name).Nodup) :
    ((directories.filterMap (candidate_of f now environment project)).map
      BackupCandidate.id).Nodup := by
  induction directories with
  | nil => exact List.nodup_nil
  | cons d rest ih =>
    obtain ⟨hfirst, hrest⟩ := List.nodup_cons.mp h
    rw [List.filterMap_cons]
    cases hc : candidate_of f now environment project d with
    | none => exact ih hrest
    | some c =>
      refine List.nodup_cons.mpr ⟨?_, ih hrest⟩
      intro hmem
      obtain ⟨e, he, hid⟩ := List.mem_map.mp hmem
      obtain ⟨d', hd', he⟩ := List.mem_filterMap.mp he
      rw [(candidate_name he).2.1, (candidate_name hc).2.1] at hid
      exact hfirst (hid ▸ List.mem_map_of_mem hd')

theorem sorted_candidates {environment : String} {project : Option String}
    {directories : List BackupDirectory} (h : (directories.map BackupDirectory.name).Nodup) :
    Sorted (backup_candidates f now environment project directories) := by
  have hperm := perm_newestFirst BackupCandidate.key
    (directories.filterMap (candidate_of f now environment project))
  have hdistinct : ((backup_candidates f now environment project directories).map
      BackupCandidate.id).Nodup :=
    (hperm.map BackupCandidate.id).nodup_iff.mpr (distinct_ids h)
  refine ⟨hdistinct, ?_, ?_⟩
  · have hsorted := sorted_newestFirst BackupCandidate.key
      (directories.filterMap (candidate_of f now environment project))
    have hboth := hsorted.and (List.pairwise_map.mp hdistinct)
    apply hboth.imp
    rintro x y ⟨hle, hne⟩
    rw [newer, beq_iff_eq]
    cases hcompare : compareKey y.key x.key with
    | lt => rfl
    | eq => exact absurd (congrArg Prod.snd (eq_of_compareKey hcompare)).symm hne
    | gt =>
      rw [hcompare] at hle
      cases hle
  · intro c hc
    obtain ⟨d, -, hd⟩ := List.mem_filterMap.mp (hperm.mem_iff.mp hc)
    rw [(candidate_name hd).1, (candidate_name hd).2.1]

/-- The order in which the directory is read does not matter. -/
theorem candidates_of_perm {environment : String} {project : Option String}
    {directories l : List BackupDirectory} (h : (directories.map BackupDirectory.name).Nodup)
    (hl : l.Perm directories) : backup_candidates f now environment project l =
      backup_candidates f now environment project directories := by
  have hnames : (l.map BackupDirectory.name).Nodup :=
    (hl.map BackupDirectory.name).nodup_iff.mpr h
  have hperm : (backup_candidates f now environment project l).Perm
      (backup_candidates f now environment project directories) :=
    (perm_newestFirst _ _).trans ((hl.filterMap _).trans (perm_newestFirst _ _).symm)
  apply hperm.eq_of_pairwise _ (sorted_candidates hnames).ordered (sorted_candidates h).ordered
  intro x y _ _ hxy hyx
  rw [newer_asymm x y hxy] at hyx
  cases hyx

theorem mem_retain_periods {β : Type} [DecidableEq β] {period : Timestamp → β} {count : ℤ}
    (h : Sorted candidates) (hc : c ∈ candidates) :
    c.id ∈ BackupRetention.retain_periods (max count 0) period candidates ↔ InTier period count candidates c := by
  have hwalk : BackupRetention.retain_periods (max count 0) period candidates =
      (newestOfPeriods (fun d : BackupCandidate => period d.timestamp) count.toNat
        candidates).map BackupCandidate.id := by
    rw [BackupRetention.retain_periods, newestOfPeriods]
    by_cases hcount : count ≤ 0
    · rw [if_pos (by omega), if_pos (by omega)]
      rfl
    · rw [if_neg (by omega), if_neg (by omega), max_eq_left (by omega)]
  rw [hwalk]
  constructor
  · intro hmem
    obtain ⟨d, hd, hid⟩ := List.mem_map.mp hmem
    obtain ⟨hd', hnewest⟩ := (mem_newestOfPeriods newer_asymm h.ordered).mp hd
    rwa [h.eq_of_id hd' hc hid] at hnewest
  · intro hnewest
    exact List.mem_map_of_mem ((mem_newestOfPeriods newer_asymm h.ordered).mpr ⟨hc, hnewest⟩)

theorem mem_head (h : Sorted candidates) (hc : c ∈ candidates) :
    c.id ∈ (candidates.head?.map BackupCandidate.id).toList ↔
      ∀ d ∈ candidates, newer d c = false := by
  cases candidates with
  | nil => cases hc
  | cons first rest =>
    rw [List.head?_cons, Option.map_some, Option.toList_some, List.mem_singleton]
    have hfirst := (List.pairwise_cons.mp h.ordered).1
    constructor
    · intro hid
      obtain rfl := h.eq_of_id hc List.mem_cons_self hid
      intro d hd
      rcases List.mem_cons.mp hd with rfl | hd
      · cases hself : newer d d with
        | false => rfl
        | true => exact hself.symm.trans (newer_asymm d d hself)
      · exact newer_asymm c d (hfirst d hd)
    · intro hnone
      rcases List.mem_cons.mp hc with rfl | hc
      · rfl
      · have hnewer := hfirst c hc
        rw [hnone first List.mem_cons_self] at hnewer
        cases hnewer

/-- The cutoff that the pass computes. -/
def cutoffOf (request : PruneRequest) (clock : Timestamp) : Except String (Option Timestamp) :=
  if request.grace_hours > 0 then
    (hours_before (request.now.getD clock) request.grace_hours.toNat).map some
  else .ok none

theorem inGrace_iff {cutoff : Option Timestamp} (h : cutoffOf request clock = .ok cutoff) :
    InGrace request clock c ↔ cutoff.any (· ≤ c.published_at) = true := by
  rw [cutoffOf] at h
  by_cases hgrace : request.grace_hours > 0
  · rw [if_pos hgrace] at h
    cases hhours : hours_before (request.now.getD clock) request.grace_hours.toNat with
    | error e =>
      rw [hhours] at h
      cases h
    | ok t =>
      rw [hhours] at h
      obtain rfl : some t = cutoff := Except.ok.inj h
      simp [InGrace, hgrace, hhours]
  · rw [if_neg hgrace] at h
    obtain rfl : none = cutoff := Except.ok.inj h
    simp [InGrace, hgrace]

/-- The retained identifiers are those of the policy. -/
theorem mem_retained_ids {cutoff : Option Timestamp} (h : Sorted candidates)
    (hcutoff : cutoffOf request clock = .ok cutoff) (hc : c ∈ candidates) :
    c.id ∈ retained_ids request cutoff candidates ↔ Kept request clock candidates c := by
  have hfresh : c.id ∈ (candidates.filter fun d => cutoff.any (· ≤ d.published_at)).map
      BackupCandidate.id ↔ InGrace request clock c := by
    rw [inGrace_iff hcutoff]
    constructor
    · intro hmem
      obtain ⟨d, hd, hid⟩ := List.mem_map.mp hmem
      obtain ⟨hd, hpublished⟩ := List.mem_filter.mp hd
      rwa [h.eq_of_id hd hc hid] at hpublished
    · intro hpublished
      exact List.mem_map_of_mem (List.mem_filter.mpr ⟨hc, hpublished⟩)
  have hlatest : c.id ∈ (if request.keep_latest then
      (candidates.head?.map BackupCandidate.id).toList else []) ↔
        request.keep_latest = true ∧ ∀ d ∈ candidates, newer d c = false := by
    cases request.keep_latest with
    | false => simp
    | true => simpa using mem_head h hc
  rw [retained_ids, List.mem_append, List.mem_append, mem_select, selected_ids, List.mem_append,
    List.mem_append, List.mem_append, hfresh, hlatest, mem_retain_periods h hc,
    mem_retain_periods h hc, mem_retain_periods h hc, Kept]
  tauto

theorem InTier.mono {β : Type} [DecidableEq β] {period : Timestamp → β} {count more : ℤ}
    (h : InTier period count candidates c) (hle : count ≤ more) :
    InTier period more candidates c :=
  NewestOfPeriod.mono h (Int.toNat_le_toNat hle)

/-- Larger counts keep more. -/
theorem Kept.mono {daily weekly monthly : ℤ} (h : Kept request clock candidates c)
    (hdaily : request.daily ≤ daily) (hweekly : request.weekly ≤ weekly)
    (hmonthly : request.monthly ≤ monthly) :
    Kept { request with daily := daily, weekly := weekly, monthly := monthly } clock candidates
      c := by
  rcases h with hprotected | hgrace | hlatest | hday | hweek | hmonth
  · exact Or.inl hprotected
  · exact Or.inr (Or.inl hgrace)
  · exact Or.inr (Or.inr (Or.inl hlatest))
  · exact Or.inr (Or.inr (Or.inr (Or.inl (hday.mono hdaily))))
  · exact Or.inr (Or.inr (Or.inr (Or.inr (Or.inl (hweek.mono hweekly)))))
  · exact Or.inr (Or.inr (Or.inr (Or.inr (Or.inr (hmonth.mono hmonthly)))))

end Selection

/-! ## The metadata index -/

/-- The index files of an environment and its latest pointer refer to backups of `P`. -/
structure RefersTo (f : Formats) (now : Timestamp) (environment : String) (P : String → Prop)
    (s : Disk) : Prop where
  index : ∀ name text m, s.index name = some text → isIndexFile name = true →
    f.model_validate_json now text = .ok m → m.environment = environment → P m.backup_id
  latest : ∀ text m, s.index (latestName environment) = some text →
    f.model_validate_json now text = .ok m → P m.backup_id

section Index

variable {f : Formats} {now : Timestamp} {s t u : Disk} {environment : String}
  {desired : List (String × BackupManifest)} {manifests : List BackupManifest}

/-- Everything but the index is as it was. -/
def SameDirectories (s t : Disk) : Prop := t.directories = s.directories ∧ t.clock = s.clock

theorem SameDirectories.trans (h : SameDirectories s t) (k : SameDirectories t u) :
    SameDirectories s u := ⟨k.1.trans h.1, k.2.trans h.2⟩

/-- While the index is written nothing is removed. -/
def Writes (s : Disk) (o : PruneCall) (u : Disk) : Prop :=
  SameDirectories s u ∧ ∀ path, o ≠ .remove_tree path

theorem desired_ok {before after : List (String × BackupManifest)}
    (h : desired_manifests environment before manifests = .ok after) :
    after = before ++ manifests.map fun m => (m.backup_id, m) := by
  induction manifests generalizing before with
  | nil =>
    obtain rfl := Except.ok.inj h
    simp
  | cons m rest ih =>
    rw [desired_manifests] at h
    split at h
    · cases h
    · obtain ⟨safe_id, hsafe, h⟩ := CheckedLists.bind_eq_ok.mp h
      split at h
      · cases h
      · have hid : safe_id = m.backup_id := by
          rw [safe_backup_component] at hsafe
          split at hsafe
          · cases hsafe
          · exact (Except.ok.inj hsafe).symm
        rw [ih h, hid, List.append_assoc]
        rfl

theorem lookup_desired {backup_id : String} :
    ((manifests.map fun m => (m.backup_id, m)).lookup backup_id).isNone = false ↔
      ∃ m ∈ manifests, m.backup_id = backup_id := by
  induction manifests with
  | nil => simp
  | cons m rest ih =>
    rw [List.map_cons, List.lookup_cons]
    cases hid : backup_id == m.backup_id with
    | true =>
      have heq := eq_of_beq hid
      simp [heq]
    | false =>
      have hne : m.backup_id ≠ backup_id := fun heq => by simp [heq] at hid
      simp only [ih, List.mem_cons, exists_eq_or_imp, hne, false_or]

theorem mem_of_lookup {backup_id : String} {m : BackupManifest}
    (h : (manifests.map fun m => (m.backup_id, m)).lookup backup_id = some m) :
    m ∈ manifests ∧ m.backup_id = backup_id := by
  induction manifests with
  | nil => cases h
  | cons n rest ih =>
    rw [List.map_cons, List.lookup_cons] at h
    cases hid : backup_id == n.backup_id with
    | true =>
      simp only [hid] at h
      obtain rfl := Option.some.inj h
      exact ⟨List.mem_cons_self, (eq_of_beq hid).symm⟩
    | false =>
      simp only [hid] at h
      obtain ⟨hm, heq⟩ := ih h
      exact ⟨List.mem_cons_of_mem n hm, heq⟩

/-- Files were taken away, and none but these. -/
def Shrunk (s t : Disk) : Prop :=
  SameDirectories s t ∧ ∀ name, t.index name = s.index name ∨ t.index name = none

theorem Shrunk.refl (s : Disk) : Shrunk s s := ⟨⟨rfl, rfl⟩, fun _ => Or.inl rfl⟩

theorem Shrunk.trans (h : Shrunk s t) (k : Shrunk t u) : Shrunk s u := by
  refine ⟨h.1.trans k.1, ?_⟩
  intro name
  rcases k.2 name with hk | hk
  · rw [hk]
    exact h.2 name
  · exact Or.inr hk

theorem shrunk_put (s : Disk) (name : String) : Shrunk s (s.put name none) := by
  refine ⟨⟨rfl, rfl⟩, ?_⟩
  intro other
  by_cases h : other = name
  · subst h
    exact Or.inr (Function.update_self _ _ _)
  · exact Or.inl (Function.update_of_ne h _ _)

theorem wp_unlink_stale {files : List (String × Body)} (hs : SameDirectories s t) :
    wp diskWorld (Writes s) (unlink_stale f now environment desired files) (fun r u =>
      Shrunk t u ∧ (r = .ok () → ∀ file ∈ files, isIndexFile file.1 = true →
        isStale f now environment desired file.2 = true → u.index file.1 = none)) t := by
  induction files generalizing t with
  | nil => exact ⟨Shrunk.refl t, fun _ file hfile => by cases hfile⟩
  | cons file rest ih =>
    obtain ⟨name, text⟩ := file
    have hunlinked : wp diskWorld (Writes s) (unlink_if_stale f now environment desired name text)
        (fun r u => Shrunk t u ∧ (r = .ok () → isIndexFile name = true →
          isStale f now environment desired text = true → u.index name = none)) t := by
      rw [unlink_if_stale]
      by_cases hcase : isIndexFile name = true ∧ isStale f now environment desired text = true
      · rw [if_pos hcase]
        apply wp_perform.mpr
        refine ⟨⟨hs, fun path h => by cases h⟩, ?_⟩
        rintro r u (rfl | ⟨⟨e, rfl⟩, rfl⟩)
        · exact ⟨shrunk_put t name, fun _ _ _ => Function.update_self _ _ _⟩
        · exact ⟨Shrunk.refl u, fun h => by cases h⟩
      · rw [if_neg hcase]
        exact ⟨Shrunk.refl t, fun _ hfile hstale => absurd ⟨hfile, hstale⟩ hcase⟩
    rw [unlink_stale]
    apply wp_seq hunlinked
    · exact fun e u hu => ⟨hu.1, fun h => by cases h⟩
    intro _ u hu
    apply wp_post (ih (hs.trans hu.1.1))
    intro r v hv
    refine ⟨hu.1.trans hv.1, ?_⟩
    intro hr other hother hfile hstale
    rcases List.mem_cons.mp hother with rfl | hother
    · rcases hv.1.2 name with hsame | hgone
      · rw [hsame]
        exact hu.2 rfl hfile hstale
      · exact hgone
    · exact hv.2 hr other hother hfile hstale

/-- A file is as it was, or has a desired manifest. -/
def Rewritten (desired : List (String × BackupManifest)) (s t : Disk) : Prop :=
  SameDirectories s t ∧ ∀ name, t.index name = s.index name ∨
    ∃ item ∈ desired, t.index name = some (.manifest item.2)

theorem wp_write_desired {all : List (String × BackupManifest)} (hsub : desired ⊆ all)
    (hs : SameDirectories s t) :
    wp diskWorld (Writes s) (write_desired desired) (fun _ u => Rewritten all t u) t := by
  induction desired generalizing t with
  | nil => exact ⟨⟨rfl, rfl⟩, fun _ => Or.inl rfl⟩
  | cons item rest ih =>
    obtain ⟨backup_id, manifest⟩ := item
    have hwritten : wp diskWorld (Writes s) (write_atomic (backup_id ++ ".json") manifest)
        (fun _ u => Rewritten all t u) t := by
      apply wp_perform.mpr
      refine ⟨⟨hs, fun path h => by cases h⟩, ?_⟩
      rintro r u (rfl | ⟨-, rfl⟩)
      · refine ⟨⟨rfl, rfl⟩, ?_⟩
        intro name
        by_cases h : name = backup_id ++ ".json"
        · subst h
          exact Or.inr ⟨(backup_id, manifest), hsub List.mem_cons_self, Function.update_self _ _ _⟩
        · exact Or.inl (Function.update_of_ne h _ _)
      · exact ⟨⟨rfl, rfl⟩, fun _ => Or.inl rfl⟩
    rw [write_desired]
    apply wp_seq hwritten
    · exact fun e u hu => hu
    intro _ u hu
    apply wp_post (ih (fun _ h => hsub (List.mem_cons_of_mem _ h)) (hs.trans hu.1))
    intro r v hv
    refine ⟨hu.1.trans hv.1, ?_⟩
    intro name
    rcases hv.2 name with hsame | hnew
    · rw [hsame]
      exact hu.2 name
    · exact Or.inr hnew

theorem latest_no_index (environment : String) : isIndexFile (latestName environment) = false := by
  have hsuffix : "-latest.json".toList.isSuffixOf (latestName environment).toList = true := by
    rw [List.isSuffixOf_iff_suffix, latestName, String.toList_append]
    exact List.suffix_append _ _
  rw [isIndexFile, hsuffix, Bool.not_true, Bool.and_false]

theorem validate_written (m : BackupManifest) :
    f.model_validate_json now (.manifest m) = .ok m := by
  simp [Formats.model_validate_json, Formats.loads, model_validate_toItems]

/-- The index files after the unlinking and the writing, whatever becomes of the pointer. -/
theorem refers_after {listed : List (String × Body)}
    (hlisted : ∀ name body, (name, body) ∈ listed ↔
      s.index name = some body ∧ ".json".toList.isSuffixOf name.toList = true)
    (hdesired : desired = manifests.map fun m => (m.backup_id, m))
    (hshrunk : Shrunk s t)
    (hstale : ∀ file ∈ listed, isIndexFile file.1 = true →
      isStale f now environment desired file.2 = true → t.index file.1 = none)
    (hwritten : Rewritten desired t u) {name : String} {text : Body} {m : BackupManifest}
    (hname : u.index name = some text) (hfile : isIndexFile name = true)
    (hvalid : f.model_validate_json now text = .ok m) (henv : m.environment = environment) :
    ∃ n ∈ manifests, n.backup_id = m.backup_id := by
  rcases hwritten.2 name with hsame | ⟨item, hitem, hnew⟩
  · rw [hname] at hsame
    have hold : s.index name = some text := by
      rcases hshrunk.2 name with hkept | hgone
      · rw [← hkept, ← hsame]
      · rw [hgone] at hsame
        cases hsame
    have hjson : ".json".toList.isSuffixOf name.toList = true := by
      rw [isIndexFile, Bool.and_eq_true] at hfile
      exact hfile.1
    have hmem : (name, text) ∈ listed := (hlisted name text).mpr ⟨hold, hjson⟩
    have hfresh : isStale f now environment desired text = false := by
      cases hcase : isStale f now environment desired text with
      | false => rfl
      | true =>
        rw [hstale (name, text) hmem hfile hcase] at hsame
        cases hsame
    rw [isStale, hvalid] at hfresh
    simp only [henv, decide_true, Bool.true_and] at hfresh
    rw [hdesired] at hfresh
    exact lookup_desired.mp hfresh
  · rw [hname] at hnew
    obtain rfl := Option.some.inj hnew
    obtain rfl : item.2 = m := Except.ok.inj ((validate_written item.2).symm.trans hvalid)
    rw [hdesired] at hitem
    obtain ⟨n, hn, rfl⟩ := List.mem_map.mp hitem
    exact ⟨n, hn, rfl⟩

theorem index_put_self {name : String} {body : Option Body} :
    (s.put name body).index name = body := Function.update_self _ _ _

theorem index_put {name other : String} {body : Option Body} (h : other ≠ name) :
    (s.put name body).index other = s.index other := Function.update_of_ne h _ _

/-- After the synchronization the index refers to the given manifests only. -/
theorem wp_synchronize_manifests {latest_backup_id : Option String} :
    wp diskWorld (Writes s) (synchronize_backup_manifests f now environment manifests
      latest_backup_id) (fun r u => SameDirectories s u ∧ (r = .ok () →
        RefersTo f now environment (fun i => ∃ m ∈ manifests, m.backup_id = i) u)) s := by
  have hsame : SameDirectories s s := ⟨rfl, rfl⟩
  rw [synchronize_backup_manifests]
  apply wp_ofExcept_seq
  · exact fun e _ => ⟨hsame, fun h => by cases h⟩
  intro safe_environment hsafe
  obtain rfl : environment = safe_environment := by
    rw [safe_backup_component] at hsafe
    split at hsafe
    · cases hsafe
    · exact Except.ok.inj hsafe
  apply wp_ofExcept_seq
  · exact fun e _ => ⟨hsame, fun h => by cases h⟩
  intro desired hdesired
  have hpairs : desired = manifests.map fun m => (m.backup_id, m) := by
    simpa using desired_ok hdesired
  have hread : wp diskWorld (Writes s) (ask .index_files) (fun r t => t = s ∧
      ∀ l : List (String × Body), r = .ok l → ∀ name body, (name, body) ∈ l ↔
        s.index name = some body ∧ ".json".toList.isSuffixOf name.toList = true) s :=
    wp_perform.mpr ⟨⟨hsame, fun path h => by cases h⟩, fun r t h => h⟩
  apply wp_seq hread
  · rintro e t ⟨rfl, -⟩
    exact ⟨hsame, fun h => by cases h⟩
  rintro listed t ⟨rfl, hlisted⟩
  apply wp_seq (wp_unlink_stale hsame)
  · exact fun e u hu => ⟨hu.1.1, fun h => by cases h⟩
  intro _ u hu
  apply wp_seq (wp_write_desired (List.Subset.refl desired) hu.1.1)
  · exact fun e v hv => ⟨hu.1.1.trans hv.1, fun h => by cases h⟩
  intro _ v hv
  have hdirs : SameDirectories t v := hu.1.1.trans hv.1
  have hindex := fun name text m => @refers_after f now t u v environment desired manifests listed
    (hlisted listed rfl) hpairs hu.1 (hu.2 rfl) hv name text m
  have hput : ∀ body name text m, (v.put (latestName environment) body).index name = some text →
      isIndexFile name = true → f.model_validate_json now text = .ok m →
      m.environment = environment → ∃ n ∈ manifests, n.backup_id = m.backup_id := by
    intro body name text m hname hfile
    have hne : name ≠ latestName environment := by
      rintro rfl
      rw [latest_no_index] at hfile
      cases hfile
    rw [index_put hne] at hname
    exact hindex name text m hname hfile
  rw [settle_latest]
  by_cases hnone : desired = []
  · -- no manifest is left: the pointer goes
    rw [if_pos hnone]
    have hgone : wp diskWorld (Writes t) (unlink (latestName environment)) (fun r w =>
        SameDirectories t w ∧ (r = .ok () → w = v.put (latestName environment) none)) v := by
      apply wp_perform.mpr
      refine ⟨⟨hdirs, fun path h => by cases h⟩, ?_⟩
      rintro r w (rfl | ⟨⟨e, rfl⟩, rfl⟩)
      · exact ⟨hdirs, fun _ => rfl⟩
      · exact ⟨hdirs, fun h => by cases h⟩
    apply wp_seq hgone
    · exact fun e w hw => ⟨hw.1, fun h => by cases h⟩
    intro _ w hw
    apply wp_perform.mpr
    refine ⟨⟨hw.1, fun path h => by cases h⟩, ?_⟩
    rintro r x rfl
    refine ⟨hw.1, fun _ => ?_⟩
    rw [hw.2 rfl]
    refine ⟨fun name text m => hput none name text m, ?_⟩
    intro text m htext
    rw [index_put_self] at htext
    cases htext
  · -- the pointer is written last
    rw [if_neg hnone, write_latest]
    apply wp_ofExcept_seq
    · exact fun e _ => ⟨hdirs, fun h => by cases h⟩
    intro safe_latest_id _
    cases hlookup : desired.lookup safe_latest_id with
    | none => exact ⟨hdirs, fun h => by cases h⟩
    | some manifest =>
      apply wp_perform.mpr
      refine ⟨⟨hdirs, fun path h => by cases h⟩, ?_⟩
      rintro r w (rfl | ⟨⟨e, rfl⟩, rfl⟩)
      · refine ⟨hdirs, fun _ => ⟨fun name text m => hput _ name text m, ?_⟩⟩
        intro text m htext hvalid
        rw [index_put_self] at htext
        obtain rfl := Option.some.inj htext
        obtain rfl : manifest = m := Except.ok.inj ((validate_written manifest).symm.trans hvalid)
        rw [hpairs] at hlookup
        exact ⟨manifest, (mem_of_lookup hlookup).1, rfl⟩
      · exact ⟨hdirs, fun h => by cases h⟩

end Index

/-! ## The pass -/

section Pass

variable {f : Formats} {now : Timestamp} {request : PruneRequest} {s t u : Disk}

/-- The name of the directory of a candidate that the policy does not keep. -/
def Removable (f : Formats) (now : Timestamp) (request : PruneRequest) (s : Disk)
    (path : String) : Prop :=
  ∃ c ∈ candidatesOf f now request s, c.path = path ∧
    ¬ Kept request s.clock (candidatesOf f now request s) c

/-- An identifier of a candidate that the policy keeps. -/
def Retained (f : Formats) (now : Timestamp) (request : PruneRequest) (s : Disk)
    (backup_id : String) : Prop :=
  ∃ c ∈ candidatesOf f now request s, c.id = backup_id ∧
    Kept request s.clock (candidatesOf f now request s) c

/-- Every other entry of the directory is where it was. -/
def Spared (f : Formats) (now : Timestamp) (request : PruneRequest) (s t : Disk) : Prop :=
  ∀ d, ¬ Removable f now request s d.name → (d ∈ t.directories ↔ d ∈ s.directories)

/-- The metadata, if the pass has it, knows retained backups only. -/
def Synchronized (f : Formats) (now : Timestamp) (request : PruneRequest) (s t : Disk) : Prop :=
  request.metadata_store = true →
    RefersTo f now request.environment (Retained f now request s) t

/-- What holds when an operation is issued. -/
def Guarded (f : Formats) (now : Timestamp) (request : PruneRequest) (s : Disk) (o : PruneCall)
    (u : Disk) : Prop :=
  Spared f now request s u ∧ ∀ path, o = .remove_tree path →
    Removable f now request s path ∧ Synchronized f now request s u

theorem guarded_of_writes {o : PruneCall} (h : Writes s o u) : Guarded f now request s o u := by
  refine ⟨?_, fun path hpath => absurd hpath (h.2 path)⟩
  intro d _
  rw [h.1.1]

theorem removed_spared {path : String} (h : Spared f now request s t)
    (hpath : Removable f now request s path) (k : Removal path t u) :
    Spared f now request s u := by
  intro d hd
  have hne : d.name ≠ path := by
    rintro rfl
    exact hd hpath
  exact (k.2.2 d hne).trans (h d hd)

/-- The removals of a pass whose metadata is in order. -/
theorem wp_remove_all {kept : List String} {todo : List BackupCandidate}
    (htodo : ∀ c ∈ todo, c.id ∉ kept → Removable f now request s c.path)
    (hspared : Spared f now request s t) (hsync : Synchronized f now request s t) :
    wp diskWorld (Guarded f now request s) (remove_all kept todo) (fun r u =>
      Spared f now request s u ∧ ∀ removed, r = .ok removed →
        removed = (todo.filter fun c => c.id ∉ kept).map BackupCandidate.path ∧
        (∀ path ∈ removed, ∀ d ∈ u.directories, d.name ≠ path) ∧
        ∀ d ∈ u.directories, d ∈ t.directories ∨ d.name ∈ removed) t := by
  induction todo generalizing t with
  | nil =>
    refine ⟨hspared, ?_⟩
    intro removed hremoved
    obtain rfl := Except.ok.inj hremoved
    exact ⟨rfl, fun _ h => (by cases h), fun d hd => Or.inl hd⟩
  | cons c rest ih =>
    have hrest : ∀ d ∈ rest, d.id ∉ kept → Removable f now request s d.path :=
      fun d hd => htodo d (List.mem_cons_of_mem c hd)
    rw [remove_all]
    split
    · next hkept =>
      have hfilter : (c :: rest).filter (fun d => d.id ∉ kept) =
          rest.filter fun d => d.id ∉ kept := by simp [hkept]
      rw [hfilter]
      exact ih hrest hspared hsync
    · next hkept =>
      have hpath := htodo c List.mem_cons_self hkept
      have hfilter : (c :: rest).filter (fun d => d.id ∉ kept) =
          c :: rest.filter fun d => d.id ∉ kept := by simp [hkept]
      have hgone : wp diskWorld (Guarded f now request s) (ask (.remove_tree c.path)) (fun r v =>
          Removal c.path t v ∧ (r = .ok () → ∀ d ∈ v.directories, d.name ≠ c.path)) t := by
        apply wp_perform.mpr
        refine ⟨⟨hspared, ?_⟩, fun r v h => h⟩
        intro path heq
        obtain rfl := PruneCall.remove_tree.inj heq
        exact ⟨hpath, hsync⟩
      apply wp_seq hgone
      · exact fun e v hv => ⟨removed_spared hspared hpath hv.1, fun _ h => by cases h⟩
      intro _ v hv
      have hspared' := removed_spared hspared hpath hv.1
      have hsync' : Synchronized f now request s v := by
        intro hstore
        have hrefers := hsync hstore
        constructor
        · rw [hv.1.1]
          exact hrefers.index
        · rw [hv.1.1]
          exact hrefers.latest
      apply wp_seq (ih hrest hspared' hsync')
      · exact fun e w hw => ⟨hw.1, fun _ h => by cases h⟩
      intro removed w hw
      obtain ⟨hremoved, habsent, hnew⟩ := hw.2 removed rfl
      refine ⟨hw.1, ?_⟩
      intro all hall
      obtain rfl := Except.ok.inj hall
      refine ⟨by rw [hfilter, List.map_cons, hremoved], ?_, ?_⟩
      · intro path hmem d hd
        rcases List.mem_cons.mp hmem with rfl | hmem
        · intro hname
          rcases hnew d hd with hold | hlater
          · exact hv.2 rfl d hold hname
          · exact habsent d.name hlater d hd rfl
        · exact habsent path hmem d hd
      · intro d hd
        rcases hnew d hd with hold | hlater
        · by_cases hname : d.name = c.path
          · exact Or.inr (List.mem_cons.mpr (Or.inl hname))
          · exact Or.inl ((hv.1.2.2 d hname).mp hold)
        · exact Or.inr (List.mem_cons_of_mem _ hlater)

theorem wp_fresh_cutoff :
    wp diskWorld (Guarded f now request s) (fresh_cutoff request) (fun r t => t = s ∧
      ∀ cutoff, r = .ok cutoff → cutoffOf request s.clock = .ok cutoff) s := by
  have hstart : ∀ o : PruneCall, (∀ path, o ≠ .remove_tree path) → Guarded f now request s o s :=
    fun o ho => ⟨fun _ _ => Iff.rfl, fun path h => absurd h (ho path)⟩
  have htime : wp diskWorld (Guarded f now request s) (current_time request) (fun r t => t = s ∧
      ∀ time, r = .ok time → time = request.now.getD s.clock) s := by
    rw [current_time]
    cases request.now with
    | some time =>
      refine ⟨rfl, ?_⟩
      intro t ht
      exact (Except.ok.inj ht).symm
    | none => exact wp_perform.mpr ⟨hstart _ fun path h => (by cases h), fun r t h => h⟩
  rw [fresh_cutoff, cutoffOf]
  split
  · apply wp_seq htime
    · exact fun e t ht => ⟨ht.1, fun _ h => by cases h⟩
    rintro time t ⟨rfl, hnow⟩
    obtain rfl := hnow time rfl
    apply wp_ofExcept_seq
    · exact fun e _ => ⟨rfl, fun _ h => by cases h⟩
    intro cutoff hcutoff
    refine ⟨rfl, ?_⟩
    intro c hc
    obtain rfl : some cutoff = c := Except.ok.inj hc
    rw [hcutoff]
    rfl
  · exact ⟨rfl, fun cutoff h => h⟩

theorem wp_synchronize {kept : List String}
    (hkept : ∀ c ∈ candidatesOf f now request s, c.id ∈ kept →
      Kept request s.clock (candidatesOf f now request s) c) :
    wp diskWorld (Guarded f now request s)
      (synchronize f now request ((candidatesOf f now request s).filter fun c => c.id ∈ kept))
      (fun r t => Spared f now request s t ∧ (r = .ok () → Synchronized f now request s t)) s := by
  rw [synchronize]
  split
  · apply wp_mono wp_synchronize_manifests (fun o u h => guarded_of_writes h)
    rintro r t ⟨hsame, hrefers⟩
    refine ⟨fun d _ => by rw [hsame.1], ?_⟩
    intro hr _
    have hretained : ∀ i, (∃ m ∈ ((candidatesOf f now request s).filter fun c => c.id ∈ kept).map
        BackupCandidate.manifest, m.backup_id = i) → Retained f now request s i := by
      rintro i ⟨m, hm, rfl⟩
      obtain ⟨c, hc, rfl⟩ := List.mem_map.mp hm
      obtain ⟨hc, hid⟩ := List.mem_filter.mp hc
      exact ⟨c, hc, rfl, hkept c hc (of_decide_eq_true hid)⟩
    have hindexed := hrefers hr
    exact ⟨fun name text m hname hfile hvalid henv =>
        hretained _ (hindexed.index name text m hname hfile hvalid henv),
      fun text m htext hvalid => hretained _ (hindexed.latest text m htext hvalid)⟩
  · next hstore => exact ⟨fun _ _ => Iff.rfl, fun _ h => absurd h hstore⟩

theorem wp_prune (hnames : (s.directories.map BackupDirectory.name).Nodup) :
    wp diskWorld (Guarded f now request s) (prune_backups_gfs f now request) (fun r t =>
      Spared f now request s t ∧ ∀ removed, r = .ok removed →
        (∀ path, path ∈ removed ↔ Removable f now request s path) ∧
        ∀ d ∈ t.directories, ¬ Removable f now request s d.name) s := by
  have hlist : wp diskWorld (Guarded f now request s) (ask .iterdir) (fun r t => t = s ∧
      ∀ l, r = .ok l → l.Perm s.directories) s := by
    apply wp_perform.mpr
    exact ⟨⟨fun _ _ => Iff.rfl, fun path h => by cases h⟩, fun r t h => h⟩
  rw [prune_backups_gfs]
  apply wp_seq hlist
  · rintro e t ⟨rfl, -⟩
    exact ⟨fun _ _ => Iff.rfl, fun _ h => by cases h⟩
  rintro directories t ⟨rfl, hperm⟩
  have hcandidates : backup_candidates f now request.environment (some request.project)
      directories = candidatesOf f now request t := candidates_of_perm hnames (hperm _ rfl)
  have hsorted : Sorted (candidatesOf f now request t) := sorted_candidates hnames
  dsimp only
  rw [hcandidates]
  apply wp_seq wp_fresh_cutoff
  · rintro e u ⟨rfl, -⟩
    exact ⟨fun _ _ => Iff.rfl, fun _ h => by cases h⟩
  rintro cutoff u ⟨rfl, hcutoff⟩
  have hkept : ∀ c ∈ candidatesOf f now request u,
      c.id ∈ retained_ids request cutoff (candidatesOf f now request u) ↔
        Kept request u.clock (candidatesOf f now request u) c :=
    fun c hc => mem_retained_ids hsorted (hcutoff cutoff rfl) hc
  have holdest : ∀ c, c ∈ oldest_first (candidatesOf f now request u) ↔
      c ∈ candidatesOf f now request u := fun c => (List.perm_insertionSort _ _).mem_iff
  apply wp_seq (wp_synchronize fun c hc => (hkept c hc).mp)
  · exact fun e v hv => ⟨hv.1, fun _ h => by cases h⟩
  intro _ v hv
  have htodo : ∀ c ∈ oldest_first (candidatesOf f now request u),
      c.id ∉ retained_ids request cutoff (candidatesOf f now request u) →
        Removable f now request u c.path := by
    intro c hc hnot
    have hmem := (holdest c).mp hc
    exact ⟨c, hmem, rfl, fun h => hnot ((hkept c hmem).mpr h)⟩
  apply wp_post (wp_remove_all htodo hv.1 (hv.2 rfl))
  intro r w hw
  refine ⟨hw.1, ?_⟩
  intro removed hr
  obtain ⟨hremoved, habsent, -⟩ := hw.2 removed hr
  have hexact : ∀ path, path ∈ removed ↔ Removable f now request u path := by
    intro path
    rw [hremoved, List.mem_map]
    constructor
    · rintro ⟨c, hc, rfl⟩
      obtain ⟨hc, hnot⟩ := List.mem_filter.mp hc
      exact htodo c hc (of_decide_eq_true hnot)
    · rintro ⟨c, hc, rfl, hnot⟩
      refine ⟨c, List.mem_filter.mpr ⟨(holdest c).mpr hc, decide_eq_true ?_⟩, rfl⟩
      exact fun h => hnot ((hkept c hc).mp h)
  exact ⟨hexact, fun d hd h => habsent d.name ((hexact _).mpr h) d hd rfl⟩

end Pass

def backupDirectory (m : BackupManifest) (published : Timestamp) : BackupDirectory :=
  ⟨m.backup_id, true, false, some (.manifest m, published)⟩

def oneDay : Disk where
  directories := [backupDirectory morning (hours 9), backupDirectory evening (hours 18)]
  index := fun name => if name = "production_1.json" then some (.manifest morning) else none
  clock := hours 20

def keepOneDay : PruneRequest where
  environment := "production"
  daily := 1
  weekly := 0
  monthly := 0
  project := "acme"
  metadata_store := true

end BackupPruningSafety
