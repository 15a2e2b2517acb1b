import Odooctl.AwsSnapshots
import Odooctl.CheckedLists
import Odooctl.SnapshotIndex

/-!
# Accounting for the snapshots of EBS volumes

What the manifests of a set say of its snapshots through creation and reconciliation. AWS is
assumed to keep the volume of a snapshot and to describe the snapshots that it is asked for.
-/
namespace SnapshotAccounting

open EffectPrograms ProgramRules PythonJson SnapshotService SnapshotIndex AwsSnapshots
open CheckedLists (mapM_eq_ok exists_of_mem_left exists_of_mem_right)

/-! ## What AWS is assumed to answer -/

/-- The record names its snapshot, and the volume that `owner` has for it. -/
def Named (owner : String → Option String) (item : Items) : Prop :=
  ∃ id, get item "SnapshotId" = some (.str id) ∧ id ≠ "" ∧ givenText item "VolumeId" = owner id

/-- The snapshot records of a reply. -/
def recordsOf (result : CommandResult) : List Items :=
  match result.stdout with
  | some (.dict data) =>
    match get data "Snapshots" with
    | some (.list items) => items.filterMap asDict
    | _ => []
  | _ => []

structure Truthful {τ : Type} (owner : String → Option String) (V : World Aws τ) : Prop where
  described : ∀ config ids tag check v result w,
    V (.run config (.describe_snapshots ids tag) check) v (.ok result) w →
      ∀ item ∈ recordsOf result, Named owner item ∧ (ids ≠ [] → snapshotIdOf item ∈ ids)
  created : ∀ config instance_id exclude description tags check v result w,
    V (.run config (.create_snapshots instance_id exclude description tags) check) v
        (.ok result) w →
      ∀ item ∈ recordsOf result, (given item "SnapshotId").isSome → Named owner item

/-! ## What the manifests say -/

/-- Every volume has one snapshot of its own, which is of that volume. -/
structure Located (owner : String → Option String) (resources : List SnapshotResource) : Prop where
  volumes : (resources.map (·.source_resource_id)).Nodup
  ids : (resources.map (·.snapshot_resource_id)).Nodup
  named : ∀ r ∈ resources, ∃ id, r.snapshot_resource_id = some id ∧ id ≠ "" ∧
    owner id = some r.source_resource_id

/-- The resources of a complete set. -/
structure Accounted (resources : List SnapshotResource) : Prop where
  some_volume : resources ≠ []
  volumes : (resources.map (·.source_resource_id)).Nodup
  ids : (resources.map (·.snapshot_resource_id)).Nodup
  named : ∀ r ∈ resources, ∃ id, r.snapshot_resource_id = some id ∧ id ≠ ""
  completed : ∀ r ∈ resources, r.state = "completed"

/-- No volume leaves the recorded scope or joins it, and no volume that has a snapshot gets
another one or none. -/
structure Keeps (resources later : List SnapshotResource) : Prop where
  ids : ∀ r ∈ resources, ∀ id, r.snapshot_resource_id = some id →
    ∀ r' ∈ later, r'.source_resource_id = r.source_resource_id → r'.snapshot_resource_id = some id
  scope : resources ≠ [] → ∀ volume, volume ∈ later.map (·.source_resource_id) ↔
    volume ∈ resources.map (·.source_resource_id)

/-- No volume has a snapshot or each has its own, and the latter where the set is complete. -/
structure Fits (owner : String → Option String) (resources : List SnapshotResource)
    (status : Status) : Prop where
  uniform : (∀ r ∈ resources, r.snapshot_resource_id = none) ∨ Located owner resources
  complete : status = .complete → resources ≠ [] ∧ Located owner resources ∧
    ∀ r ∈ resources, r.state = "completed"

section Records

variable {owner : String → Option String} {rs rs' rs'' : List SnapshotResource} {status : Status}

theorem Located.resource_eq (h : Located owner rs) {r r' : SnapshotResource} (hr : r ∈ rs)
    (hr' : r' ∈ rs) (hv : r.source_resource_id = r'.source_resource_id) : r = r' :=
  List.inj_on_of_nodup_map h.volumes hr hr' hv

theorem Fits.accounted (h : Fits owner rs .complete) : Accounted rs := by
  obtain ⟨hne, hlocated, hcompleted⟩ := h.complete rfl
  refine ⟨hne, hlocated.volumes, hlocated.ids, fun r hr => ?_, hcompleted⟩
  obtain ⟨id, hid, hid', -⟩ := hlocated.named r hr
  exact ⟨id, hid, hid'⟩

theorem Keeps.refl (h : Fits owner rs status) : Keeps rs rs := by
  refine ⟨?_, fun _ _ => Iff.rfl⟩
  intro r hr id hid r' hr' hv
  rcases h.uniform with hnone | hlocated
  · rw [hnone r hr] at hid
    cases hid
  · rw [hlocated.resource_eq hr' hr hv]
    exact hid

theorem Keeps.trans (h : Keeps rs rs') (k : Keeps rs' rs'') : Keeps rs rs'' := by
  have hne : rs ≠ [] → rs' ≠ [] := by
    rintro hrs rfl
    obtain ⟨r, hr⟩ := List.exists_mem_of_ne_nil rs hrs
    have hmem := (h.scope hrs r.source_resource_id).mpr (List.mem_map_of_mem hr)
    cases hmem
  constructor
  · intro r hr id hid r'' hr'' hv
    have hrs : rs ≠ [] := List.ne_nil_of_mem hr
    obtain ⟨r', hr', hv'⟩ := List.mem_map.mp
      ((h.scope hrs r.source_resource_id).mpr (List.mem_map_of_mem hr))
    exact k.ids r' hr' id (h.ids r hr id hid r' hr' hv') r'' hr'' (hv.trans hv'.symm)
  · intro hrs volume
    exact (k.scope (hne hrs) volume).trans (h.scope hrs volume)

/-- The resources have every snapshot among those that are asked for. -/
structure Covers (owner : String → Option String) (asked : List String)
    (resources : List SnapshotResource) : Prop where
  located : Located owner resources
  all : ∀ id ∈ asked, ∀ volume, owner id = some volume →
    ∃ r ∈ resources, r.snapshot_resource_id = some id ∧ r.source_resource_id = volume

/-- Snapshots of the same volumes among those that are asked for are the same snapshots. -/
theorem Covers.keeps {asked : List String} (h : Covers owner asked rs) (k : Located owner rs')
    (hv : ∀ volume, volume ∈ rs'.map (·.source_resource_id) ↔
      volume ∈ rs.map (·.source_resource_id))
    (hids : ∀ r ∈ rs', ∀ id, r.snapshot_resource_id = some id → id ∈ asked) :
    Keeps rs rs' ∧ Covers owner asked rs' := by
  have hkeeps : Keeps rs rs' := by
    refine ⟨?_, fun _ => hv⟩
    intro r hr id hid r' hr' hsame
    obtain ⟨id', hid', -, howner⟩ := k.named r' hr'
    obtain ⟨r₀, hr₀, hid₀, hv₀⟩ := h.all id' (hids r' hr' id' hid') _ howner
    have heq : r₀ = r := h.located.resource_eq hr₀ hr (hv₀.trans hsame)
    rw [hid', ← hid₀, heq, hid]
  refine ⟨hkeeps, k, fun id hid volume howner => ?_⟩
  obtain ⟨r, hr, hrid, hrv⟩ := h.all id hid volume howner
  obtain ⟨r', hr', hv'⟩ := List.mem_map.mp
    ((hv r.source_resource_id).mpr (List.mem_map_of_mem hr))
  exact ⟨r', hr', hkeeps.ids r hr id hrid r' hr' hv', hv'.trans hrv⟩

/-- Where no snapshot is known yet any may be. -/
theorem Keeps.of_none (h : ∀ r ∈ rs, r.snapshot_resource_id = none)
    (hv : rs ≠ [] → ∀ volume, volume ∈ rs'.map (·.source_resource_id) ↔
      volume ∈ rs.map (·.source_resource_id)) : Keeps rs rs' := by
  refine ⟨fun r hr id hid => ?_, hv⟩
  rw [h r hr] at hid
  cases hid

end Records

/-! ## The lists of resources -/

section Resources

variable {truncated : String → Except String ℤ} {owner : String → Option String}
  {config : AwsEbsSnapshotConfig} {source : Source} {described : List Items}
  {snapshot : ProviderSnapshot}

theorem volumes_expected (volume_metadata : List VolumeMetadata) :
    (expected volume_metadata).map (·.volume_id) =
      (volume_metadata.map (·.volume_id)).reverse.dedup.reverse := by
  rw [expected, List.map_filterMap]
  conv_rhs => rw [← List.filterMap_some (l := (List.reverse _))]
  refine List.filterMap_congr fun volume_id hmem => ?_
  have hmem : volume_id ∈ volume_metadata.map (·.volume_id) := by simpa using hmem
  obtain ⟨entry, hentry, hid⟩ := List.mem_map.mp hmem
  have hfound :
      (volume_metadata.reverse.find? fun source => source.volume_id = volume_id).isSome := by
    rw [List.find?_isSome]
    exact ⟨entry, by simpa using hentry, by simpa using hid⟩
  obtain ⟨found, hfound⟩ := Option.isSome_iff_exists.mp hfound
  have hsame := List.find?_some hfound
  simp only [decide_eq_true_eq] at hsame
  rw [hfound, Option.map_some, hsame]

theorem resourceOf_ok {volume : VolumeMetadata} {id : Option String} {state : String}
    {r : SnapshotResource} (h : resourceOf truncated volume id state = .ok r) :
    r.snapshot_resource_id = id ∧ r.source_resource_id = volume.volume_id ∧ r.state = state := by
  obtain ⟨size_gib, -, h⟩ := CheckedLists.bind_eq_ok.mp h
  obtain ⟨iops, -, h⟩ := CheckedLists.bind_eq_ok.mp h
  obtain ⟨throughput_mibps, -, h⟩ := CheckedLists.bind_eq_ok.mp h
  obtain rfl := Except.ok.inj h
  exact ⟨rfl, rfl, rfl⟩

theorem map_eq_of_forall₂ {α β γ : Type} {R : α → β → Prop} {f : α → γ} {g : β → γ}
    {l : List α} {bs : List β} (h : List.Forall₂ R l bs) (hR : ∀ a b, R a b → g b = f a) :
    bs.map g = l.map f := by
  induction h with
  | nil => rfl
  | cons hr _ ih => rw [List.map_cons, List.map_cons, hR _ _ hr, ih]

theorem resourceFrom_ok {candidates : List Items} {volume : VolumeMetadata}
    {r : SnapshotResource} (h : resourceFrom truncated candidates volume = .ok r) :
    r.source_resource_id = volume.volume_id ∧ ∃ item ∈ candidates,
      volumeOf item = volume.volume_id ∧ r.snapshot_resource_id = some (snapshotIdOf item) := by
  rw [resourceFrom] at h
  split at h
  · next item hitem =>
    obtain ⟨hid, hvolume, -⟩ := resourceOf_ok h
    have hsame := List.find?_some hitem
    exact ⟨hvolume, item, List.mem_of_find?_eq_some hitem, of_decide_eq_true hsame, hid⟩
  · cases h

/-- What an accepted description says of the records it was made from. -/
structure Describes (owner : String → Option String) (source : Source) (described : List Items)
    (snapshot : ProviderSnapshot) : Prop where
  located : Located owner snapshot.resources
  scope : ∀ volume, volume ∈ snapshot.resources.map (·.source_resource_id) ↔
    volume ∈ source.volume_metadata.map (·.volume_id)
  all : ∀ item ∈ described, ∀ volume, owner (snapshotIdOf item) = some volume →
    ∃ r ∈ snapshot.resources, r.snapshot_resource_id = some (snapshotIdOf item) ∧
      r.source_resource_id = volume
  from_records : ∀ r ∈ snapshot.resources, ∃ item ∈ described,
    r.snapshot_resource_id = some (snapshotIdOf item)
  status : snapshot.status = statusOf snapshot.resources

theorem given_text {item : Items} {key text : String}
    (h : PythonJson.get item key = some (.str text)) (hne : text ≠ "") :
    given item key = some (.str text) := by
  simp [given, h, BackupSelection.truthy, hne, Option.filter]

theorem Named.snapshotIdOf {item : Items} (h : Named owner item) :
    snapshotIdOf item ≠ "" ∧ givenText item "VolumeId" = owner (snapshotIdOf item) ∧
      (given item "SnapshotId").isSome := by
  obtain ⟨id, hid, hne, howner⟩ := h
  have hgiven := given_text hid hne
  have hsame : AwsSnapshots.snapshotIdOf item = id := by
    simp [AwsSnapshots.snapshotIdOf, givenText, hgiven, str]
  rw [hsame]
  exact ⟨hne, howner, by simp [hgiven]⟩

theorem Named.recordId {item : Items} (h : Named owner item) :
    recordId item = .ok (AwsSnapshots.snapshotIdOf item) := by
  obtain ⟨id, hid, hne, -⟩ := h
  simp [AwsSnapshots.recordId, hid, AwsSnapshots.snapshotIdOf, givenText, given_text hid hne, str]

/-- A candidate is a record of a snapshot that has a volume. -/
theorem mem_candidates (hnamed : ∀ item ∈ described, Named owner item) {item : Items} :
    item ∈ candidatesOf described ↔
      item ∈ described ∧ owner (snapshotIdOf item) = some (volumeOf item) := by
  rw [candidatesOf, List.mem_filter, Bool.and_eq_true]
  refine and_congr_right fun hitem => ?_
  obtain ⟨-, howner, hsome⟩ := (hnamed item hitem).snapshotIdOf
  rw [← howner, volumeOf, givenText]
  cases given item "VolumeId" with
  | none => simp
  | some v => simp [hsome]

theorem provider_snapshot_ok
    (h : provider_snapshot truncated config described source = .ok snapshot)
    (hnamed : ∀ item ∈ described, Named owner item) :
    Describes owner source described snapshot := by
  unfold provider_snapshot at h
  extract_lets volumes candidates at h
  split at h
  · cases h
  next heach =>
  obtain ⟨hlength, hvolumes, hids, hwithin, honto⟩ := not_not.mp heach
  obtain ⟨resources, hresources, h⟩ := CheckedLists.bind_eq_ok.mp h
  obtain rfl := Except.ok.inj h
  have hmap := mapM_eq_ok.mp hresources
  have hscope : resources.map (·.source_resource_id) = volumes.map (·.volume_id) :=
    map_eq_of_forall₂ hmap fun _ _ hr => (resourceFrom_ok hr).1
  have hnodup : (resources.map (·.source_resource_id)).Nodup := by
    rw [hscope, volumes_expected]
    exact List.nodup_reverse.mpr (List.nodup_dedup _)
  -- each resource is made from the candidate of its volume
  have hitem : ∀ r ∈ resources, ∃ item ∈ candidates, volumeOf item = r.source_resource_id ∧
      r.snapshot_resource_id = some (snapshotIdOf item) := by
    intro r hr
    obtain ⟨volume, -, hfrom⟩ := exists_of_mem_right hmap hr
    obtain ⟨hvolume, item, hitem, hsame, hid⟩ := resourceFrom_ok hfrom
    exact ⟨item, hitem, hsame.trans hvolume.symm, hid⟩
  refine ⟨⟨hnodup, ?_, ?_⟩, ?_, ?_, ?_, rfl⟩
  · refine List.Nodup.map_on ?_ (List.Nodup.of_map _ hnodup)
    intro r hr r' hr' hsame
    obtain ⟨item, hitem₁, hv, hid⟩ := hitem r hr
    obtain ⟨item', hitem₂, hv', hid'⟩ := hitem r' hr'
    have heq : item = item' := by
      apply List.inj_on_of_nodup_map hids hitem₁ hitem₂
      exact Option.some.inj (hid.symm.trans (hsame.trans hid'))
    apply List.inj_on_of_nodup_map hnodup hr hr'
    exact hv.symm.trans (heq ▸ hv')
  · intro r hr
    obtain ⟨item, hcandidate, hv, hid⟩ := hitem r hr
    obtain ⟨hdescribed, howner⟩ := (mem_candidates hnamed).mp hcandidate
    exact ⟨_, hid, (hnamed item hdescribed).snapshotIdOf.1, hv ▸ howner⟩
  · intro volume
    change volume ∈ resources.map _ ↔ _
    rw [hscope, volumes_expected]
    simp
  · intro item hdescribed volume howner
    have hcandidate : item ∈ candidates := by
      apply (mem_candidates hnamed).mpr
      refine ⟨hdescribed, ?_⟩
      rw [← (hnamed item hdescribed).snapshotIdOf.2.1] at howner ⊢
      simp [volumeOf, howner]
    have hvolume : volumeOf item = volume :=
      Option.some.inj (((mem_candidates hnamed).mp hcandidate).2.symm.trans howner)
    have hmem := hwithin (volumeOf item) (List.mem_map_of_mem hcandidate)
    rw [← hscope] at hmem
    obtain ⟨r, hr, hsource⟩ := List.mem_map.mp hmem
    obtain ⟨item', hcandidate', hv', hid'⟩ := hitem r hr
    have heq : item' = item :=
      List.inj_on_of_nodup_map hvolumes hcandidate' hcandidate (hv'.trans hsource)
    exact ⟨r, hr, heq ▸ hid', hsource.trans hvolume⟩
  · intro r hr
    obtain ⟨item, hcandidate, -, hid⟩ := hitem r hr
    exact ⟨item, ((mem_candidates hnamed).mp hcandidate).1, hid⟩

theorem fits_described (h : Describes owner source described snapshot)
    (hne : source.volume_metadata ≠ []) : Fits owner snapshot.resources snapshot.status := by
  refine ⟨Or.inr h.located, fun hcomplete => ⟨?_, h.located, ?_⟩⟩
  · rintro hnil
    obtain ⟨volume, hvolume⟩ := List.exists_mem_of_ne_nil _ hne
    have hmem := (h.scope volume.volume_id).mpr (List.mem_map_of_mem hvolume)
    rw [hnil] at hmem
    cases hmem
  · rw [h.status, statusOf] at hcomplete
    split at hcomplete
    · next hall =>
      intro r hr
      exact of_decide_eq_true (List.all_eq_true.mp hall r hr)
    · split at hcomplete <;> cases hcomplete

theorem requested_ok (h : requested_provider_snapshot truncated config source = .ok snapshot) :
    (∀ r ∈ snapshot.resources, r.snapshot_resource_id = none) ∧
      snapshot.resources.map (·.source_resource_id) =
        source.volume_metadata.map (·.volume_id) ∧ snapshot.status = .requested := by
  obtain ⟨resources, hresources, h⟩ := CheckedLists.bind_eq_ok.mp h
  obtain rfl := Except.ok.inj h
  have hmap := mapM_eq_ok.mp hresources
  refine ⟨fun r hr => ?_, ?_, rfl⟩
  · obtain ⟨volume, -, hr⟩ := exists_of_mem_right hmap hr
    exact (resourceOf_ok hr).1
  · exact map_eq_of_forall₂ hmap fun _ _ hr => (resourceOf_ok hr).2.1

end Resources

/-! ## The commands -/

section Commands

variable {τ α β : Type} {V : World Aws τ} {owner : String → Option String}
  {config : AwsEbsSnapshotConfig}

/-- From any state, whatever the program returns is as `R` says. -/
def Yields (V : World Aws τ) (p : AwsM α) (R : α → Prop) : Prop :=
  ∀ v, wp V (fun _ _ => True) p (fun r _ => ∀ a, r = .ok a → R a) v

theorem yields_any (p : AwsM α) : Yields V p fun _ => True :=
  fun v => wp_mono (wp_true p v) (fun _ _ h => h) fun _ _ _ _ _ => trivial

theorem yields_mono {p : AwsM α} {R S : α → Prop} (h : Yields V p R) (hR : ∀ a, R a → S a) :
    Yields V p S :=
  fun v => wp_post (h v) fun _ _ hr a ha => hR a (hr a ha)

theorem yields_pure {R : α → Prop} {a : α} (h : R a) : Yields V (.pure a) R := by
  intro v b hb
  exact Except.ok.inj hb ▸ h

theorem yields_raise {R : α → Prop} (e : String) : Yields V (.raise e) R := by
  intro v b hb
  cases hb

theorem yields_bind {p : AwsM β} {f : β → AwsM α} {R : β → Prop} {S : α → Prop}
    (h : Yields V p R) (hf : ∀ b, R b → Yields V (f b) S) : Yields V (p >>= f) S := by
  intro v
  refine wp_seq (h v) (fun e _ _ a ha => by cases ha) fun b w hb => ?_
  exact hf b (hb b rfl) w

theorem yields_ofExcept_bind {x : Except String β} {f : β → AwsM α} {S : α → Prop}
    (hf : ∀ b, x = .ok b → Yields V (f b) S) : Yields V (.ofExcept x >>= f) S := by
  cases x with
  | error e => exact yields_raise e
  | ok b => exact hf b rfl

theorem yields_attempt_bind {p : AwsM β} {f : Except String β → AwsM α} {R : β → Prop}
    {S : α → Prop} (h : Yields V p R) (hf : ∀ r, (∀ b, r = .ok b → R b) → Yields V (f r) S) :
    Yields V (p.attempt >>= f) S :=
  fun v => wp_attempt_seq (h v) fun r w hr => hf r hr w

theorem recordsOf_ok {result : CommandResult} {operation : String} {data : Items}
    {items : List Json} (h : asJson result operation = .ok data)
    (hitems : PythonJson.get data "Snapshots" = some (.list items)) :
    recordsOf result = items.filterMap asDict := by
  rw [asJson] at h
  split at h
  · next data' hstdout =>
    obtain rfl := Except.ok.inj h
    simp [recordsOf, hstdout, hitems]
  · cases h
  · cases h

theorem eq_ok_of_mapError {f : String → String} {x : Except String α} {a : α}
    (h : x.mapError f = .ok a) : x = .ok a := by
  cases x with
  | error e => cases h
  | ok b => exact congrArg Except.ok (Except.ok.inj h)

theorem yields_ok (x : Except String α) : Yields V (.ofExcept x) fun a => x = .ok a :=
  fun _ => wp_ofExcept.mpr fun _ h => h

theorem yields_describe_snapshots (hV : Truthful owner V) (ids : List String)
    (tag : Option String) : Yields V (describe_snapshots config ids tag) fun records =>
      ∀ item ∈ records, Named owner item ∧ (ids ≠ [] → snapshotIdOf item ∈ ids) := by
  have hrun : Yields V (run config (.describe_snapshots ids tag)) fun result =>
      ∀ item ∈ recordsOf result, Named owner item ∧ (ids ≠ [] → snapshotIdOf item ∈ ids) := by
    intro v
    apply wp_perform.mpr
    refine ⟨trivial, ?_⟩
    rintro r w hw result rfl
    exact hV.described config ids tag true v result w hw
  refine yields_bind hrun fun result hresult => ?_
  refine yields_ofExcept_bind fun data hdata => ?_
  split
  · next items hitems =>
    split
    · apply yields_pure
      intro item hitem
      apply hresult
      rw [recordsOf_ok hdata hitems]
      exact hitem
    · exact yields_raise _
  · exact yields_raise _

theorem yields_described (hV : Truthful owner V) (ids : List String) (tag : Option String) :
    Yields V (describe_snapshots config ids tag) fun records =>
      ∀ item ∈ records, Named owner item :=
  yields_mono (yields_describe_snapshots hV ids tag) fun _ h item hitem => (h item hitem).1

theorem created_records_ok {result : CommandResult} {records : List Items}
    (h : created_records (.ok result) = .ok records) {item : Items} (hitem : item ∈ records) :
    item ∈ recordsOf result ∧ (given item "SnapshotId").isSome := by
  rw [created_records] at h
  split at h
  · cases h
  split at h
  · cases h
  next data hdata =>
  split at h
  · next created hcreated =>
    dsimp only at h
    split at h
    · cases h
    split at h
    · obtain rfl := Except.ok.inj h
      obtain ⟨hmem, hsome⟩ := List.mem_filter.mp hitem
      rw [recordsOf_ok hdata hcreated]
      exact ⟨hmem, hsome⟩
    · cases h
  · cases h

/-- The records that a look has found, or what follows a look in vain. -/
theorem yields_found {r : Except String (List Items)}
    {next : AwsM (Except (Option String) (List Items))}
    (hr : ∀ records, r = .ok records → ∀ item ∈ records, Named owner item)
    (hnext : Yields V next fun r =>
      ∀ records, r = .ok records → ∀ item ∈ records, Named owner item) :
    Yields V (match r.toOption.filter (· ≠ []) with
      | some records => .pure (.ok records)
      | none => next) fun r => ∀ records, r = .ok records → ∀ item ∈ records, Named owner item := by
  cases hfound : r.toOption.filter (· ≠ []) with
  | none => exact hnext
  | some found =>
    obtain ⟨hsome, -⟩ := Option.filter_eq_some_iff.mp hfound
    apply yields_pure
    intro records hok
    cases r with
    | error e => cases hsome
    | ok b =>
      obtain rfl := Option.some.inj hsome
      obtain rfl := Except.ok.inj hok
      exact hr b rfl

theorem yields_reconcile_records (hV : Truthful owner V) (snapshot_id : String) (left : ℕ)
    (reconcile_error : Option String) :
    Yields V (reconcile_records config snapshot_id left reconcile_error) fun r =>
      ∀ records, r = .ok records → ∀ item ∈ records, Named owner item := by
  induction left generalizing reconcile_error with
  | zero =>
    rw [reconcile_records]
    refine yields_attempt_bind (yields_described hV [] _) fun r hr => ?_
    exact yields_found hr (yields_pure fun records hok => by cases hok)
  | succ left ih =>
    rw [reconcile_records]
    refine yields_attempt_bind (yields_described hV [] _) fun r hr => ?_
    exact yields_found hr (ih _)

theorem yields_create_records (hV : Truthful owner V) (request : SnapshotCreateRequest) :
    Yields V (create_snapshot_records config request) fun records =>
      ∀ item ∈ records, Named owner item := by
  have hrun : Yields V (run config (.create_snapshots config.instance_id
      (!config.include_root_volume) (String.ofList (request.description.toList.take 255))
      ⟨request.snapshot_id, request.project, request.environment⟩) false) fun result =>
      ∀ item ∈ recordsOf result, (given item "SnapshotId").isSome → Named owner item := by
    intro v
    apply wp_perform.mpr
    refine ⟨trivial, ?_⟩
    rintro r w hw result rfl
    exact hV.created _ _ _ _ _ _ v result w hw
  refine yields_attempt_bind hrun fun result hresult => ?_
  split
  · next records hrecords =>
    apply yields_pure
    intro item hitem
    cases result with
    | error e => cases hrecords
    | ok result =>
      obtain ⟨hmem, hsome⟩ := created_records_ok hrecords hitem
      exact hresult result rfl item hmem hsome
  · refine yields_bind (yields_any _) fun left _ => ?_
    refine yields_bind (yields_reconcile_records hV _ left none) fun r hr => ?_
    split
    · next records => exact yields_pure (hr records rfl)
    · exact yields_raise _

/-- The source of a snapshot has a volume. -/
theorem yields_source : Yields V (describe_source config) fun source =>
    source.volume_metadata ≠ [] := by
  refine yields_bind (yields_any _) fun result _ => ?_
  refine yields_ofExcept_bind fun data _ => ?_
  refine yields_ofExcept_bind fun reservations _ => ?_
  split
  split
  · exact yields_raise _
  refine yields_ofExcept_bind fun mappings _ => ?_
  extract_lets included
  split
  · exact yields_raise _
  next hincluded =>
  refine yields_bind (yields_any _) fun result _ => ?_
  refine yields_ofExcept_bind fun data _ => ?_
  refine yields_ofExcept_bind fun volumes _ => ?_
  extract_lets described by_id
  split
  · exact yields_raise _
  · exact yields_pure fun hnil => hincluded (List.map_eq_nil_iff.mp hnil)

end Commands

/-! ## Creating -/

/-- What a run asserts: the files fit, keep what they said at the beginning, and say no more
than the manifest that the run holds. -/
structure Books (owner : String → Option String) (start s : Index) : Prop where
  fit : ∀ stem n, s.files stem = some n → Fits owner n.resources n.status
  since : ∀ id ∈ start.created, ∀ m, start.files id = some m →
    ∃ n, s.files id = some n ∧ Keeps m.resources n.resources

structure Tallies (owner : String → Option String) (start : Index) (m : SnapshotManifest)
    (s : Index) : Prop where
  books : Books owner start s
  fits : Fits owner m.resources m.status
  keeps : ∀ n, s.files m.snapshot_id = some n → Keeps n.resources m.resources

section Asserts

variable {owner : String → Option String} {start s : Index} {m : SnapshotManifest}
  {p : ProviderSnapshot}

theorem asserts_tallies (hstart : Sound start) :
    Asserts (Tallies owner start) (Books owner start) where
  file := by
    intro m s hs ho h
    refine ⟨⟨?_, ?_⟩, h.fits, ?_⟩
    · intro stem n hn
      by_cases hstem : stem = m.snapshot_id
      · rw [hstem, files_self] at hn
        exact Option.some.inj hn ▸ h.fits
      · rw [files_other hstem] at hn
        exact h.books.fit stem n hn
    · intro id hid m₀ hm₀
      obtain ⟨n, hn, hkeeps⟩ := h.books.since id hid m₀ hm₀
      by_cases hsame : id = m.snapshot_id
      · subst hsame
        exact ⟨m, files_self, hkeeps.trans (h.keeps n hn)⟩
      · exact ⟨n, by rw [files_other hsame]; exact hn, hkeeps⟩
    · intro n hn
      rw [files_self] at hn
      exact Option.some.inj hn ▸ Keeps.refl h.fits
  latest := by
    intro m s hs ho _ h
    refine ⟨⟨?_, ?_⟩, h.fits, ?_⟩
    · intro stem n hn
      by_cases hstem : stem = latest_stem m.environment
      · rw [hstem, files_self] at hn
        exact Option.some.inj hn ▸ h.fits
      · rw [files_other hstem] at hn
        exact h.books.fit stem n hn
    · intro id hid m₀ hm₀
      rw [files_other (hstart.plain id hid _)]
      exact h.books.since id hid m₀ hm₀
    · intro n hn
      rw [files_other (hs.plain _ ho.created _)] at hn
      exact h.keeps n hn
  last_error := fun _ _ _ h => ⟨h.books, h.fits, h.keeps⟩
  always := fun _ _ h => h.books

theorem merges_tallies (hfits : Fits owner p.resources p.status)
    (hkeeps : Keeps m.resources p.resources) : Merges (Tallies owner start) m p :=
  fun _ _ _ h => ⟨h.books, hfits, fun n hn => (h.keeps n hn).trans hkeeps⟩

end Asserts

section Create

variable {τ α : Type} {V : World Aws τ} {owner : String → Option String} {start : Index}
  {truncated : String → Except String ℤ} {config : AwsEbsSnapshotConfig} {source : Source}
  {asked : List String} {m : SnapshotManifest} {v : τ}

/-- Where a creation stands: its manifest has a snapshot for each volume. -/
structure Tracks (owner : String → Option String) (source : Source) (asked : List String)
    (m : SnapshotManifest) : Prop where
  covers : Covers owner asked m.resources
  scope : ∀ volume, volume ∈ m.resources.map (·.source_resource_id) ↔
    volume ∈ source.volume_metadata.map (·.volume_id)

theorem wp_onAws {q : AwsM α} {R : α → Prop} {P : SnapshotManifest → Index → Prop}
    {Q : Except CreateFailure α → τ × SnapshotManifest → Prop} (h : Yields V q R)
    (herr : ∀ e w, Q (.error { message := e }) (w, m)) (hok : ∀ a w, R a → Q (.ok a) (w, m)) :
    wp (V.sum progressWorld) (Advances P) (onAws q) Q (v, m) := by
  apply wp_left.mpr
  apply wp_mapError.mpr
  refine wp_mono (h v) (fun _ _ _ => trivial) fun r w hr => ?_
  cases r with
  | error e => exact herr e w
  | ok a => exact hok a w (hr a rfl)

theorem wp_report {P : SnapshotManifest → Index → Prop} {snapshot : ProviderSnapshot}
    (h : Merges P m snapshot) :
    wp (V.sum progressWorld) (Advances P) (report snapshot)
      (fun r t => (∀ e, r = .error e → e.snapshot = none) ∧
        ∃ completed_at, t.2 = m.merged snapshot completed_at none) (v, m) := by
  apply wp_right.mpr
  apply wp_mapError.mpr
  apply wp_perform.mpr
  refine ⟨h, ?_⟩
  rintro r t ⟨completed_at, rfl⟩
  refine ⟨fun e he => ?_, completed_at, rfl⟩
  cases r with
  | ok u => cases he
  | error message => cases he; rfl

/-- The snapshots that are asked for, as they are described. -/
theorem yields_describe_set (hV : Truthful owner V) (hasked : asked ≠ []) :
    Yields V (describe_set truncated config source asked) fun snapshot =>
      ∃ described, Describes owner source described snapshot ∧
        ∀ item ∈ described, snapshotIdOf item ∈ asked := by
  refine yields_bind (yields_describe_snapshots hV asked none) fun described h => ?_
  intro v
  apply wp_ofExcept.mpr
  intro snapshot hsnapshot
  exact ⟨described, provider_snapshot_ok hsnapshot fun item hitem => (h item hitem).1,
    fun item hitem => (h item hitem).2 hasked⟩

theorem Tracks.describes {described : List Items} {snapshot : ProviderSnapshot}
    (h : Tracks owner source asked m) (hd : Describes owner source described snapshot)
    (hasked : ∀ item ∈ described, snapshotIdOf item ∈ asked) (completed_at : Option String) :
    Keeps m.resources snapshot.resources ∧
      Tracks owner source asked (m.merged snapshot completed_at none) := by
  obtain ⟨hkeeps, hcovers⟩ := h.covers.keeps hd.located
    (fun volume => (hd.scope volume).trans (h.scope volume).symm) (fun r hr id hid => by
      obtain ⟨item, hitem, hsame⟩ := hd.from_records r hr
      rw [Option.some.inj (hid.symm.trans hsame)]
      exact hasked item hitem)
  exact ⟨hkeeps, hcovers, hd.scope⟩

theorem concludes_none {P : SnapshotManifest → Index → Prop} (e : String)
    (t : τ × SnapshotManifest) : Concludes P (.error { message := e }) t := by
  intro snapshot h
  cases h

theorem merges_self {snapshot : ProviderSnapshot}
    (hfits : Fits owner snapshot.resources snapshot.status)
    (h : ∃ completed_at, ∃ n : SnapshotManifest, m = n.merged snapshot completed_at none) :
    Merges (Tallies owner start) m snapshot := by
  obtain ⟨completed_at, n, rfl⟩ := h
  exact merges_tallies hfits (Keeps.refl hfits)

theorem wp_poll_round (hV : Truthful owner V) (hasked : asked ≠ [])
    (hsource : source.volume_metadata ≠ []) (hm : Tracks owner source asked m) :
    wp (V.sum progressWorld) (Advances (Tallies owner start))
      (poll_round truncated config source asked)
      (fun r t => Concludes (Tallies owner start) r t ∧
        ∀ snapshot, r = .ok snapshot → Tracks owner source asked t.2) (v, m) := by
  have hset : Yields V ((describe_set truncated config source asked).mapError fun exc =>
      "AWS created or reconciled snapshot IDs " ++ ", ".intercalate asked ++
      s!", but status reconciliation failed: {exc}") fun snapshot =>
      ∃ described, Describes owner source described snapshot ∧
        ∀ item ∈ described, snapshotIdOf item ∈ asked := by
    intro v
    apply wp_mapError.mpr
    refine wp_post (yields_describe_set hV hasked v) fun r w hr snapshot hok => ?_
    cases r with
    | error e => cases hok
    | ok s => exact hr snapshot hok
  apply wp_bind'.mpr
  refine wp_onAws hset ?_ ?_
  · exact fun e w => ⟨concludes_none e _, fun _ h => by cases h⟩
  rintro snapshot w ⟨described, hd, hids⟩
  have hfits := fits_described hd hsource
  apply wp_bind'.mpr
  refine wp_post (wp_report (merges_tallies hfits (hm.describes hd hids none).1)) ?_
  rintro r t ⟨herr, completed_at, ht⟩
  have hself : Merges (Tallies owner start) t.2 snapshot := merges_self hfits ⟨completed_at, m, ht⟩
  cases r with
  | error e =>
    refine ⟨fun s hs => ?_, fun _ h => by cases h⟩
    rw [herr e rfl] at hs
    cases hs
  | ok u =>
    dsimp only
    split
    · refine ⟨fun s hs => ?_, fun _ h => by cases h⟩
      exact Option.some.inj hs ▸ hself
    · exact ⟨hself, fun _ _ => ht ▸ (hm.describes hd hids completed_at).2⟩

theorem wp_poll (hV : Truthful owner V) (hasked : asked ≠ [])
    (hsource : source.volume_metadata ≠ []) (left : ℕ) (hm : Tracks owner source asked m) :
    wp (V.sum progressWorld) (Advances (Tallies owner start))
      (poll truncated config source asked left) (Concludes (Tallies owner start)) (v, m) := by
  induction left generalizing m v with
  | zero => exact wp_post (wp_poll_round hV hasked hsource hm) fun _ _ h => h.1
  | succ left ih =>
    apply wp_bind'.mpr
    refine wp_post (wp_poll_round hV hasked hsource hm) ?_
    rintro (e | snapshot) t ⟨hend, htracks⟩
    · exact hend
    · dsimp only
      split
      · exact hend
      · exact ih (htracks snapshot rfl)

theorem recordId_eq {records : List Items} {ids : List String}
    (h : records.mapM recordId = .ok ids) (hnamed : ∀ item ∈ records, Named owner item) :
    ids = records.map snapshotIdOf := by
  have hmap := mapM_eq_ok.mp h
  clear h
  induction hmap with
  | nil => rfl
  | cons hid _ ih =>
    have hfirst := (hnamed _ List.mem_cons_self).recordId
    rw [List.map_cons, ← ih fun item hitem => hnamed item (List.mem_cons_of_mem _ hitem)]
    rw [Except.ok.inj (hid.symm.trans hfirst)]

/-- A creation reports what fits the manifest that has no resource yet. -/
theorem wp_create (hV : Truthful owner V) (request : SnapshotCreateRequest)
    (hm : m.resources = []) :
    wp (V.sum progressWorld) (Advances (Tallies owner start)) (create truncated config request)
      (Concludes (Tallies owner start)) (v, m) := by
  apply wp_bind'.mpr
  refine wp_onAws (yields_any _) (fun e w => concludes_none e _) fun _ w _ => ?_
  apply wp_bind'.mpr
  refine wp_onAws yields_source (fun e w => concludes_none e _) fun source w hsource => ?_
  apply wp_bind'.mpr
  refine wp_onAws (yields_ok _) (fun e w => concludes_none e _) fun requested w hrequested => ?_
  obtain ⟨hnone, hvolumes, hstatus⟩ := requested_ok hrequested
  have hmerge : Merges (Tallies owner start) m requested := by
    apply merges_tallies
    · exact ⟨Or.inl hnone, fun hcomplete => by rw [hstatus] at hcomplete; cases hcomplete⟩
    · rw [hm]
      exact Keeps.of_none (fun _ h => by cases h) fun h => absurd rfl h
  apply wp_bind'.mpr
  refine wp_post (wp_report hmerge) ?_
  rintro (e | u) ⟨w, next⟩ ⟨herr, completed_at, rfl⟩
  · intro s hs
    rw [herr e rfl] at hs
    cases hs
  apply wp_bind'.mpr
  refine wp_onAws (yields_create_records hV request) (fun e w => concludes_none e _)
    fun records w hrecords => ?_
  apply wp_bind'.mpr
  refine wp_onAws (yields_ok _) (fun e w => concludes_none e _) fun ids w hids => ?_
  apply wp_bind'.mpr
  refine wp_onAws (yields_ok _) (fun e w => concludes_none e _) fun initial w hinitial => ?_
  have hd := provider_snapshot_ok (eq_ok_of_mapError hinitial) hrecords
  have hfits := fits_described hd hsource
  obtain rfl := recordId_eq hids hrecords
  have hinitially :
      Merges (Tallies owner start) (m.merged requested completed_at none) initial := by
    apply merges_tallies hfits
    refine Keeps.of_none hnone fun _ volume => ?_
    change _ ↔ volume ∈ requested.resources.map _
    rw [hvolumes]
    exact hd.scope volume
  apply wp_bind'.mpr
  refine wp_post (wp_report hinitially) ?_
  rintro (e | u) ⟨w, next⟩ ⟨herr, completed_at', rfl⟩
  · intro s hs
    rw [herr e rfl] at hs
    cases hs
  apply wp_bind'.mpr
  refine wp_onAws (yields_any _) (fun e w => concludes_none e _) fun left w _ => ?_
  -- from here on the records are asked for by their ids
  have hasked : records.map snapshotIdOf ≠ [] := by
    intro hnil
    obtain rfl := List.map_eq_nil_iff.mp hnil
    obtain ⟨volume, hvolume⟩ := List.exists_mem_of_ne_nil _ hsource
    obtain ⟨r, hr, -⟩ := List.mem_map.mp
      ((hd.scope volume.volume_id).mpr (List.mem_map_of_mem hvolume))
    obtain ⟨item, hitem, -⟩ := hd.from_records r hr
    cases hitem
  refine wp_poll hV hasked hsource left ⟨⟨hd.located, ?_⟩, hd.scope⟩
  intro id hid volume howner
  obtain ⟨item, hitem, rfl⟩ := List.mem_map.mp hid
  exact hd.all item hitem volume howner

end Create

/-! ## Reconciling -/

section Reconcile

variable {τ : Type} {V : World Aws τ} {owner : String → Option String} {start : Index}
  {truncated : String → Except String ℤ} {config : AwsEbsSnapshotConfig} {m : SnapshotManifest}

/-- The ids that `reconcile` asks for. -/
def providerIds (resources : List SnapshotResource) : List String :=
  resources.filterMap fun resource => nonempty resource.snapshot_resource_id

theorem mem_providerIds {resources : List SnapshotResource} {id : String} :
    id ∈ providerIds resources ↔ id ≠ "" ∧ ∃ r ∈ resources, r.snapshot_resource_id = some id := by
  simp only [providerIds, nonempty, List.mem_filterMap, Option.filter_eq_some_iff,
    decide_eq_true_eq]
  constructor
  · rintro ⟨r, hr, hid, hne⟩
    exact ⟨hne, r, hr, hid⟩
  · rintro ⟨hne, r, hr, hid⟩
    exact ⟨r, hr, hid, hne⟩

theorem covers_providerIds {resources : List SnapshotResource} (h : Located owner resources) :
    Covers owner (providerIds resources) resources := by
  refine ⟨h, fun id hid volume howner => ?_⟩
  obtain ⟨-, r, hr, hrid⟩ := mem_providerIds.mp hid
  obtain ⟨id', hid', -, hv⟩ := h.named r hr
  obtain rfl := Option.some.inj (hid'.symm.trans hrid)
  exact ⟨r, hr, hrid, Option.some.inj (hv.symm.trans howner)⟩

theorem none_of_providerIds {status : Status} {resources : List SnapshotResource}
    (h : Fits owner resources status) (hids : providerIds resources = []) :
    ∀ r ∈ resources, r.snapshot_resource_id = none := by
  rcases h.uniform with hnone | hlocated
  · exact hnone
  · intro r hr
    obtain ⟨id, hid, hne, -⟩ := hlocated.named r hr
    have hmem := mem_providerIds.mpr ⟨hne, r, hr, hid⟩
    rw [hids] at hmem
    cases hmem

theorem volumes_manifestSource :
    (manifestSource m).volume_metadata.map (·.volume_id) =
      m.resources.map (·.source_resource_id) := by
  simp [manifestSource, manifestVolume, Function.comp_def]

/-- What the records and the source of a reconciliation are good for. -/
structure Refreshes (owner : String → Option String) (m : SnapshotManifest)
    (x : List Items × Source) : Prop where
  named : ∀ item ∈ x.1, Named owner item
  some_volume : x.2.volume_metadata ≠ []
  keeps : ∀ snapshot, Describes owner x.2 x.1 snapshot → Keeps m.resources snapshot.resources

theorem yields_reconcile_source (hV : Truthful owner V)
    (hfits : Fits owner m.resources m.status) :
    Yields V (reconcile_source config m) (Refreshes owner m) := by
  unfold reconcile_source
  extract_lets provider_ids
  have hsource : m.resources ≠ [] → (manifestSource m).volume_metadata ≠ [] := by
    intro hne hnil
    exact hne (List.map_eq_nil_iff.mp hnil)
  split
  · next hids =>
    have hlocated : Located owner m.resources := by
      refine hfits.uniform.resolve_left fun hnone => hids ?_
      apply List.eq_nil_iff_forall_not_mem.mpr
      intro id hid
      obtain ⟨-, r, hr, hrid⟩ := mem_providerIds.mp hid
      rw [hnone r hr] at hrid
      cases hrid
    have hne : m.resources ≠ [] := by
      rintro hnil
      exact hids (by simp [provider_ids, hnil])
    refine yields_bind (yields_describe_snapshots hV provider_ids none) fun described h => ?_
    refine yields_pure ⟨fun item hitem => (h item hitem).1, hsource hne, fun snapshot hd => ?_⟩
    refine ((covers_providerIds hlocated).keeps hd.located ?_ ?_).1
    · intro volume
      rw [hd.scope volume, volumes_manifestSource]
    · intro r hr id hid
      obtain ⟨item, hitem, hsame⟩ := hd.from_records r hr
      rw [Option.some.inj (hid.symm.trans hsame)]
      exact (h item hitem).2 hids
  · next hids =>
    have hnone := none_of_providerIds hfits (not_not.mp hids)
    refine yields_bind (yields_described hV [] _) fun described hnamed => ?_
    split
    · exact yields_raise _
    split
    · next hne =>
      refine yields_pure ⟨hnamed, hsource hne, fun snapshot hd => Keeps.of_none hnone ?_⟩
      intro _ volume
      rw [hd.scope volume, volumes_manifestSource]
    · next hnil =>
      refine yields_bind yields_source fun source hne => ?_
      exact yields_pure ⟨hnamed, hne, fun snapshot _ => Keeps.of_none hnone fun h => absurd h hnil⟩

theorem yields_reconcile (hV : Truthful owner V) (hfits : Fits owner m.resources m.status) :
    Yields V (reconcile truncated config m) fun snapshot =>
      Fits owner snapshot.resources snapshot.status ∧ Keeps m.resources snapshot.resources := by
  refine yields_bind (yields_any _) fun _ _ => ?_
  refine yields_ofExcept_bind fun _ _ => ?_
  refine yields_bind (yields_any _) fun _ _ => ?_
  refine yields_bind (yields_reconcile_source hV hfits) fun x hx => ?_
  refine yields_ofExcept_bind fun refreshed hrefreshed => ?_
  have hd := provider_snapshot_ok hrefreshed hx.named
  have hrefits := fits_described hd hx.some_volume
  exact yields_pure ⟨hrefits, hx.keeps refreshed hd⟩

end Reconcile

/-! ## Sessions -/

section Sessions

variable (truncated : String → Except String ℤ)

/-- A run for the EBS provider, of a configuration that is given or of the project's own. -/
inductive Call where
  | create (ctx : ServiceContext) (environment trigger : String)
      (portable_backup_id : Option String) (given : Option AwsEbsSnapshotConfig)
  | reconcile (ctx : ServiceContext) (snapshot_id : String) (expected_environment : Option String)
      (given : Option AwsEbsSnapshotConfig)

def Call.body : Call → ServiceM Aws SnapshotManifest
  | .create ctx environment trigger portable_backup_id given =>
    run_snapshot_create (make_snapshot_provider truncated) ctx environment trigger
      portable_backup_id (given.map (provider truncated))
  | .reconcile ctx snapshot_id expected_environment given =>
    run_snapshot_reconcile (make_snapshot_provider truncated) ctx snapshot_id expected_environment
      (given.map (provider truncated))

variable {truncated} {τ : Type} {V : World Aws τ} {owner : String → Option String}

theorem selected_provider {ctx : ServiceContext} {given : Option AwsEbsSnapshotConfig}
    {selected' : SnapshotProvider Aws}
    (h : selected (make_snapshot_provider truncated) ctx (given.map (provider truncated)) =
      .ok selected') : ∃ config, selected' = provider truncated config := by
  cases given with
  | some config => exact ⟨config, (Except.ok.inj h).symm⟩
  | none =>
    cases hctx : ctx.aws_ebs with
    | none => simp [selected, make_snapshot_provider, hctx, Except.mapError] at h
    | some config =>
      refine ⟨config, ?_⟩
      simpa [selected, make_snapshot_provider, hctx, Except.mapError, eq_comm] using h

theorem checked_provider {ctx : ServiceContext} {snapshot_id : String}
    {expected_environment : Option String} {given : Option AwsEbsSnapshotConfig}
    {m : SnapshotManifest} {selected' : SnapshotProvider Aws}
    (h : check_reconcile (make_snapshot_provider truncated) ctx snapshot_id expected_environment
      (given.map (provider truncated)) m = .ok selected') :
    ∃ config, selected' = provider truncated config := by
  obtain ⟨_, -, h⟩ := CheckedLists.bind_eq_ok.mp h
  split at h
  · cases h
  obtain ⟨_, -, h⟩ := CheckedLists.bind_eq_ok.mp h
  obtain ⟨_, -, h⟩ := CheckedLists.bind_eq_ok.mp h
  obtain ⟨_, -, h⟩ := CheckedLists.bind_eq_ok.mp h
  exact selected_provider h

theorem safe_body (hV : Truthful owner V) (c : Call) {start : Index} {t : Index × τ}
    (hstart : Sound start) (hs : Sound t.1) (hb : Books owner start t.1) :
    Safe (Books owner start) V (c.body truncated) t := by
  cases c with
  | create ctx environment trigger portable_backup_id given =>
    refine safe_create (asserts_tallies hstart) ⟨hs, hb⟩ (fun _ _ => ⟨hb.fit, hb.since⟩) ?_
    intro stamp hfresh m hid _ hresources hstatus
    refine ⟨⟨⟨hb.fit, hb.since⟩, ⟨Or.inl ?_, ?_⟩, ?_⟩, ?_⟩
    · rw [hresources]
      intro r hr
      cases hr
    · rw [hstatus]
      intro h
      cases h
    · intro n hn
      rw [hid] at hn
      cases (hs.fresh hfresh).symm.trans hn
    · intro selected' hselected request v
      obtain ⟨config, rfl⟩ := selected_provider hselected
      exact wp_create hV request hresources
  | reconcile ctx snapshot_id expected_environment given =>
    refine safe_reconcile (asserts_tallies hstart) ⟨hs, hb⟩ fun m selected' hm hid _ hcheck => ?_
    obtain ⟨config, rfl⟩ := checked_provider hcheck
    subst hid
    have hfits := hb.fit _ m hm
    refine ⟨⟨hs, ⟨hs.named _ m hm, fun n hn => ?_⟩, hb, hfits, fun n hn => ?_⟩, ?_⟩
    · rw [Option.some.inj (hn.symm.trans hm)]
    · rw [Option.some.inj (hn.symm.trans hm)]
      exact Keeps.refl hfits
    · refine wp_post (yields_reconcile hV hfits t.2) fun r _ hr refreshed hok => ?_
      exact merges_tallies (hr refreshed hok).1 (hr refreshed hok).2

/-- Whatever is called and wherever a call stops, a complete set has one completed snapshot of
its own for each volume, and what has been recorded of a set stays: its volumes, and the
snapshot of every volume that has one. -/
theorem snapshots_accounted (hV : Truthful owner V) {v : τ} {s t : Index × τ}
    (hbefore : Session (indexWorld.sum V) (fun s t => t.1 = s.1) (fun _ _ => True)
      (Call.body truncated) (Index.empty, v) s)
    (hafter : Session (indexWorld.sum V) (fun s t => t.1 = s.1) (fun _ _ => True)
      (Call.body truncated) s t) :
    (∀ stem m, t.1.files stem = some m → m.status = .complete → Accounted m.resources) ∧
      ∀ id ∈ s.1.created, ∀ m, s.1.files id = some m →
        ∃ later, t.1.files id = some later ∧ Keeps m.resources later.resources := by
  have hsession : ∀ {start : Index} {s t : Index × τ}, Sound start →
      Sound s.1 ∧ Books owner start s.1 → Session (indexWorld.sum V) (fun s t => t.1 = s.1)
        (fun _ _ => True) (Call.body truncated) s t → Sound t.1 ∧ Books owner start t.1 := by
    intro start s t hstart hs h
    refine h.invariant hs ?_ fun c u hu _ => safe_body hV c hstart hu.1 hu.2
    intro u w hu hw
    rw [hw]
    exact hu
  have hs := hsession sound_empty
    ⟨sound_empty, fun _ _ h => (by cases h), fun _ h => (by cases h)⟩ hbefore
  have ht := hsession hs.1
    ⟨hs.1, hs.2.fit, fun id _ m hm => ⟨m, hm, Keeps.refl (hs.2.fit id m hm)⟩⟩ hafter
  refine ⟨fun stem m hm hcomplete => ?_, ht.2.since⟩
  have hfits := ht.2.fit stem m hm
  rw [hcomplete] at hfits
  exact hfits.accounted

end Sessions

/-! ## One volume -/

def rootVolume : Items := [("VolumeId", .str "vol-1"), ("Size", .int 20)]

def shopInstance : Json := .dict
  [("InstanceId", .str "i-0a1b2c3d4e5f60718"), ("RootDeviceName", .str "/dev/sda1"),
    ("BlockDeviceMappings", .list [.dict
      [("DeviceName", .str "/dev/sda1"), ("Ebs", .dict rootVolume)]])]

def record (state : String) : Json := .dict
  [("SnapshotId", .str "snap-1"), ("VolumeId", .str "vol-1"), ("State", .str state)]

def ownerOf (id : String) : Option String := if id = "snap-1" then some "vol-1" else none

def replied (key : String) (items : List Json) : CommandResult :=
  ⟨0, some (.dict [(key, .list items)])⟩

/-- A snapshot is pending when it is created and completed when it is described. -/
def answer : Command → CommandResult
  | .version => ⟨0, none⟩
  | .describe_instances _ => replied "Reservations" [.dict [("Instances", .list [shopInstance])]]
  | .describe_volumes _ => replied "Volumes" [.dict rootVolume]
  | .create_snapshots _ _ _ _ => replied "Snapshots" [record "pending"]
  | .describe_snapshots ids _ =>
    replied "Snapshots" (if ids = [] ∨ "snap-1" ∈ ids then [record "completed"] else [])
  | .get_caller_identity => ⟨0, some (.dict [("Account", .str "123456789012")])⟩

def serveAws : (o : AwsCall) → Unit → o.Answer × Unit
  | .run _ command _, _ => (.ok (answer command), ())
  | .rounds _, _ => ((2 : ℕ), ())

def serve : (o : (Files.sum Aws).Op) → Index × Unit → (Files.sum Aws).Reply o × (Index × Unit)
  | .inl o, t => ((serveFiles o t.1).1, ((serveFiles o t.1).2, t.2))
  | .inr o, t => ((serveAws o t.2).1, (t.1, (serveAws o t.2).2))

theorem serve_world (o : (Files.sum Aws).Op) (t : Index × Unit) :
    (indexWorld.sum (World.ofServer serveAws)) o t (serve o t).1 (serve o t).2 := by
  obtain o | o := o
  · exact ⟨serveFiles_world o t.1, rfl⟩
  · exact ⟨rfl, rfl⟩

theorem named_record (state : String) :
    ∃ item, record state = .dict item ∧ Named ownerOf item ∧ snapshotIdOf item = "snap-1" :=
  ⟨_, rfl, ⟨"snap-1", rfl, by decide, rfl⟩, rfl⟩

theorem truthful_answer : Truthful ownerOf (World.ofServer serveAws) where
  described := by
    intro config ids tag check v result w hw item hitem
    obtain rfl := Except.ok.inj (congrArg Prod.fst hw)
    obtain ⟨items, hrecord, hnamed, hid⟩ := named_record "completed"
    by_cases hasked : ids = [] ∨ "snap-1" ∈ ids
    · simp [recordsOf, answer, replied, PythonJson.get, hasked, hrecord, asDict] at hitem
      subst hitem
      exact ⟨hnamed, fun hne => hid ▸ hasked.resolve_left hne⟩
    · simp [recordsOf, answer, replied, PythonJson.get, hasked] at hitem
  created := by
    intro config instance_id exclude description tags check v result w hw item hitem _
    obtain rfl := Except.ok.inj (congrArg Prod.fst hw)
    obtain ⟨items, hrecord, hnamed, -⟩ := named_record "pending"
    simp [recordsOf, answer, replied, PythonJson.get, hrecord, asDict] at hitem
    exact hitem ▸ hnamed

def noFloat (_ : String) : Except String ℤ := .error "not a number"

def after (t : Index × Unit) (c : Call) : Index × Unit := ((c.body noFloat).run serve t).2

theorem steps_after (t : Index × Unit) (c : Call) :
    ∃ q, Steps (indexWorld.sum (World.ofServer serveAws)) t (c.body noFloat) (after t c) q :=
  ⟨_, ends_run serve_world (c.body noFloat) t⟩

def created : Index × Unit :=
  after (Index.empty, ()) (.create shopContext "production" "explicit" none none)

def shopId : String := "production-20260101T000000Z-00000000"

/-- A creation and a reconciliation of the set that it has left. -/
theorem snapshots_accounted_shop :
    let reconciled := after created (.reconcile shopContext shopId none none)
    ((reconciled.1.files shopId).map (·.status) = some .complete ∧
      ∀ m, reconciled.1.files shopId = some m → m.status = .complete → Accounted m.resources) ∧
      ∀ m, created.1.files shopId = some m →
        ∃ later, reconciled.1.files shopId = some later ∧ Keeps m.resources later.resources := by
  intro reconciled
  obtain ⟨q₁, h₁⟩ := steps_after (Index.empty, ())
    (.create shopContext "production" "explicit" none none)
  obtain ⟨q₂, h₂⟩ := steps_after created (.reconcile shopContext shopId none none)
  obtain ⟨haccounted, hkept⟩ := snapshots_accounted truthful_answer
    (.call (.refl _) trivial h₁) (.call (.refl _) trivial h₂)
  refine ⟨⟨by decide +kernel, haccounted shopId⟩, fun m hm => hkept shopId ?_ m hm⟩
  decide +kernel

end SnapshotAccounting
