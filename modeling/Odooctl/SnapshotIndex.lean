import Mathlib.Algebra.Order.BigOperators.Group.List
import Odooctl.ProgramRules
import Odooctl.SnapshotService

/-!
# The index of snapshot manifests

The files under `snapshots/` by their stems, with the ids that have been chosen and the ones
whose manifest has been written in full, under its id and as the latest of its environment.
-/
namespace SnapshotIndex

open EffectPrograms ProgramRules PythonText SnapshotService

/-- Both lists have the newest first. -/
structure Index where
  files : String → Option SnapshotManifest
  created : List String
  saved : List String

def Index.empty : Index := ⟨fun _ => none, [], []⟩

def Index.choose (s : Index) (id : String) : Index := { s with created := id :: s.created }

/-- The pointer is the second file that a save writes. -/
def Index.written (s : Index) (stem : String) (manifest : SnapshotManifest) : Index :=
  { s with
    files := fun name => if name = stem then some manifest else s.files name
    saved := if stem = latest_stem manifest.environment then manifest.snapshot_id :: s.saved
      else s.saved }

/-- A new id has not been chosen before. A write replaces its file or fails, and may fail
after it has replaced it. -/
def indexWorld : World Files Index
  | .new_stamp environment, s, stamp, t =>
    new_snapshot_id environment stamp ∉ s.created ∧
      t = s.choose (new_snapshot_id environment stamp)
  | .now_utc, s, _, t => t = s
  | .read stem, s, r, t => t = s ∧ ∀ found, r = .ok found → found = s.files stem
  | .write_atomic stem manifest, s, r, t => (t = s ∧ r ≠ .ok ()) ∨ t = s.written stem manifest

/-! ## Names -/

theorem hexDigit_ne_t (n : Fin 16) : hexDigit n ≠ 't' := by
  revert n
  decide

/-- An id ends with a hexadecimal digit, the name of a pointer does not. -/
theorem new_snapshot_id_ne (environment other : String) (stamp : Stamp) :
    new_snapshot_id environment stamp ≠ latest_stem other := by
  intro h
  have hne : stamp.token.map hexDigit ≠ [] := by
    intro hnil
    have hlength := congrArg List.length hnil
    rw [List.length_map, stamp.length_token] at hlength
    cases hlength
  have hlast := List.getLast_mem hne
  obtain ⟨n, -, hn⟩ := List.mem_map.mp hlast
  have hchars := congrArg (fun name => name.toList.getLast?) h
  simp only [new_snapshot_id, Stamp.text, latest_stem, String.toList_append, String.toList_ofList,
    List.getLast?_append, List.getLast?_eq_some_getLast hne, ← hn, Option.some_or] at hchars
  exact hexDigit_ne_t n (Option.some.inj hchars)

theorem latest_stem_inj {environment other : String}
    (h : latest_stem environment = latest_stem other) : environment = other := by
  have hchars := congrArg String.toList h
  simp only [latest_stem, String.toList_append] at hchars
  exact String.toList_inj.mp (List.append_cancel_right hchars)

/-! ## What holds of every index -/

structure Sound (s : Index) : Prop where
  named : ∀ stem m, s.files stem = some m → m.snapshot_id ∈ s.created
  stems : ∀ stem m, s.files stem = some m → stem ∈ s.created ∨ ∃ e, stem = latest_stem e
  own : ∀ id ∈ s.created, ∀ m, s.files id = some m → m.snapshot_id = id
  plain : ∀ id ∈ s.created, ∀ e, id ≠ latest_stem e
  on_disk : ∀ id ∈ s.saved, id ∈ s.created ∧ ∃ m, s.files id = some m

/-- The manifest of an id that has been chosen, in the environment of the one on disk. -/
structure Owns (s : Index) (id environment : String) : Prop where
  created : id ∈ s.created
  environment : ∀ m, s.files id = some m → m.environment = environment

theorem sound_empty : Sound Index.empty where
  named := fun _ _ h => by cases h
  stems := fun _ _ h => by cases h
  own := fun _ h => by cases h
  plain := fun _ h => by cases h
  on_disk := fun _ h => by cases h

section Writes

variable {s t : Index} {id environment stem : String} {m : SnapshotManifest}

theorem files_self : (s.written stem m).files stem = some m := if_pos rfl

theorem files_other {name : String} (h : name ≠ stem) :
    (s.written stem m).files name = s.files name := if_neg h

theorem saved_latest :
    (s.written (latest_stem m.environment) m).saved = m.snapshot_id :: s.saved := if_pos rfl

theorem saved_other (h : stem ≠ latest_stem m.environment) :
    (s.written stem m).saved = s.saved := if_neg h

theorem Sound.fresh (hs : Sound s) {stamp : Stamp}
    (h : new_snapshot_id environment stamp ∉ s.created) :
    s.files (new_snapshot_id environment stamp) = none := by
  cases hfile : s.files (new_snapshot_id environment stamp) with
  | none => rfl
  | some m =>
    rcases hs.stems _ m hfile with hold | ⟨e, he⟩
    · exact absurd hold h
    · exact absurd he (new_snapshot_id_ne environment e stamp)

/-- A new id on top of the chosen ones. -/
theorem Sound.chosen (hs : Sound s) {stamp : Stamp}
    (h : new_snapshot_id environment stamp ∉ s.created) :
    Sound (s.choose (new_snapshot_id environment stamp)) where
  named := fun stem m hm => List.mem_cons_of_mem _ (hs.named stem m hm)
  stems := fun stem m hm => (hs.stems stem m hm).imp_left (List.mem_cons_of_mem _)
  own := by
    intro id hid m hm
    rcases List.mem_cons.mp hid with rfl | hid
    · exact absurd (hs.fresh h) (by simp [show s.files _ = some m from hm])
    · exact hs.own id hid m hm
  plain := by
    intro id hid e
    rcases List.mem_cons.mp hid with rfl | hid
    · exact new_snapshot_id_ne environment e stamp
    · exact hs.plain id hid e
  on_disk := fun id hid => ⟨List.mem_cons_of_mem _ (hs.on_disk id hid).1, (hs.on_disk id hid).2⟩

/-- Writing the file of an id. -/
theorem Sound.write_file (hs : Sound s) (hid : m.snapshot_id ∈ s.created) :
    Sound (s.written m.snapshot_id m) where
  named := by
    intro stem n hn
    by_cases hstem : stem = m.snapshot_id
    · rw [hstem, files_self] at hn
      rw [← Option.some.inj hn]
      exact hid
    · rw [files_other hstem] at hn
      exact hs.named stem n hn
  stems := by
    intro stem n hn
    by_cases hstem : stem = m.snapshot_id
    · exact Or.inl (hstem ▸ hid)
    · rw [files_other hstem] at hn
      exact hs.stems stem n hn
  own := by
    intro id hcreated n hn
    by_cases hsame : id = m.snapshot_id
    · rw [hsame, files_self] at hn
      rw [← Option.some.inj hn, hsame]
    · rw [files_other hsame] at hn
      exact hs.own id hcreated n hn
  plain := hs.plain
  on_disk := by
    intro id hsaved
    rw [saved_other (hs.plain _ hid _)] at hsaved
    refine ⟨(hs.on_disk id hsaved).1, ?_⟩
    by_cases hsame : id = m.snapshot_id
    · exact ⟨m, by rw [hsame, files_self]⟩
    · rw [files_other hsame]
      exact (hs.on_disk id hsaved).2

/-- Writing the pointer of an environment to a manifest that is on disk. -/
theorem Sound.write_latest (hs : Sound s) (hid : m.snapshot_id ∈ s.created)
    (hdisk : ∃ n, s.files m.snapshot_id = some n) :
    Sound (s.written (latest_stem m.environment) m) where
  named := by
    intro stem n hn
    by_cases hstem : stem = latest_stem m.environment
    · rw [hstem, files_self] at hn
      rw [← Option.some.inj hn]
      exact hid
    · rw [files_other hstem] at hn
      exact hs.named stem n hn
  stems := by
    intro stem n hn
    by_cases hstem : stem = latest_stem m.environment
    · exact Or.inr ⟨m.environment, hstem⟩
    · rw [files_other hstem] at hn
      exact hs.stems stem n hn
  own := by
    intro id hcreated n hn
    rw [files_other (hs.plain id hcreated _)] at hn
    exact hs.own id hcreated n hn
  plain := hs.plain
  on_disk := by
    intro id hsaved
    rw [saved_latest] at hsaved
    rcases List.mem_cons.mp hsaved with rfl | hsaved
    · rw [files_other (hs.plain _ hid _)]
      exact ⟨hid, hdisk⟩
    · obtain ⟨hcreated, n, hn⟩ := hs.on_disk id hsaved
      rw [files_other (hs.plain id hcreated _)]
      exact ⟨hcreated, n, hn⟩

theorem Owns.write_file (h : Owns s id environment) (henv : m.environment = environment) :
    Owns (s.written id m) id environment where
  created := h.created
  environment := by
    intro n hn
    rw [files_self] at hn
    rw [← Option.some.inj hn, henv]

theorem Owns.write_latest (h : Owns s id environment) (hs : Sound s) :
    Owns (s.written (latest_stem m.environment) m) id environment where
  created := h.created
  environment := by
    intro n hn
    rw [files_other (hs.plain id h.created _)] at hn
    exact h.environment n hn

end Writes

/-! ## Rules for the runs -/

/-- What a run asserts of the index while it holds a manifest, and what follows at any moment. -/
structure Asserts (P : SnapshotManifest → Index → Prop) (G : Index → Prop) : Prop where
  file : ∀ m s, Sound s → Owns s m.snapshot_id m.environment → P m s →
    P m (s.written m.snapshot_id m)
  latest : ∀ m s, Sound s → Owns s m.snapshot_id m.environment →
    s.files m.snapshot_id = some m → P m s → P m (s.written (latest_stem m.environment) m)
  last_error : ∀ m s e, P m s → P { m with last_error := some e } s
  always : ∀ m s, P m s → G s

/-- The assertion survives the merge of what the provider reports. -/
def Merges (P : SnapshotManifest → Index → Prop) (m : SnapshotManifest) (p : ProviderSnapshot) :
    Prop :=
  ∀ completed_at last_error s, P m s → P (m.merged p completed_at last_error) s

/-- To a provider the callback replaces the manifest that is held. -/
def progressWorld : World Progress SnapshotManifest :=
  fun p m _ t => ∃ completed_at, t = m.merged p completed_at none

structure Holds (P : SnapshotManifest → Index → Prop) (m : SnapshotManifest) (s : Index) :
    Prop where
  sound : Sound s
  owns : Owns s m.snapshot_id m.environment
  asserted : P m s

section Rules

variable {ε α : Type} {P : SnapshotManifest → Index → Prop} {G : Index → Prop} {s : Index}
  {m : SnapshotManifest} {p : ProviderSnapshot}

theorem safe_eq {value label safe : String} (h : safe_snapshot_component value label = .ok safe) :
    safe = value := by
  rw [safe_snapshot_component] at h
  split at h
  · cases h
  · exact (Except.ok.inj h).symm

theorem Holds.now (h : Holds P m s) (ha : Asserts P G) : Sound s ∧ G s :=
  ⟨h.sound, ha.always m s h.asserted⟩

theorem Holds.merged {completed_at last_error : Option String} (h : Holds P m s)
    (hp : Merges P m p) : Holds P (m.merged p completed_at last_error) s :=
  ⟨h.sound, h.owns, hp completed_at last_error s h.asserted⟩

theorem wp_save (ha : Asserts P G) (h : Holds P m s) :
    wp indexWorld (fun _ t => Sound t ∧ G t) (save_snapshot_manifest m)
      (fun _ t => Holds P m t) s := by
  refine wp_ofExcept_seq (fun e _ => h) fun id hid => ?_
  obtain rfl := safe_eq hid
  refine wp_ofExcept_seq (fun e _ => h) fun environment henv => ?_
  obtain rfl := safe_eq henv
  -- the first file is the one that the pointer needs
  have hfile : Holds P m (s.written m.snapshot_id m) :=
    ⟨h.sound.write_file h.owns.created, h.owns.write_file rfl,
      ha.file m s h.sound h.owns h.asserted⟩
  have hfirst : wp indexWorld (fun _ t => Sound t ∧ G t) (write_atomic m.snapshot_id m)
      (fun r t => Holds P m t ∧ (r = .ok () → t.files m.snapshot_id = some m)) s := by
    apply wp_perform.mpr
    refine ⟨h.now ha, ?_⟩
    intro r t ht
    rcases ht with ⟨rfl, hr⟩ | rfl
    · exact ⟨h, fun hok => absurd hok hr⟩
    · exact ⟨hfile, fun _ => files_self⟩
  refine wp_seq hfirst (fun e t ht => ht.1) fun _ t ht => ?_
  obtain ⟨ht, hdisk⟩ := ht
  apply wp_perform.mpr
  refine ⟨ht.now ha, ?_⟩
  intro r u hu
  rcases hu with ⟨rfl, -⟩ | rfl
  · exact ht
  · exact ⟨ht.sound.write_latest ht.owns.created ⟨m, hdisk rfl⟩, ht.owns.write_latest ht.sound,
      ha.latest m t ht.sound ht.owns (hdisk rfl) ht.asserted⟩

theorem wp_merge (hnow : Sound s ∧ G s) (last_error : Option String) :
    wp indexWorld (fun _ t => Sound t ∧ G t) (merge_provider_snapshot m p last_error)
      (fun r t => t = s ∧ ∃ completed_at, r = .ok (m.merged p completed_at last_error)) s := by
  rw [merge_provider_snapshot]
  split
  · exact ⟨rfl, _, rfl⟩
  · split
    · apply wp_bind'.mpr
      apply wp_perform.mpr
      refine ⟨hnow, ?_⟩
      intro now t ht
      exact ⟨ht, _, rfl⟩
    · exact ⟨rfl, _, rfl⟩

theorem wp_persist (ha : Asserts P G) (h : Holds P m s) (hp : Merges P m p) :
    wp indexWorld (fun _ t => Sound t ∧ G t) (persist_progress m p : Prog Files ε _)
      (fun r t => ∃ completed_at saved, r = .ok (m.merged p completed_at none, saved) ∧
        Holds P (m.merged p completed_at none) t) s := by
  refine wp_attempt_seq (wp_merge (h.now ha) none) fun r t hr => ?_
  obtain ⟨rfl, completed_at, rfl⟩ := hr
  refine wp_attempt_seq (wp_save ha (h.merged hp)) fun saved t ht => ?_
  exact ⟨completed_at, saved, rfl, ht⟩

variable {F : Interface} {τ : Type} {V : World F τ} {v : τ}

/-- Each report of a provider fits the manifest that it is merged into. -/
def Advances (P : SnapshotManifest → Index → Prop) :
    (F.sum Progress).Op → τ × SnapshotManifest → Prop
  | .inl _, _ => True
  | .inr p, t => Merges P t.2 p

/-- So does what a creation returns or what its exception carries. -/
def Concludes (P : SnapshotManifest → Index → Prop) :
    Except CreateFailure ProviderSnapshot → τ × SnapshotManifest → Prop
  | .ok created, t => Merges P t.2 created
  | .error exc, t => ∀ snapshot, exc.snapshot = some snapshot → Merges P t.2 snapshot

theorem wp_observed {Q : Except CreateFailure α → τ × SnapshotManifest → Prop}
    {q : Prog (F.sum Progress) CreateFailure α} (ha : Asserts P G) (h : Holds P m s)
    (hq : wp (V.sum progressWorld) (Advances P) q Q (v, m)) :
    wp (indexWorld.sum V) (fun _ t => Sound t.1 ∧ G t.1) (observed m q : Prog _ ε _)
      (fun r t => ∃ next outcome, r = .ok (next, outcome) ∧ Holds P next t.1 ∧
        next.snapshot_id = m.snapshot_id ∧ Q outcome (t.2, next)) (s, v) := by
  induction q generalizing m s v with
  | pure a => exact ⟨m, .ok a, rfl, h, rfl, hq⟩
  | raise e => exact ⟨m, .error e, rfl, h, rfl, hq⟩
  | call o k ih =>
    cases o with
    | inl o =>
      refine ⟨h.now ha, ?_⟩
      rintro r ⟨s', v'⟩ ⟨hv, rfl⟩
      exact ih r h (hq.2 r (v', m) ⟨hv, rfl⟩)
    | inr progress =>
      apply wp_bind.mpr
      apply wp_left.mpr
      refine wp_post (wp_persist ha h hq.1) fun r t hr => ?_
      obtain ⟨completed_at, saved, rfl, ht⟩ := hr
      -- the handler goes on with the manifest that the callback has bound
      apply wp_post (ih saved ht (hq.2 saved (v, _) ⟨⟨completed_at, rfl⟩, rfl⟩))
      rintro r t ⟨next, outcome, rfl, hnext, hid, hQ⟩
      exact ⟨next, outcome, rfl, hnext, hid, hQ⟩

theorem wp_onStore {q : StoreM α} {R : Except String α → Index → Prop}
    {Q : Except Failure α → Index × τ → Prop}
    (h : wp indexWorld (fun _ t => Sound t ∧ G t) q R s)
    (hQ : ∀ r t, R r t → Q (r.mapError Failure.error) (t, v)) :
    wp (indexWorld.sum V) (fun _ t => Sound t.1 ∧ G t.1) (onStore q : ServiceM F α) Q (s, v) := by
  apply wp_left.mpr
  apply wp_mapError.mpr
  exact wp_post h hQ

/-- At any moment and at the end. -/
abbrev Safe (G : Index → Prop) (V : World F τ) (q : ServiceM F α) (t : Index × τ) : Prop :=
  wp (indexWorld.sum V) (fun _ t => Sound t.1 ∧ G t.1) q (fun _ t => Sound t.1 ∧ G t.1) t

theorem safe_saved {t : Index × τ} {k : ServiceM F α} (ha : Asserts P G)
    (h : Holds P m t.1) (hk : ∀ t, Holds P m t.1 → Safe G V k t) :
    Safe G V (onStore (save_snapshot_manifest m) >>= fun _ => k) t := by
  apply wp_bind'.mpr
  refine wp_onStore (v := t.2) (wp_save ha h) fun r u hu => ?_
  cases r with
  | error e => exact hu.now ha
  | ok _ => exact hk (u, t.2) hu

theorem safe_merged {t : Index × τ} {k : SnapshotManifest → ServiceM F α}
    {last_error : Option String} (ha : Asserts P G) (h : Holds P m t.1) (hp : Merges P m p)
    (hk : ∀ next, Holds P next t.1 → Safe G V (k next) t) :
    Safe G V (onStore (merge_provider_snapshot m p last_error) >>= k) t := by
  apply wp_bind'.mpr
  refine wp_onStore (v := t.2) (wp_merge (h.now ha) last_error) fun r u hu => ?_
  obtain ⟨rfl, completed_at, rfl⟩ := hu
  exact hk _ (h.merged hp)

theorem safe_ofExcept {t : Index × τ} {β : Type} {x : Except Failure β} {k : β → ServiceM F α}
    (hnow : Sound t.1 ∧ G t.1) (hk : ∀ b, x = .ok b → Safe G V (k b) t) :
    Safe G V (.ofExcept x >>= k) t :=
  wp_ofExcept_seq (fun _ _ => hnow) hk

/-- Operations of the store that leave the index alone. -/
theorem safe_still {t : Index × τ} {β : Type} {q : StoreM β} {R : β → Prop}
    {k : β → ServiceM F α} (hnow : Sound t.1 ∧ G t.1)
    (hq : wp indexWorld (fun _ t => Sound t ∧ G t) q
      (fun r u => u = t.1 ∧ ∀ b, r = .ok b → R b) t.1)
    (hk : ∀ b, R b → Safe G V (k b) t) : Safe G V (onStore q >>= k) t := by
  apply wp_bind'.mpr
  refine wp_onStore (v := t.2) hq fun r u hu => ?_
  obtain ⟨rfl, hr⟩ := hu
  cases r with
  | error e => exact hnow
  | ok b => exact hk b (hr b rfl)

theorem wp_get {ctx : ServiceContext} {snapshot_id : String} (hnow : Sound s ∧ G s) :
    wp indexWorld (fun _ t => Sound t ∧ G t) (get_snapshot ctx snapshot_id)
      (fun r t => t = s ∧ ∀ m, r = .ok m → s.files snapshot_id = some m ∧
        m.snapshot_id = snapshot_id ∧ m.project = ctx.config.project_name) s := by
  have hread : wp indexWorld (fun _ t => Sound t ∧ G t) (read_snapshot snapshot_id)
      (fun r t => t = s ∧ ∀ m, r = .ok m → s.files snapshot_id = some m ∧
        m.snapshot_id = snapshot_id) s := by
    refine wp_ofExcept_seq (fun e _ => ⟨rfl, fun _ h => by cases h⟩) fun safe hsafe => ?_
    obtain rfl := safe_eq hsafe
    apply wp_bind'.mpr
    apply wp_perform.mpr
    refine ⟨hnow, ?_⟩
    rintro r t ⟨rfl, hr⟩
    cases r with
    | error e => exact ⟨rfl, fun _ h => by cases h⟩
    | ok found =>
      have hfile := hr found rfl
      cases found with
      | none => exact ⟨rfl, fun _ h => by cases h⟩
      | some m =>
        change wp indexWorld _ (if m.snapshot_id ≠ safe then .raise _ else .pure m) _ t
        split
        · exact ⟨rfl, fun _ h => by cases h⟩
        · next hsame =>
          refine ⟨rfl, fun n hn => ?_⟩
          obtain rfl := Except.ok.inj hn
          exact ⟨hfile.symm, not_not.mp hsame⟩
  refine wp_seq hread ?_ ?_
  · rintro e t ⟨rfl, -⟩
    exact ⟨rfl, fun _ h => by cases h⟩
  · rintro m t ⟨rfl, hm⟩
    split
    · exact ⟨rfl, fun _ h => by cases h⟩
    · next hproject =>
      refine ⟨rfl, fun n hn => ?_⟩
      obtain rfl := Except.ok.inj hn
      exact ⟨(hm m rfl).1, (hm m rfl).2, not_not.mp hproject⟩

/-- A creation is safe if its first manifest fits the index that has the new id, and its
provider reports what fits. -/
theorem safe_create {make : ServiceContext → Except String (SnapshotProvider F)}
    {ctx : ServiceContext} {environment trigger : String} {portable_backup_id : Option String}
    {provider : Option (SnapshotProvider F)} {t : Index × τ} (ha : Asserts P G)
    (hnow : Sound t.1 ∧ G t.1)
    (hchosen : ∀ stamp, new_snapshot_id environment stamp ∉ t.1.created →
      G (t.1.choose (new_snapshot_id environment stamp)))
    (hstart : ∀ stamp, new_snapshot_id environment stamp ∉ t.1.created →
      ∀ m : SnapshotManifest, m.snapshot_id = new_snapshot_id environment stamp →
        m.environment = environment → m.resources = [] → m.status = .requested →
        P m (t.1.choose m.snapshot_id) ∧
          ∀ provider', selected make ctx provider = .ok provider' → ∀ request v,
            wp (V.sum progressWorld) (Advances P) (provider'.create request) (Concludes P) (v, m)) :
    Safe G V (run_snapshot_create make ctx environment trigger portable_backup_id provider) t := by
  refine safe_ofExcept hnow fun checked _ => ?_
  obtain ⟨trigger, kind⟩ := checked
  have hstamp : wp indexWorld (fun _ t => Sound t ∧ G t)
      (.perform (F := Files) (.new_stamp environment) .ok : StoreM Stamp)
      (fun r u => ∃ stamp, r = .ok stamp ∧ new_snapshot_id environment stamp ∉ t.1.created ∧
        u = t.1.choose (new_snapshot_id environment stamp)) t.1 := by
    apply wp_perform.mpr
    refine ⟨hnow, ?_⟩
    intro stamp u hu
    exact ⟨stamp, rfl, hu.1, hu.2⟩
  apply wp_bind'.mpr
  refine wp_onStore (v := t.2) hstamp fun r u hu => ?_
  obtain ⟨stamp, rfl, hfresh, rfl⟩ := hu
  have hnext := And.intro (hnow.1.chosen hfresh) (hchosen stamp hfresh)
  refine safe_ofExcept hnext fun provider' hprovider => ?_
  refine safe_ofExcept hnext fun identity _ => ?_
  obtain ⟨source_resource_id, provider_scope⟩ := identity
  have hclock : wp indexWorld (fun _ t => Sound t ∧ G t) now_utc
      (fun r u => u = _ ∧ ∀ b, r = .ok b → True) _ :=
    wp_perform.mpr ⟨hnext, fun now u hu => ⟨hu, fun _ _ => trivial⟩⟩
  refine safe_still hnext hclock fun timestamp _ => ?_
  extract_lets manifest
  obtain ⟨hP, hprovides⟩ := hstart stamp hfresh manifest rfl rfl rfl rfl
  have hholds : Holds P manifest (t.1.choose (new_snapshot_id environment stamp)) :=
    ⟨hnext.1, ⟨List.mem_cons_self, fun m hm => (by
      cases (hnow.1.fresh hfresh).symm.trans hm)⟩, hP⟩
  refine safe_saved ha hholds fun u hu => ?_
  refine wp_seq (wp_observed ha hu (hprovides provider' hprovider _ u.2)) ?_ ?_
  · rintro e w ⟨next, outcome, hr, -⟩
    cases hr
  rintro ⟨next, outcome⟩ w ⟨next', outcome', hr, hw, -, hend⟩
  cases hr
  cases outcome with
  | ok created =>
    refine safe_merged ha hw hend fun merged hmerged => ?_
    exact safe_saved ha hmerged fun x hx => hx.now ha
  | error exc =>
    have hlast : ∀ last x, Holds P last (x : Index × τ).1 → Safe G V
        (onStore (save_snapshot_manifest last) >>= fun _ =>
          (.raise (.createFailed last exc.message) : ServiceM F SnapshotManifest)) x :=
      fun last x hx => safe_saved ha hx fun y hy => hy.now ha
    obtain ⟨message, snapshot⟩ := exc
    cases snapshot with
    | some snapshot => exact safe_merged ha hw (hend snapshot rfl) fun last h => hlast last w h
    | none => exact hlast _ w ⟨hw.sound, hw.owns, ha.last_error next w.1 message hw.asserted⟩

/-- A reconciliation is safe if the manifest that gets past its checks fits the index and the
provider reports what fits. -/
theorem safe_reconcile {make : ServiceContext → Except String (SnapshotProvider F)}
    {ctx : ServiceContext} {snapshot_id : String} {expected_environment : Option String}
    {provider : Option (SnapshotProvider F)} {t : Index × τ} (ha : Asserts P G)
    (hnow : Sound t.1 ∧ G t.1)
    (hread : ∀ m provider', t.1.files snapshot_id = some m → m.snapshot_id = snapshot_id →
      m.project = ctx.config.project_name →
      check_reconcile make ctx snapshot_id expected_environment provider m = .ok provider' →
      Holds P m t.1 ∧ wp V (fun _ _ => True) (provider'.reconcile m)
        (fun r _ => ∀ refreshed, r = .ok refreshed → Merges P m refreshed) t.2) :
    Safe G V (run_snapshot_reconcile make ctx snapshot_id expected_environment provider) t := by
  refine safe_still hnow (wp_get hnow) fun m hm => ?_
  refine safe_ofExcept hnow fun provider' hcheck => ?_
  obtain ⟨hholds, hprovides⟩ := hread m provider' hm.1 hm.2.1 hm.2.2 hcheck
  have hright : wp (indexWorld.sum V) (fun _ t => Sound t.1 ∧ G t.1)
      ((provider'.reconcile m).right : Prog (Files.sum F) String ProviderSnapshot)
      (fun r u => u.1 = t.1 ∧ ∀ refreshed, r = .ok refreshed → Merges P m refreshed) t := by
    apply wp_right.mpr
    exact wp_mono hprovides (fun _ _ _ => hnow) fun r u hr => ⟨rfl, hr⟩
  refine wp_attempt_seq hright fun r u hr => ?_
  obtain ⟨hsame, hr⟩ := hr
  have hu : Holds P m u.1 := hsame ▸ hholds
  cases r with
  | error exc =>
    have hfailed : Holds P { m with last_error := some exc } u.1 :=
      ⟨hu.sound, hu.owns, ha.last_error m u.1 exc hu.asserted⟩
    exact safe_saved ha hfailed fun w hw => hw.now ha
  | ok refreshed =>
    refine safe_merged ha hu (hr refreshed rfl) fun merged hmerged => ?_
    exact safe_saved ha hmerged fun w hw => hw.now ha

end Rules

/-! ## An index that answers -/

def shopEnvironment : ProjectConfiguration.EnvironmentConfig where
  branch := "main"
  domain := "shop.example.com"
  db_name := "odoo_production"
  filestore_path := "filestore/odoo_production"
  db_name_safe := ProjectConfiguration.odoo_production_safe
  filestore_volume_safe := ProjectConfiguration.no_volume_safe
  filestore_path_safe := ProjectConfiguration.odoo_production_path_safe

def shopContext : ServiceContext where
  config :=
    { project_name := "shop", environments := [("production", shopEnvironment)]
      snapshots := { provider := .aws_ebs } }
  aws_ebs := some ⟨"i-0a1b2c3d4e5f60718", "eu-central-1", "eu-central-1a", none, true, 600, "aws"⟩

def dayStamp (n : ℕ) : Stamp := ⟨s!"2026010{n}T000000Z", List.replicate 8 zeroDigit, by decide⟩

/-- A time longer than every id there is. -/
def longStamp (s : Index) : Stamp :=
  ⟨String.ofList (List.replicate (s.created.map String.length).sum '0'), List.replicate 8 zeroDigit,
    by decide⟩

def nextStamp (environment : String) (s : Index) : Stamp :=
  if new_snapshot_id environment (dayStamp (s.created.length + 1)) ∈ s.created then longStamp s
  else dayStamp (s.created.length + 1)

theorem nextStamp_fresh (environment : String) (s : Index) :
    new_snapshot_id environment (nextStamp environment s) ∉ s.created := by
  rw [nextStamp]
  split
  · intro hmem
    have hle := List.single_le_sum (by simp) _ (List.mem_map_of_mem (f := String.length) hmem)
    simp [new_snapshot_id, Stamp.text, longStamp] at hle
    omega
  · assumption

def serveFiles : (o : FileCall) → Index → o.Answer × Index
  | .new_stamp environment, s =>
    (nextStamp environment s, s.choose (new_snapshot_id environment (nextStamp environment s)))
  | .now_utc, s => ("2026-01-09T00:00:00Z", s)
  | .read stem, s => (.ok (s.files stem), s)
  | .write_atomic stem manifest, s => (.ok (), s.written stem manifest)

theorem serveFiles_world (o : FileCall) (s : Index) :
    indexWorld o s (serveFiles o s).1 (serveFiles o s).2 := by
  cases o with
  | new_stamp environment => exact ⟨nextStamp_fresh environment s, rfl⟩
  | now_utc => rfl
  | read stem => exact ⟨rfl, fun found h => (Except.ok.inj h).symm⟩
  | write_atomic stem manifest => exact Or.inr rfl

end SnapshotIndex
