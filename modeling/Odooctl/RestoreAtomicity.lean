import Odooctl.CloneProtection

/-!
# The two stores of an environment

Restore and clone replace the filestore first and promote the database after it; only the
second has code that undoes it. What a call leaves is of one piece as long as no exception
comes between the two.
-/
namespace RestoreAtomicity

open EffectPrograms PostgresCatalog DatabaseCutover SwapTempDatabase DatabaseNames
open ProjectConfiguration FilestoreAdapters EnvironmentServices FilestoreIsolation
open DatabaseIsolation (Spares SparesIn)

/-! ## What a call may touch -/

/-- `n` begins with `stem` and ends with what `tempfile` may draw. -/
def isDrawn (stem n : String) : Bool :=
  let drawn := n.toList.drop stem.toList.length
  stem.toList.isPrefixOf n.toList && drawn.length == 8 && drawn.all isTempChar

theorem isDrawn_iff {stem n : String} :
    isDrawn stem n = true ↔ ∃ s : TempSuffix, s.name stem = n := by
  simp only [isDrawn, Bool.and_eq_true, beq_iff_eq, List.isPrefixOf_iff_prefix]
  constructor
  · rintro ⟨⟨⟨rest, hrest⟩, hlen⟩, hall⟩
    rw [← hrest, List.drop_left] at hlen hall
    refine ⟨⟨rest, hlen, hall⟩, ?_⟩
    rw [← String.toList_inj, TempSuffix.name, String.toList_append, String.toList_ofList]
    exact hrest
  · rintro ⟨s, rfl⟩
    rw [TempSuffix.name, String.toList_append, String.toList_ofList, List.drop_left]
    exact ⟨⟨List.prefix_append _ _, s.length_eq⟩, s.drawn⟩

/-- A directory drawn in `parent` would be in `home`. -/
def stagesIn (home parent : Location) (stem : String) : Bool :=
  decide (parent.Within home) || (decide (parent.place = home.place) &&
    decide (parent.path = home.path.dropLast) && home.path.getLast?.any (isDrawn stem))

theorem child_eq_iff {home parent : Location} {stem : String} :
    (parent.place = home.place ∧ parent.path = home.path.dropLast ∧
      home.path.getLast?.any (isDrawn stem) = true) ↔
      ∃ s : TempSuffix, parent.child (s.name stem) = home := by
  obtain ⟨place, path⟩ := home
  constructor
  · rintro ⟨hplace, hpath, hlast⟩
    obtain ⟨n, hn, hdrawn⟩ := (Option.any_eq_true _ _).mp hlast
    obtain ⟨s, hs⟩ := isDrawn_iff.mp hdrawn
    refine ⟨s, ?_⟩
    rw [hs, Location.child, hpath]
    have hconcat : path.dropLast ++ [n] = path := List.dropLast_append_getLast? n hn
    simp only at hplace
    simp only [hconcat, hplace]
  · rintro ⟨s, hs⟩
    obtain ⟨rfl, rfl⟩ := Location.mk.inj hs
    refine ⟨rfl, by simp, ?_⟩
    simp [isDrawn_iff.mpr ⟨s, rfl⟩]

theorem stagesIn_iff {home parent : Location} {stem : String} :
    stagesIn home parent stem = true ↔
      ∃ s : TempSuffix, (parent.child (s.name stem)).Within home := by
  let s₀ : TempSuffix := ⟨"abcdefgh".toList, rfl, rfl⟩
  simp only [stagesIn, Bool.or_eq_true, Bool.and_eq_true, decide_eq_true_eq, and_assoc,
    child_eq_iff, Location.child_within]
  constructor
  · rintro (h | ⟨s, h⟩)
    · exact ⟨s₀, .inl h⟩
    · exact ⟨s, .inr h⟩
  · rintro ⟨s, h | h⟩
    · exact .inl h
    · exact .inr ⟨s, h⟩

instance (home : Location) : (c : FileCall) → Decidable (c.Touches home)
  | .ensure_dir l => inferInstanceAs (Decidable (l.Within home))
  | .make_temp_dir _ _ => decidable_of_iff _ stagesIn_iff
  | .extract _ into => inferInstanceAs (Decidable (into.Overlaps home))
  | .remove_tree l => inferInstanceAs (Decidable (l.Overlaps home))
  | .move src dst => inferInstanceAs (Decidable (src.Overlaps home ∨ dst.Overlaps home))
  | .copy_tree _ dst => inferInstanceAs (Decidable (dst.Overlaps home))
  | .archive_exists _ | .validate_tar_members _ | .archive_root_name _ | .exists_ _
  | .children _ => inferInstanceAs (Decidable False)

/-! ## The stores -/

/-- What the target's filestore is, for a call that replaces it. -/
inductive Content where
  | old
  | new
  | other
  deriving DecidableEq, Repr

/-- Both stores of the target, the database that last bore the temporary name, whether the
filestore has been touched, and whether the database was promoted. -/
structure Stores where
  catalog : Catalog
  incoming : Option Oid
  home : Content := .old
  touched : Bool := false
  promoted : Bool := false

/-- What is moved or copied takes the place of the filestore. -/
def Installs (home : Location) : FileCall → Prop
  | .move _ dst => dst = home
  | .copy_tree _ dst => dst = home
  | _ => False

instance (home : Location) : (c : FileCall) → Decidable (Installs home c)
  | .move _ dst => inferInstanceAs (Decidable (dst = home))
  | .copy_tree _ dst => inferInstanceAs (Decidable (dst = home))
  | .archive_exists _ | .validate_tar_members _ | .archive_root_name _ | .exists_ _
  | .ensure_dir _ | .make_temp_dir _ _ | .extract _ _ | .children _ | .remove_tree _ =>
    inferInstanceAs (Decidable False)

theorem Installs.touches {home : Location} {c : FileCall} (h : Installs home c) :
    c.Touches home := by
  cases c with
  | move src dst =>
    obtain rfl : dst = home := h
    exact .inr (.inl (Location.within_refl _))
  | copy_tree src dst =>
    obtain rfl : dst = home := h
    exact .inl (Location.within_refl _)
  | _ => exact h.elim

def isPromotion (temp_db target_db : DbName) : AdapterCall → Bool
  | .psql _ (.renameDatabase old new) => old == temp_db && new == target_db
  | _ => false

/-- A call on the server that fails took effect or did not; one on a filestore that fails may
leave it in any state. -/
def stores (home : Location) (temp_db target_db : DbName) : World Services Stores
  | .inl a, s, (r : Except AdapterError _), t =>
    failing a s.catalog r t.catalog ∧
      t.incoming = (t.catalog (serverName temp_db)).or s.incoming ∧ t.home = s.home ∧
      t.touched = s.touched ∧
      t.promoted = (s.promoted || (isPromotion temp_db target_db a && r.isOk))
  | .inr (.inl c), s, (r : Except String _), t =>
    t = { s with home := t.home, touched := s.touched || decide (c.Touches home) } ∧
      (¬ c.Touches home → t.home = s.home) ∧ (Installs home c → r.isOk = true → t.home = .new)
  | .inr (.inr _), s, _, t => t = s

/-- From the first change of the filestore to the promotion of the database nothing raises. -/
def undisturbed (home : Location) (temp_db target_db : DbName) : World Services Stores :=
  fun o s r t => stores home temp_db target_db o s r t ∧
    (t.touched = true → s.promoted = false → ¬ Raised o r)

/-- Both stores are as they were, or both are the new ones. -/
def OfOnePiece (target_db : DbName) (s t : Stores) : Prop :=
  (t.catalog (live target_db) = s.catalog (live target_db) ∧ t.home = s.home) ∨
  (t.catalog (live target_db) ≠ none ∧ t.catalog (live target_db) = t.incoming ∧ t.home = .new)

/-- Where a call starts. -/
structure Untouched (temp_db : DbName) (s : Stores) : Prop where
  incoming : ∀ o, s.catalog (serverName temp_db) = some o → s.incoming = some o
  home : s.home = .old
  touched : s.touched = false
  promoted : s.promoted = false

/-! ## The calls -/

inductive Request where
  | restore (environment backup : String)
  | restore_to_env (source target backup : String)
  | clone (source target : String) (sanitize : Option Bool) (preview : Bool)
  deriving DecidableEq, Repr

def Request.target : Request → String
  | .restore environment _ => environment
  | .restore_to_env _ target _ => target
  | .clone _ target _ _ => target

def Request.program (host : Host) (cfg : ConfigFields) : Request → ServiceM Unit
  | .restore environment backup => EnvironmentServices.run_restore host cfg environment backup
  | .restore_to_env source target backup =>
    EnvironmentServices.restore_to_env host cfg source target backup
  | .clone source target sanitize preview => run_clone host cfg source target sanitize preview

/-- What is staged for a filestore is staged beside it. -/
structure StagedBeside (target : HostPath) (stem : String) : Prop where
  parent : ¬ target.parent.Within target.here
  staged : ∀ s : TempSuffix, ¬ (target.parent.child (s.name stem)).Overlaps target.here

variable {home l : Location} {temp_db target_db : DbName} {s₀ s t : Stores} {α ε : Type}

/-! ## Phases of a call -/

/-- The database that last bore the temporary name is known. -/
def Tracks (temp_db : DbName) (s : Stores) : Prop :=
  ∀ o, s.catalog (serverName temp_db) = some o → s.incoming = some o

/-- Neither store was changed. -/
structure Before (temp_db target_db : DbName) (s₀ s : Stores) : Prop where
  tracks : Tracks temp_db s
  kept : s.catalog (live target_db) = s₀.catalog (live target_db)
  home : s.home = s₀.home
  touched : s.touched = false
  promoted : s.promoted = false

/-- The filestore is being replaced, and the database was not promoted. -/
structure Open (temp_db : DbName) (s : Stores) : Prop where
  tracks : Tracks temp_db s
  touched : s.touched = true
  promoted : s.promoted = false

/-- The filestore was replaced, and the database was not promoted. -/
structure Installed (temp_db : DbName) (s : Stores) : Prop extends Open temp_db s where
  home : s.home = .new

/-- Both stores were switched. -/
structure Switched (temp_db target_db : DbName) (s : Stores) : Prop where
  oid : ∃ o, s.catalog (live target_db) = some o ∧ s.incoming = some o
  gone : s.catalog (serverName temp_db) = none
  home : s.home = .new
  promoted : s.promoted = true

theorem Before.ofOnePiece (h : Before temp_db target_db s₀ s) : OfOnePiece target_db s₀ s :=
  .inl ⟨h.kept, h.home⟩

theorem Switched.ofOnePiece (h : Switched temp_db target_db s) : OfOnePiece target_db s₀ s := by
  obtain ⟨o, hlive, hincoming⟩ := h.oid
  refine .inr ⟨?_, hlive.trans hincoming.symm, h.home⟩
  rw [hlive]
  exact Option.some_ne_none o

/-! ## On the filestore -/

section Files

/-- The part of the world that filestore calls see. -/
abbrev files (home : Location) (temp_db target_db : DbName) : World Files Stores :=
  fun c => undisturbed home temp_db target_db (.inr (.inl c))

variable {c : FileCall} {r : Except String c.Answer}

theorem Before.avoided (h : Before temp_db target_db s₀ s) (hc : ¬ c.Touches home)
    (hw : files home temp_db target_db c s r t) : Before temp_db target_db s₀ t := by
  obtain ⟨⟨ht, hsame, -⟩, -⟩ := hw
  have hhome := hsame hc
  rw [decide_eq_false hc, Bool.or_false, hhome] at ht
  subst ht
  exact ⟨h.tracks, h.kept, h.home, h.touched, h.promoted⟩

/-- Once the filestore is touched, nothing raises. -/
theorem open_of_touched (htracks : Tracks temp_db s) (hpromoted : s.promoted = false)
    (hc : s.touched = true ∨ c.Touches home) (hw : files home temp_db target_db c s r t) :
    Open temp_db t ∧ (∃ a, r = .ok a) ∧ (¬ c.Touches home → t.home = s.home) ∧
      (Installs home c → t.home = .new) := by
  obtain ⟨⟨ht, hsame, hinstalls⟩, hsmooth⟩ := hw
  have htouched : t.touched = true := by
    rw [ht]
    rcases hc with hc | hc
    · simp [hc]
    · simp [hc]
  have hraised := hsmooth htouched hpromoted
  obtain ⟨a, rfl⟩ : ∃ a, r = .ok a := by
    cases r with
    | ok a => exact ⟨a, rfl⟩
    | error e => exact absurd rfl hraised
  refine ⟨⟨?_, htouched, ?_⟩, ⟨a, rfl⟩, hsame, fun hi => hinstalls hi rfl⟩
  · rw [ht]
    exact htracks
  · rw [ht]
    exact hpromoted

/-- What is asked of a call before the swap: nothing. -/
abbrev Anything {F : Interface} (_ : F.Op) (_ : Stores) : Prop := True

/-- The filestore was replaced, or the program raised and nothing was changed. -/
def Replaced (temp_db target_db : DbName) (s₀ : Stores) (r : Except ε Unit) (t : Stores) : Prop :=
  (r = .ok () ∧ Installed temp_db t) ∨ ((∃ e, r = .error e) ∧ Before temp_db target_db s₀ t)

theorem wp_send_before {Q : Except String c.Answer → Stores → Prop}
    (h : Before temp_db target_db s₀ s) (hc : ¬ c.Touches home)
    (hq : ∀ r t, Before temp_db target_db s₀ t → Q r t) :
    wp (files home temp_db target_db) Anything (send c) Q s :=
  wp_perform.mpr ⟨trivial, fun r t ht => hq r t (h.avoided hc ht)⟩

theorem wp_send_open {Q : Except String c.Answer → Stores → Prop} (htracks : Tracks temp_db s)
    (hpromoted : s.promoted = false) (hc : s.touched = true ∨ c.Touches home)
    (hq : ∀ a t, Open temp_db t → (¬ c.Touches home → t.home = s.home) →
      (Installs home c → t.home = .new) → Q (.ok a) t) :
    wp (files home temp_db target_db) Anything (send c) Q s := by
  refine wp_perform.mpr ⟨trivial, fun r t ht => ?_⟩
  obtain ⟨hopen, ⟨a, rfl⟩, hsame, hinstalls⟩ := open_of_touched htracks hpromoted hc ht
  exact hq a t hopen hsame hinstalls

theorem wp_avoids {m : FileM α} (h : Before temp_db target_db s₀ s) (hm : m.Calls (Avoids home)) :
    wp (files home temp_db target_db) Anything m (fun _ t => Before temp_db target_db s₀ t) s :=
  wp_keeps (P := fun t => Before temp_db target_db s₀ t) hm h (fun _ _ _ _ => trivial)
    fun _ _ _ _ hc hs hw => hs.avoided hc hw

theorem wp_replace_by (h : Before temp_db target_db s₀ s) :
    wp (files home temp_db target_db) Anything (FilestoreAdapter.replace_by l home)
      (Replaced temp_db target_db s₀) s := by
  have hself : home.Overlaps home := .inl (Location.within_refl _)
  have hmove : ∀ u, Tracks temp_db u → u.promoted = false →
      wp (files home temp_db target_db) Anything (send (.move l home))
        (Replaced temp_db target_db s₀) u := by
    intro u htracks hpromoted
    refine wp_send_open htracks hpromoted (.inr (.inr hself)) fun a t hopen _ hinstalls => ?_
    exact .inl ⟨rfl, hopen, hinstalls rfl⟩
  refine wp_bind'.mpr (wp_send_before h id fun r t ht => ?_)
  cases r with
  | error e => exact .inr ⟨⟨e, rfl⟩, ht⟩
  | ok found =>
  cases found with
  | false => exact hmove t ht.tracks ht.promoted
  | true =>
    refine wp_bind'.mpr (wp_send_open ht.tracks ht.promoted (.inr hself) ?_)
    intro a u hopen _ _
    exact hmove u hopen.tracks hopen.promoted

/-- A directory that was staged is removed at the end. -/
theorem wp_cleanup {r : Except String Unit} (hl : ¬ l.Overlaps home)
    (h : Replaced temp_db target_db s₀ r s) :
    wp (files home temp_db target_db) Anything
      ((send (.remove_tree l)).bind fun _ => .ofExcept r) (Replaced temp_db target_db s₀) s := by
  rcases h with ⟨rfl, hinstalled⟩ | ⟨⟨e, rfl⟩, hbefore⟩
  · refine wp_bind.mpr (wp_send_open hinstalled.tracks hinstalled.promoted
      (.inl hinstalled.touched) fun a t hopen hsame _ => ?_)
    exact .inl ⟨rfl, hopen, (hsame hl).trans hinstalled.home⟩
  · refine wp_bind.mpr (wp_send_before hbefore hl fun r t ht => ?_)
    cases r with
    | error e' => exact .inr ⟨⟨e', rfl⟩, ht⟩
    | ok a => exact .inr ⟨⟨e, rfl⟩, ht⟩

theorem wp_ensuring_cleanup {body : FileM Unit} (hl : ¬ l.Overlaps home)
    (h : wp (files home temp_db target_db) Anything body (Replaced temp_db target_db s₀) s) :
    wp (files home temp_db target_db) Anything (Prog.ensuring body (send (.remove_tree l)))
      (Replaced temp_db target_db s₀) s :=
  wp_bind.mpr (wp_attempt.mpr (wp_post h fun _ _ hr => wp_cleanup hl hr))

/-! ### On the host -/

variable {target source : HostPath} {stem archive : String}

theorem wp_withTempDir {body : Location → FileM Unit} (hbeside : StagedBeside target stem)
    (h : Before temp_db target_db s₀ s)
    (hbody : ∀ tmpdir, ¬ tmpdir.Overlaps target.here → ∀ t, Before temp_db target_db s₀ t →
      wp (files target.here temp_db target_db) Anything (body tmpdir)
        (Replaced temp_db target_db s₀) t) :
    wp (files target.here temp_db target_db) Anything
      (FilestoreAdapter.withTempDir target.parent stem body) (Replaced temp_db target_db s₀) s := by
  have hdraw : ¬ (FileCall.make_temp_dir target.parent stem).Touches target.here := by
    rintro ⟨x, hx⟩
    exact hbeside.staged x (.inl hx)
  refine wp_bind'.mpr (wp_send_before h hdraw fun r t ht => ?_)
  cases r with
  | error e => exact .inr ⟨⟨e, rfl⟩, ht⟩
  | ok drawn =>
    have hstaged := hbeside.staged drawn
    exact wp_ensuring_cleanup hstaged (hbody _ hstaged t ht)

/-- A call that leaves the filestore alone, and the rest of the replacement. -/
theorem wp_avoid_bind {m : FileM α} {f : α → FileM Unit} (h : Before temp_db target_db s₀ s)
    (hm : m.Calls (Avoids home))
    (hf : ∀ a t, Before temp_db target_db s₀ t → wp (files home temp_db target_db) Anything (f a)
      (Replaced temp_db target_db s₀) t) :
    wp (files home temp_db target_db) Anything (m >>= f) (Replaced temp_db target_db s₀) s := by
  refine wp_bind'.mpr (wp_post (wp_avoids h hm) fun r t ht => ?_)
  cases r with
  | error e => exact .inr ⟨⟨e, rfl⟩, ht⟩
  | ok a => exact hf a t ht

theorem wp_restore_archive (hbeside : StagedBeside target s!".{target.name}.restore-")
    (h : Before temp_db target_db s₀ s) :
    wp (files target.here temp_db target_db) Anything
      (FilestoreAdapter.restore_archive archive target) (Replaced temp_db target_db s₀) s := by
  refine wp_avoid_bind h (calls_send.mpr id) fun found s h => ?_
  split
  swap
  · exact .inr ⟨⟨_, rfl⟩, h⟩
  refine wp_avoid_bind h (calls_send.mpr id) fun _ s h => ?_
  refine wp_avoid_bind h (calls_send.mpr hbeside.parent) fun _ s h => ?_
  refine wp_withTempDir hbeside h fun tmpdir hstaged s h => ?_
  refine wp_avoid_bind h (calls_send.mpr hstaged) fun _ s h => ?_
  have hextracted : (FilestoreAdapter.extracted_dir tmpdir target.name).Calls
      (Avoids target.here) :=
    (calls_bind_extracted (f := fun _ => .pure ()) hstaged fun _ _ => calls_pure ()).first
  exact wp_avoid_bind h hextracted fun x s h => wp_replace_by h

theorem wp_copy (hbeside : StagedBeside target s!".{target.name}.copy-")
    (h : Before temp_db target_db s₀ s) :
    wp (files target.here temp_db target_db) Anything (FilestoreAdapter.copy source target)
      (Replaced temp_db target_db s₀) s := by
  refine wp_avoid_bind h (calls_send.mpr id) fun found s h => ?_
  split
  swap
  · exact .inr ⟨⟨_, rfl⟩, h⟩
  refine wp_avoid_bind h (calls_send.mpr hbeside.parent) fun _ s h => ?_
  refine wp_withTempDir hbeside h fun tmpdir hstaged s h => ?_
  have hcopied : ¬ (tmpdir.child target.name).Overlaps target.here := fun hx =>
    hstaged (Location.Overlaps.of_child hx)
  exact wp_avoid_bind h (calls_send.mpr hcopied) fun _ s h => wp_replace_by h

/-! ### In a volume -/

variable {fs : RuntimeVolumeFilestore} {name from_name : String}

theorem stage_apart : ¬ (fs.stage name).Overlaps (fs.container_filestore_dir name) := by
  intro h
  have hname := congrArg (fun s => s.toList.length) (Location.child_overlaps_child.mp h)
  simp only [String.toList_append, List.length_append] at hname
  have hpos : 0 < ".odooctl-restore-".toList.length := by decide
  omega

theorem wp_volume_restore (h : Before temp_db target_db s₀ s) :
    wp (files (fs.container_filestore_dir name) temp_db target_db) Anything
      (fs.restore_archive archive name) (Replaced temp_db target_db s₀) s := by
  have hparent : ¬ fs.parent.Within (fs.container_filestore_dir name) :=
    Location.not_within_child _ _
  have hself : (fs.container_filestore_dir name).Overlaps (fs.container_filestore_dir name) :=
    .inl (Location.within_refl _)
  refine wp_avoid_bind h (calls_send.mpr id) fun found s h => ?_
  split
  swap
  · exact .inr ⟨⟨_, rfl⟩, h⟩
  refine wp_avoid_bind h (calls_send.mpr id) fun _ s h => ?_
  refine wp_avoid_bind h (calls_send.mpr id) fun root s h => ?_
  refine wp_avoid_bind h (calls_send.mpr hparent) fun _ s h => ?_
  refine wp_avoid_bind h (calls_send.mpr stage_apart) fun _ s h => ?_
  refine wp_avoid_bind h (calls_send.mpr fun hw => stage_apart (.inl hw)) fun _ s h => ?_
  refine wp_ensuring_cleanup stage_apart ?_
  refine wp_avoid_bind h (calls_send.mpr stage_apart) fun _ s h => ?_
  refine wp_bind'.mpr (wp_send_open h.tracks h.promoted (.inr hself) fun a t hopen _ _ => ?_)
  refine wp_send_open hopen.tracks hopen.promoted (.inl hopen.touched) fun a t hopen _ hinstalls => ?_
  exact .inl ⟨rfl, hopen, hinstalls rfl⟩

theorem wp_volume_copy (h : Before temp_db target_db s₀ s) :
    wp (files (fs.container_filestore_dir name) temp_db target_db) Anything
      (fs.copy from_name name) (Replaced temp_db target_db s₀) s := by
  have hparent : ¬ fs.parent.Within (fs.container_filestore_dir name) :=
    Location.not_within_child _ _
  have hself : (fs.container_filestore_dir name).Overlaps (fs.container_filestore_dir name) :=
    .inl (Location.within_refl _)
  refine wp_avoid_bind h (calls_send.mpr hparent) fun _ s h => ?_
  refine wp_bind'.mpr (wp_send_open h.tracks h.promoted (.inr hself) fun a t hopen _ _ => ?_)
  refine wp_send_open hopen.tracks hopen.promoted (.inl hopen.touched) fun a t hopen _ hinstalls => ?_
  exact .inl ⟨rfl, hopen, hinstalls rfl⟩

end Files

/-! ## The filestore of an environment -/

/-- What an environment's filestore has to be staged like. -/
def Beside (host : Host) (e : EnvironmentConfig) : Prop :=
  e.filestore_volume = none →
    StagedBeside (host.resolve_path e.filestore_path)
      s!".{(host.resolve_path e.filestore_path).name}.restore-" ∧
    StagedBeside (host.resolve_path e.filestore_path)
      s!".{(host.resolve_path e.filestore_path).name}.copy-"

section Environment

variable {host : Host} {cfg : OdooCtlConfig} {e : EnvironmentConfig} {name : String}

theorem wp_onFiles {m : FileM α} {Q : Except ServiceError α → Stores → Prop} :
    wp (undisturbed home temp_db target_db) Anything (onFiles m) Q s ↔
      wp (files home temp_db target_db) Anything m (fun r t => Q (r.mapError .raised) t) s :=
  wp_onRight.trans (wp_onLeft.trans wp_mapError)

theorem wp_replaced_onFiles {m : FileM Unit}
    (h : wp (files home temp_db target_db) Anything m (Replaced temp_db target_db s₀) s) :
    wp (undisturbed home temp_db target_db) Anything (onFiles m)
      (Replaced temp_db target_db s₀) s := by
  refine wp_onFiles.mpr (wp_post h ?_)
  rintro r t (⟨rfl, hinstalled⟩ | ⟨⟨e, rfl⟩, hbefore⟩)
  · exact .inl ⟨rfl, hinstalled⟩
  · exact .inr ⟨⟨_, rfl⟩, hbefore⟩

/-- The adapter of an environment's filestore, on the host or in a volume. -/
theorem wp_on_home (hhome : filestore_home host cfg (name, e) = .ok home)
    {onHost : FileM Unit} {inVolume : RuntimeVolumeFilestore → FileM Unit}
    (hhost : e.filestore_volume = none → home = (host.resolve_path e.filestore_path).here →
      wp (files home temp_db target_db) Anything onHost (Replaced temp_db target_db s₀) s)
    (hvolume : ∀ fs, home =
        fs.container_filestore_dir (PosixPath.parse e.filestore_path).name →
      wp (files home temp_db target_db) Anything (inVolume fs) (Replaced temp_db target_db s₀) s) :
    wp (undisturbed home temp_db target_db) Anything (match e.filestore_volume with
      | some _ => do
        let fs ← orRaise (runtime_volume cfg.toConfigFields name)
        onFiles (inVolume fs)
      | none => onFiles onHost : ServiceM Unit) (Replaced temp_db target_db s₀) s := by
  unfold filestore_home at hhome
  cases hv : e.filestore_volume with
  | none =>
    simp only [hv] at hhome
    exact wp_replaced_onFiles (hhost hv (Except.ok.inj hhome).symm)
  | some v =>
    simp only [hv] at hhome
    cases hfs : runtime_volume cfg.toConfigFields name with
    | error m =>
      rw [hfs] at hhome
      cases hhome
    | ok fs =>
      rw [hfs] at hhome
      exact wp_replaced_onFiles (hvolume fs (Except.ok.inj hhome).symm)

theorem wp_restore_filestore (hbeside : Beside host e)
    (hhome : filestore_home host cfg (name, e) = .ok home) {archive : String}
    (h : Before temp_db target_db s₀ s) :
    wp (undisturbed home temp_db target_db) Anything
      (restore_filestore host cfg.toConfigFields name e archive)
      (Replaced temp_db target_db s₀) s := by
  refine wp_on_home hhome ?_ ?_
  · rintro hv rfl
    exact wp_restore_archive (hbeside hv).1 h
  · rintro fs rfl
    exact wp_volume_restore h

theorem wp_copy_filestore (hbeside : Beside host e)
    (hhome : filestore_home host cfg (name, e) = .ok home) {src : EnvironmentConfig}
    (h : Before temp_db target_db s₀ s) :
    wp (undisturbed home temp_db target_db) Anything
      (copy_filestore host cfg.toConfigFields name src e)
      (Replaced temp_db target_db s₀) s := by
  refine wp_on_home hhome ?_ ?_
  · rintro hv rfl
    exact wp_copy (hbeside hv).2 h
  · rintro fs rfl
    exact wp_volume_copy h

end Environment

/-! ## On the database server -/

section Server

/-- The part of the world that calls on the server see. -/
abbrev databases (home : Location) (temp_db target_db : DbName) : World Adapter Stores :=
  fun a => undisturbed home temp_db target_db (.inl a)

variable {a : AdapterCall} {m n : DbName}

/-- A call that leaves the live name alone promotes nothing. -/
theorem not_promotion (hne : serverName temp_db ≠ live target_db)
    (h : Spares (live target_db) a) : isPromotion temp_db target_db a = false := by
  by_contra hpromotion
  rw [Bool.not_eq_false] at hpromotion
  cases a with
  | psql m sql =>
    cases sql with
    | renameDatabase old new =>
      obtain ⟨rfl, rfl⟩ : old = temp_db ∧ new = target_db := by
        simpa [isPromotion] using hpromotion
      let o : Oid := ⟨1, by decide, by decide⟩
      let c : Catalog := fun x => if x = serverName old then some o else none
      have hnew : c (live new) = none := if_neg hne.symm
      have hspared := h c _ (.psql (.rename (o := o) (if_pos rfl) hnew))
      rw [Catalog.move_new, hnew] at hspared
      cases hspared
    | _ => cases hpromotion
  | _ => cases hpromotion

theorem failing_effect {c d : Catalog} {r : Except AdapterError a.Answer}
    (h : failing a c r d) : Affects c a d ∨ d = c :=
  h.2.imp id And.left

theorem tracks_after {r : Except AdapterError a.Answer}
    (hw : databases home temp_db target_db a s r t) : Tracks temp_db t := by
  intro o ho
  have hincoming := hw.1.2.1
  rw [hincoming, ho]
  rfl

theorem Before.spared (hne : serverName temp_db ≠ live target_db)
    (h : Before temp_db target_db s₀ s) (ha : Spares (live target_db) a)
    {r : Except AdapterError a.Answer} (hw : databases home temp_db target_db a s r t) :
    Before temp_db target_db s₀ t := by
  have htracks := tracks_after hw
  obtain ⟨⟨heffect, -, hhome, htouched, hpromoted⟩, -⟩ := hw
  have hlive : t.catalog (live target_db) = s.catalog (live target_db) := by
    rcases failing_effect heffect with heffect | heffect
    · exact ha _ _ heffect
    · rw [heffect]
  rw [not_promotion hne ha, h.promoted] at hpromoted
  exact ⟨htracks, hlive.trans h.kept, hhome.trans h.home, htouched.trans h.touched, hpromoted⟩

/-- Calls that leave the live database and the filestore alone. -/
def Quiet (home : Location) (target_db : DbName) (o : Services.Op) : Prop :=
  SparesIn (live target_db) o ∧ AvoidsIn home o

theorem wp_quiet {p : ServiceM α} (hne : serverName temp_db ≠ live target_db)
    (hp : p.Calls (Quiet home target_db)) (h : Before temp_db target_db s₀ s) :
    wp (undisturbed home temp_db target_db) Anything p
      (fun _ t => Before temp_db target_db s₀ t) s := by
  refine wp_keeps (P := fun t => Before temp_db target_db s₀ t) hp h (fun _ _ _ _ => trivial) ?_
  rintro (a | c | c) s r t ⟨hspares, havoids⟩ hs hw
  · exact hs.spared hne hspares hw
  · exact hs.avoided havoids hw
  · obtain rfl : t = s := hw.1
    exact hs

/-! ### The swap -/

/-- Nothing raises before the promotion. -/
theorem Installed.after (h : Installed temp_db s) {r : Except AdapterError a.Answer}
    (hw : databases home temp_db target_db a s r t) (ha : isPromotion temp_db target_db a = false) :
    Installed temp_db t ∧ (∃ x, r = .ok x) := by
  have htracks := tracks_after hw
  obtain ⟨⟨heffect, -, hhome, htouched, hpromoted⟩, hsmooth⟩ := hw
  rw [ha, h.promoted] at hpromoted
  refine ⟨⟨⟨htracks, htouched.trans h.touched, hpromoted⟩, hhome.trans h.home⟩, ?_⟩
  have hraised := hsmooth (htouched.trans h.touched) h.promoted
  cases r with
  | ok x => exact ⟨x, rfl⟩
  | error e => exact absurd rfl hraised

theorem wp_psql {sql : Statement} {Q : Except SwapError Unit → Stores → Prop}
    (h : Installed temp_db s) (hsql : isPromotion temp_db target_db (.psql m sql) = false)
    (hq : ∀ t, Installed temp_db t → Q (.ok ()) t) :
    wp (databases home temp_db target_db) Anything (psql m sql) Q s := by
  refine wp_perform.mpr ⟨trivial, fun r t ht => ?_⟩
  obtain ⟨hinstalled, x, rfl⟩ := h.after ht hsql
  exact hq t hinstalled

theorem wp_exists {Q : Except SwapError Bool → Stores → Prop} (h : Installed temp_db s)
    (hq : ∀ b t, Installed temp_db t → Q (.ok b) t) :
    wp (databases home temp_db target_db) Anything (database_exists n) Q s := by
  refine wp_perform.mpr ⟨trivial, fun r t ht => ?_⟩
  obtain ⟨hinstalled, b, rfl⟩ := h.after ht rfl
  exact hq b t hinstalled

theorem wp_drop_if_exists {aside_db : DbName} (hquote : quote_identifier aside_db = .pure ())
    {f : Unit → SwapM Unit} {Q : Except SwapError Unit → Stores → Prop} (h : Installed temp_db s)
    (hf : ∀ t, Installed temp_db t → wp (databases home temp_db target_db) Anything (f ()) Q t) :
    wp (databases home temp_db target_db) Anything (drop_if_exists aside_db m >>= f) Q s := by
  unfold drop_if_exists drop_database terminate_connections
  rw [hquote]
  refine wp_bind'.mpr (wp_bind'.mpr (wp_exists h fun found t h => ?_))
  cases found with
  | false => exact hf t h
  | true => exact wp_bind'.mpr (wp_psql h rfl fun t h => wp_psql h rfl fun t h => hf t h)

theorem executes_rename {c d : Catalog} {old new : DbName}
    (h : Executes c (.renameDatabase old new) d) :
    ∃ o, c (serverName old) = some o ∧ d = c.move (serverName old) (serverName new) o := by
  cases h with
  | rename ho hn => exact ⟨_, ho, rfl⟩

/-- With the rename of the temporary database both stores are switched. -/
theorem wp_promotion (hne : serverName temp_db ≠ live target_db) (h : Installed temp_db s) :
    wp (databases home temp_db target_db) Anything
      (psql m (.renameDatabase temp_db target_db))
      (fun r t => r = .ok () ∧ Switched temp_db target_db t) s := by
  refine wp_perform.mpr ⟨trivial, fun r t ht => ?_⟩
  obtain ⟨⟨heffect, hincoming, hhome, htouched, hpromoted⟩, hsmooth⟩ := ht
  have hraised := hsmooth (htouched.trans h.touched) h.promoted
  cases r with
  | error e => exact absurd rfl hraised
  | ok x =>
  refine ⟨rfl, ?_⟩
  rcases heffect.2 with heffect | ⟨-, hlookup | ⟨e, he⟩⟩
  · obtain ⟨hx⟩ := heffect
    obtain ⟨o, ho, hmoved⟩ := executes_rename hx
    have hgone : t.catalog (serverName temp_db) = none := by
      rw [hmoved]
      exact Catalog.move_old _ _ hne
    have hlive : t.catalog (live target_db) = some o := by
      rw [hmoved]
      exact Catalog.move_new _ _ _ _
    rw [hgone] at hincoming
    have hpromotion : t.promoted = true := by
      rw [hpromoted]
      simp [isPromotion, Except.isOk, Except.toBool]
    exact ⟨⟨o, hlive, hincoming.trans (h.tracks o ho)⟩, hgone, hhome.trans h.home, hpromotion⟩
  · cases hlookup
  · cases he

/-- A call after the promotion that leaves the live name alone and creates no temporary one. -/
def KeepsFree (temp_db : DbName) (a : AdapterCall) : Prop :=
  ∀ c d, Affects c a d → c (serverName temp_db) = none → d (serverName temp_db) = none

theorem Switched.spared (h : Switched temp_db target_db s) (ha : Spares (live target_db) a)
    (hfree : KeepsFree temp_db a) {r : Except AdapterError a.Answer}
    (hw : databases home temp_db target_db a s r t) : Switched temp_db target_db t := by
  obtain ⟨⟨heffect, hincoming, hhome, -, hpromoted⟩, -⟩ := hw
  obtain ⟨o, hlive, ho⟩ := h.oid
  have hgone : t.catalog (serverName temp_db) = none := by
    rcases failing_effect heffect with heffect | heffect
    · exact hfree _ _ heffect h.gone
    · rw [heffect]
      exact h.gone
  have hkept : t.catalog (live target_db) = s.catalog (live target_db) := by
    rcases failing_effect heffect with heffect | heffect
    · exact ha _ _ heffect
    · rw [heffect]
  rw [hgone] at hincoming
  rw [h.promoted] at hpromoted
  exact ⟨⟨o, hkept.trans hlive, hincoming.trans ho⟩, hgone, hhome.trans h.home, hpromoted⟩

theorem calls_drop_keepsFree {x : DbName} : (drop_if_exists x m).Calls (KeepsFree temp_db) := by
  have hpsql : ∀ sql, (∀ c d, Executes c sql d → c (serverName temp_db) = none →
      d (serverName temp_db) = none) → (psql m sql).Calls (KeepsFree temp_db) := by
    intro sql hsql
    refine calls_perform.mpr ?_
    rintro c d ⟨hx⟩ hfree
    exact hsql c d hx hfree
  have hterminate : (terminate_connections x m).Calls (KeepsFree temp_db) := by
    refine hpsql _ ?_
    rintro c d ⟨⟩ hfree
    exact hfree
  have hdrop : (psql m (.dropDatabase x)).Calls (KeepsFree temp_db) := by
    refine hpsql _ ?_
    rintro c d ⟨⟩ hfree
    by_cases hx : serverName temp_db = serverName x
    · rw [hx]
      exact Catalog.drop_self _ _
    · rw [Catalog.drop_other _ hx]
      exact hfree
  have hexists : (database_exists x).Calls (KeepsFree temp_db) := by
    refine calls_perform.mpr ?_
    rintro c d ⟨⟩
  refine calls_bind hexists fun found => ?_
  split
  · refine calls_bind hterminate fun _ => calls_bind ?_ fun _ => hdrop
    unfold quote_identifier
    exact calls_ite (calls_raise _) (calls_pure _)
  · exact calls_pure _

theorem wp_after_promotion {existed : Bool} {aside_db : DbName}
    (hcopy : live target_db ≠ serverName aside_db) (h : Switched temp_db target_db s) :
    wp (databases home temp_db target_db) Anything
      (if existed then drop_if_exists aside_db m else .pure ())
      (fun _ t => Switched temp_db target_db t) s := by
  split
  · have hspares : (drop_if_exists aside_db m).Calls (Spares (live target_db)) :=
      DatabaseIsolation.calls_drop_if_exists hcopy
    have hcalls := calls_and hspares (calls_drop_keepsFree : (drop_if_exists aside_db m).Calls
      (KeepsFree temp_db))
    exact wp_keeps (P := fun t => Switched temp_db target_db t) hcalls h (fun _ _ _ _ => trivial)
      fun _ _ _ _ ha hs hw => hs.spared ha.1 ha.2 hw
  · exact h

/-- The names that a swap quotes are quoted without a complaint. -/
structure Quotable (temp_db target_db : DbName) : Prop where
  temp : quote_identifier temp_db = .pure ()
  target : quote_identifier target_db = .pure ()
  aside : quote_identifier (aside_name target_db) = .pure ()

theorem wp_swap {name : String} {guard : Option (String → Except SwapError Bool)}
    (hguard : refuses_target guard name = .ok false) (hdistinct : temp_db ≠ target_db)
    (hne : serverName temp_db ≠ live target_db) (hcopy : live target_db ≠ copy target_db)
    (hq : Quotable temp_db target_db) (h : Installed temp_db s) :
    wp (databases home temp_db target_db) Anything
      (swap_temp_database postgresHooks temp_db target_db name guard)
      (fun _ t => Switched temp_db target_db t) s := by
  have hpromote : ∀ existed t, Installed temp_db t →
      wp (databases home temp_db target_db) Anything
        (promote_temp temp_db target_db (aside_name target_db) "postgres" existed)
        (fun r t => r = .ok () ∧ Switched temp_db target_db t) t := by
    intro existed t h
    unfold promote_temp rename_database terminate_connections
    rw [hq.temp, hq.target]
    refine wp_bind'.mpr (wp_attempt.mpr (wp_bind'.mpr (wp_psql h rfl fun t h => ?_)))
    refine wp_post (wp_promotion hne h) ?_
    rintro r t ⟨rfl, hswitched⟩
    exact ⟨rfl, hswitched⟩
  have haside : ∀ existed t, Installed temp_db t →
      wp (databases home temp_db target_db) Anything
        (move_aside target_db (aside_name target_db) "postgres" existed)
        (fun r t => r = .ok () ∧ Installed temp_db t) t := by
    intro existed t h
    unfold move_aside rename_database terminate_connections
    rw [hq.target, hq.aside]
    split
    · refine wp_bind'.mpr (wp_psql h rfl fun t h => wp_psql h ?_ fun t h => ⟨rfl, h⟩)
      simp [isPromotion, Ne.symm hdistinct]
    · exact ⟨rfl, h⟩
  unfold swap_temp_database
  rw [hguard]
  refine wp_bind'.mpr ?_
  change wp _ _ (ite _ _ _) _ _
  rw [if_neg Bool.false_ne_true, if_neg hdistinct, if_neg (by simp [postgresHooks])]
  refine wp_drop_if_exists hq.aside h fun t h => ?_
  refine wp_bind'.mpr (wp_exists h fun existed t h => ?_)
  refine wp_bind'.mpr (wp_post (haside existed t h) ?_)
  rintro r t ⟨rfl, h⟩
  refine wp_bind'.mpr (wp_post (hpromote existed t h) ?_)
  rintro r t ⟨rfl, h⟩
  exact wp_after_promotion hcopy h

end Server

/-! ## A path below the project root -/

theorem StagedBeside.of_child {target : HostPath} {stem : String}
    (hhere : target.here = target.parent.child target.name)
    (hstem : target.name.toList.length < stem.toList.length) : StagedBeside target stem := by
  constructor
  · rw [hhere]
    exact Location.not_within_child _ _
  · intro x h
    rw [hhere] at h
    have hlen := congrArg (fun s => s.toList.length) (Location.child_overlaps_child.mp h)
    simp only [TempSuffix.name, String.toList_append, List.length_append] at hlen
    omega

/-- A relative path is resolved to a directory in its parent. -/
theorem resolve_relative {host : Host} {value : String}
    (hrelative : (host.expanduser (.parse value)).absolute = false)
    (hroot : host.real (PosixPath.join host.project_root (host.expanduser (.parse value))) ≠ []) :
    (host.resolve_path value).here =
      (host.resolve_path value).parent.child (host.resolve_path value).name := by
  unfold Host.resolve_path
  simp only [hrelative, Bool.false_eq_true, if_false, Location.child]
  congr 1
  rw [List.getLast?_eq_getLast_of_ne_nil hroot, Option.getD_some]
  exact (List.dropLast_append_getLast hroot).symm

theorem beside_of_relative {host : Host} {e : EnvironmentConfig}
    (hrelative : (host.expanduser (.parse e.filestore_path)).absolute = false)
    (hroot : host.real (PosixPath.join host.project_root
      (host.expanduser (.parse e.filestore_path))) ≠ []) : Beside host e := by
  intro _
  have hhere := resolve_relative hrelative hroot
  refine ⟨.of_child hhere ?_, .of_child hhere ?_⟩
  · change _ < ("." ++ (host.resolve_path e.filestore_path).name ++ ".restore-").toList.length
    simp only [String.toList_append, List.length_append]
    have hpos : 0 < ".restore-".toList.length := by decide
    omega
  · change _ < ("." ++ (host.resolve_path e.filestore_path).name ++ ".copy-").toList.length
    simp only [String.toList_append, List.length_append]
    have hpos : 0 < ".copy-".toList.length := by decide
    omega

/-! ## The services -/

section Services

variable {host : Host} {cfg : OdooCtlConfig} {e src : EnvironmentConfig} {name backup : String}

/-- What is asked of the target for its two stores to be switched as one. -/
structure Switchable (host : Host) (cfg : OdooCtlConfig) (name : String) (e : EnvironmentConfig)
    (home : Location) : Prop where
  filestore : filestore_home host cfg (name, e) = .ok home
  beside : Beside host e
  short : e.db_name.toList.length ≤ 62

theorem Switchable.names (h : Switchable host cfg name e home) :
    serverName (temp_name cfg.toConfigFields e) ≠ live e.db_name ∧
      live e.db_name ≠ copy e.db_name := by
  have hspelled : ∀ x ∈ [cfg.temp_db_suffix, OLD_SWAP], live e.db_name ≠ spelled e x := by
    intro x hx
    have hx := (live_ne_marked hx).mpr h.short
    rwa [spelled, String.append_empty] at hx
  exact ⟨(hspelled cfg.temp_db_suffix (by simp)).symm, hspelled OLD_SWAP (by simp)⟩

theorem quotable : Quotable (temp_name cfg.toConfigFields e) e.db_name :=
  ⟨quote_ending suffix_mem_endings, quote_of_identifier (db_name_chars e),
    quote_ending (old_swap_mem_endings : OLD_SWAP ∈ endings cfg)⟩

theorem quiet_step (c : ServiceStep) : Quiet home target_db (.inr (.inr c)) := ⟨trivial, trivial⟩

theorem quiet_onDatabase {m : SwapM α} (h : m.Calls (Spares (live target_db))) :
    (onDatabase m).Calls (Quiet home target_db) :=
  calls_and (DatabaseIsolation.calls_onDatabase h) (FilestoreIsolation.calls_onDatabase _)

/-- A part that changes neither store, and the rest. -/
theorem wp_quiet_bind {p : ServiceM α} {f : α → ServiceM Unit}
    {Q : Except ServiceError Unit → Stores → Prop} (hne : serverName temp_db ≠ live target_db)
    (hp : p.Calls (Quiet home target_db)) (h : Before temp_db target_db s₀ s)
    (herror : ∀ e t, Before temp_db target_db s₀ t → Q (.error e) t)
    (hf : ∀ a t, Before temp_db target_db s₀ t →
      wp (undisturbed home temp_db target_db) Anything (f a) Q t) :
    wp (undisturbed home temp_db target_db) Anything (p >>= f) Q s := by
  refine wp_bind'.mpr (wp_post (wp_quiet hne hp h) ?_)
  rintro (m | a) t ht
  · exact herror m t ht
  · exact hf a t ht

theorem replaced_error (m : ServiceError) (t : Stores) (h : Before temp_db target_db s₀ t) :
    Replaced temp_db target_db s₀ (.error m) t := .inr ⟨⟨m, rfl⟩, h⟩

theorem wp_prepare_restore (h : Switchable host cfg name e home)
    (hs : Before (temp_name cfg.toConfigFields e) e.db_name s₀ s) :
    wp (undisturbed home (temp_name cfg.toConfigFields e) e.db_name) Anything
      (prepare_restore host cfg.toConfigFields name e backup)
      (Replaced (temp_name cfg.toConfigFields e) e.db_name s₀) s := by
  have hne := h.names.1
  have hrestore : ∀ mode, (onDatabase (restore mode (temp_name cfg.toConfigFields e))).Calls
      (Quiet home e.db_name) := fun mode =>
    quiet_onDatabase (DatabaseIsolation.calls_restore hne.symm)
  refine wp_quiet_bind hne (calls_step quiet_step _) hs replaced_error fun dir t ht => ?_
  refine wp_quiet_bind hne (calls_step quiet_step _) ht replaced_error fun _ t ht => ?_
  split
  · exact replaced_error _ t ht
  refine wp_quiet_bind hne (hrestore _) ht replaced_error fun _ t ht => ?_
  exact wp_restore_filestore h.beside h.filestore ht

/-- `if b then p else pass`, and the rest. -/
theorem calls_if_quiet {b : Bool} {p : ServiceM Unit} (hp : p.Calls (Quiet home target_db)) :
    (if b then p else .pure ()).Calls (Quiet home target_db) :=
  calls_ite hp (calls_pure _)

theorem wp_prepare_restore_to_env {source : String} {b : Bool}
    (h : Switchable host cfg name e home)
    (hs : Before (temp_name cfg.toConfigFields e) e.db_name s₀ s) :
    wp (undisturbed home (temp_name cfg.toConfigFields e) e.db_name) Anything
      (prepare_restore_to_env host cfg.toConfigFields source name e b backup)
      (Replaced (temp_name cfg.toConfigFields e) e.db_name s₀) s := by
  have hne := h.names.1
  have hrest : ∀ archive t, Before (temp_name cfg.toConfigFields e) e.db_name s₀ t →
      wp (undisturbed home (temp_name cfg.toConfigFields e) e.db_name) Anything (do
        onDatabase (restore cfg.runtime.execution_mode (temp_name cfg.toConfigFields e))
        neutralize_if b (temp_name cfg.toConfigFields e) name
        restore_filestore host cfg.toConfigFields name e archive)
        (Replaced (temp_name cfg.toConfigFields e) e.db_name s₀) t := by
    intro archive t ht
    have hrestore : (onDatabase (restore cfg.runtime.execution_mode
        (temp_name cfg.toConfigFields e))).Calls (Quiet home e.db_name) :=
      quiet_onDatabase (DatabaseIsolation.calls_restore hne.symm)
    refine wp_quiet_bind hne hrestore ht replaced_error fun _ t ht => ?_
    refine wp_quiet_bind hne (calls_neutralize_if quiet_step) ht replaced_error fun _ t ht => ?_
    exact wp_restore_filestore h.beside h.filestore ht
  refine wp_quiet_bind hne (calls_step quiet_step _) hs replaced_error fun dir t ht => ?_
  refine wp_quiet_bind hne (calls_step quiet_step _) ht replaced_error fun _ t ht => ?_
  cases b with
  | true =>
    refine wp_quiet_bind hne (calls_step quiet_step _) ht replaced_error fun _ t ht => ?_
    change wp _ _ (ite _ _ _) _ _
    split
    · exact replaced_error _ t ht
    refine wp_quiet_bind hne (calls_ofExcept _) ht replaced_error fun _ t ht => ?_
    refine wp_quiet_bind hne (calls_step quiet_step _) ht replaced_error fun _ t ht => ?_
    exact hrest _ t ht
  | false =>
    refine wp_quiet_bind hne (calls_pure _) ht replaced_error fun _ t ht => ?_
    change wp _ _ (ite _ _ _) _ _
    split
    · exact replaced_error _ t ht
    refine wp_quiet_bind hne (calls_pure _) ht replaced_error fun _ t ht => ?_
    exact hrest _ t ht

theorem quiet_copy_database {source : DbName} (hne : live e.db_name ≠
      serverName (temp_name cfg.toConfigFields e)) :
    (copy_database cfg.toConfigFields source (temp_name cfg.toConfigFields e)).Calls
      (Quiet home e.db_name) := by
  unfold copy_database
  split
  · exact calls_bind (quiet_onDatabase (DatabaseIsolation.calls_drop_create hne)) fun _ =>
      calls_step quiet_step _
  · refine calls_ensuring (calls_bind (calls_step quiet_step _) fun _ => ?_)
      (calls_step quiet_step _)
    exact quiet_onDatabase (DatabaseIsolation.calls_restore hne)

theorem wp_prepare_clone {b : Bool} (h : Switchable host cfg name e home)
    (hs : Before (temp_name cfg.toConfigFields e) e.db_name s₀ s) :
    wp (undisturbed home (temp_name cfg.toConfigFields e) e.db_name) Anything
      (prepare_clone host cfg.toConfigFields name src e b)
      (Replaced (temp_name cfg.toConfigFields e) e.db_name s₀) s := by
  have hne := h.names.1
  have hrest : ∀ t, Before (temp_name cfg.toConfigFields e) e.db_name s₀ t →
      wp (undisturbed home (temp_name cfg.toConfigFields e) e.db_name) Anything
        (if temp_name cfg.toConfigFields e = e.db_name then fails not_distinct
        else do
          copy_database cfg.toConfigFields src.db_name (temp_name cfg.toConfigFields e)
          neutralize_if b (temp_name cfg.toConfigFields e) name
          copy_filestore host cfg.toConfigFields name src e)
        (Replaced (temp_name cfg.toConfigFields e) e.db_name s₀) t := by
    intro t ht
    split
    · exact replaced_error _ t ht
    refine wp_quiet_bind hne (quiet_copy_database hne.symm) ht replaced_error fun _ t ht => ?_
    refine wp_quiet_bind hne (calls_neutralize_if quiet_step) ht replaced_error fun _ t ht => ?_
    exact wp_copy_filestore h.beside h.filestore ht
  refine wp_quiet_bind hne (calls_step quiet_step _) hs replaced_error fun missing t ht => ?_
  split
  · exact replaced_error _ t ht
  cases b with
  | true =>
    refine wp_quiet_bind hne (calls_step quiet_step _) ht replaced_error fun _ t ht => ?_
    refine wp_quiet_bind hne (calls_ofExcept _) ht replaced_error fun _ t ht => ?_
    refine wp_quiet_bind hne (calls_step quiet_step _) ht replaced_error fun _ t ht => ?_
    exact hrest t ht
  | false =>
    refine wp_quiet_bind hne (calls_pure _) ht replaced_error fun _ t ht => ?_
    refine wp_quiet_bind hne (calls_ofExcept _) ht replaced_error fun _ t ht => ?_
    refine wp_quiet_bind hne (calls_pure _) ht replaced_error fun _ t ht => ?_
    exact hrest t ht

/-- The calls of a service after its swap. -/
def IsStep : Services.Op → Prop
  | .inr (.inr _) => True
  | _ => False

/-- What is prepared, swapped in and finished. -/
theorem wp_switch {prepare finish : ServiceM Unit}
    {guard : Option (String → Except SwapError Bool)} (h : Switchable host cfg name e home)
    (hguard : refuses_target guard name = .ok false)
    (hprepare : wp (undisturbed home (temp_name cfg.toConfigFields e) e.db_name) Anything prepare
      (Replaced (temp_name cfg.toConfigFields e) e.db_name s₀) s)
    (hfinish : finish.Calls IsStep) :
    wp (undisturbed home (temp_name cfg.toConfigFields e) e.db_name) Anything (do
      prepare
      onDatabase (swap_temp_database postgresHooks (temp_name cfg.toConfigFields e) e.db_name name
        guard)
      finish) (fun _ t => OfOnePiece e.db_name s₀ t) s := by
  refine wp_bind'.mpr (wp_post hprepare ?_)
  rintro r t (⟨rfl, hinstalled⟩ | ⟨⟨m, rfl⟩, hbefore⟩)
  swap
  · exact hbefore.ofOnePiece
  have hswap : wp (databases home (temp_name cfg.toConfigFields e) e.db_name) Anything
      (swap_temp_database postgresHooks (temp_name cfg.toConfigFields e) e.db_name name guard)
      (fun _ t => Switched (temp_name cfg.toConfigFields e) e.db_name t) _ :=
    wp_swap hguard (temp_name_ne_live e) h.names.1 h.names.2 quotable hinstalled
  refine wp_bind'.mpr (wp_onLeft.mpr (wp_mapError.mpr (wp_post hswap ?_)))
  rintro (m | a) t ht
  · exact ht.ofOnePiece
  change wp _ _ finish _ _
  refine wp_post (wp_keeps (P := fun u => u = t) hfinish rfl (fun _ _ _ _ => trivial) ?_) ?_
  · rintro (a | c | c) u r v hstep rfl hw
    · exact hstep.elim
    · exact hstep.elim
    · exact hw.1
  · rintro r u rfl
    exact ht.ofOnePiece

theorem isStep (c : ServiceStep) : IsStep (.inr (.inr c)) := trivial

theorem ofOnePiece_error (_ : ServiceError) (t : Stores) (h : Before temp_db target_db s₀ t) :
    OfOnePiece target_db s₀ t := h.ofOnePiece

theorem wp_run_restore (he : env cfg.toConfigFields name = .ok e)
    (h : Switchable host cfg name e home)
    (hs : Before (temp_name cfg.toConfigFields e) e.db_name s₀ s) :
    wp (undisturbed home (temp_name cfg.toConfigFields e) e.db_name) Anything
      (run_restore host cfg.toConfigFields name backup) (fun _ t => OfOnePiece e.db_name s₀ t)
      s := by
  unfold run_restore
  rw [he]
  exact wp_switch h rfl (wp_prepare_restore h hs) (calls_step isStep _)

theorem wp_restore_to_env {source : String} (he : env cfg.toConfigFields name = .ok e)
    (h : Switchable host cfg name e home)
    (hs : Before (temp_name cfg.toConfigFields e) e.db_name s₀ s) :
    wp (undisturbed home (temp_name cfg.toConfigFields e) e.db_name) Anything
      (restore_to_env host cfg.toConfigFields source name backup)
      (fun _ t => OfOnePiece e.db_name s₀ t) s := by
  have hne := h.names.1
  unfold restore_to_env
  rw [he]
  refine wp_quiet_bind hne (calls_ofExcept _) hs ofOnePiece_error fun refused t ht => ?_
  split
  · exact ht.ofOnePiece
  change wp _ _ (orRaise (is_protected cfg.toConfigFields source) >>= _) _ _
  refine wp_quiet_bind hne (calls_ofExcept _) ht ofOnePiece_error fun b t ht => ?_
  split
  · exact ht.ofOnePiece
  refine wp_switch h rfl (wp_prepare_restore_to_env h ht) ?_
  cases b with
  | true => exact calls_bind (calls_step isStep _) fun _ => calls_step isStep _
  | false => exact calls_bind (calls_pure _) fun _ => calls_step isStep _

theorem wp_run_clone {source : String} {sanitize : Option Bool} {preview : Bool}
    (he : env cfg.toConfigFields name = .ok e) (h : Switchable host cfg name e home)
    (hopen : is_protected cfg.toConfigFields name = .ok false)
    (hs : Before (temp_name cfg.toConfigFields e) e.db_name s₀ s) :
    wp (undisturbed home (temp_name cfg.toConfigFields e) e.db_name) Anything
      (run_clone host cfg.toConfigFields source name sanitize preview)
      (fun _ t => OfOnePiece e.db_name s₀ t) s := by
  have hne := h.names.1
  unfold run_clone
  rw [he]
  refine wp_quiet_bind hne (calls_ofExcept _) hs ofOnePiece_error fun src t ht => ?_
  change wp _ _ (ite _ _ _) _ _
  split
  · exact ht.ofOnePiece
  split
  · exact ht.ofOnePiece
  refine wp_quiet_bind hne (calls_ofExcept _) ht ofOnePiece_error fun b t ht => ?_
  split
  · exact ht.ofOnePiece
  refine wp_quiet_bind hne (calls_step quiet_step _) ht ofOnePiece_error fun _ t ht => ?_
  split
  · exact ht.ofOnePiece
  refine wp_switch h ?_ (wp_prepare_clone h ht) (calls_finish_clone isStep)
  rw [refuses_target, hopen]
  rfl

end Services

def stagingHome : Location := (DatabaseIsolation.exampleHost.resolve_path "filestore/odoo").here

theorem staging_switchable : Switchable DatabaseIsolation.exampleHost CloneProtection.mirrorConfig
    "staging" DatabaseIsolation.staging stagingHome :=
  ⟨rfl, beside_of_relative rfl (by decide), by decide⟩

def calm : Stores where
  catalog := DatabaseIsolation.bothLive
  incoming := none

theorem calm_untouched : Untouched "odoo_incoming" calm := by
  refine ⟨?_, rfl, rfl, rfl⟩
  intro o ho
  cases ho

/-- What a call on a filestore leaves of `stagingHome`. -/
def leaves (c : FileCall) (content : Content) : Content :=
  if Installs stagingHome c then .new
  else if c.Touches stagingHome then .other
  else content

/-- The connections of the live database cannot be terminated; all else works. -/
def serveBusy (o : Services.Op) (s : Stores) : Services.Reply o × Stores :=
  match o with
  | .inl a =>
    let (r, d) := if a = .psql "postgres" (.terminateConnections "odoo") then
        (.error "could not terminate connections", s.catalog)
      else serve DatabaseCutoverSafety.restoredOid a s.catalog
    (r, { s with
      catalog := d
      incoming := (d "odoo_incoming").or s.incoming
      promoted := s.promoted || (isPromotion "odoo_incoming" "odoo" a && r.isOk) })
  | .inr (.inl c) => (.ok (DatabaseIsolation.exampleReply c), { s with
      home := leaves c s.home
      touched := s.touched || decide (c.Touches stagingHome) })
  | .inr (.inr c) => (.ok (DatabaseIsolation.exampleStep c), s)

theorem serveBusy_stores (o : Services.Op) (s : Stores) :
    stores stagingHome "odoo_incoming" "odoo" o s (serveBusy o s).1 (serveBusy o s).2 := by
  rcases o with a | c | c
  · refine ⟨?_, rfl, rfl, rfl, rfl⟩
    unfold serveBusy
    by_cases ha : a = .psql "postgres" (.terminateConnections "odoo")
    · subst ha
      exact ⟨trivial, .inr ⟨rfl, .inr ⟨_, rfl⟩⟩⟩
    · simp only [if_neg ha]
      exact serve_failing _ a s.catalog
  · refine ⟨rfl, ?_, ?_⟩
    · intro htouches
      have hinstalls : ¬ Installs stagingHome c := fun h => htouches h.touches
      simp only [serveBusy, leaves, if_neg hinstalls, if_neg htouches]
    · intro hinstalls _
      simp only [serveBusy, leaves, if_pos hinstalls]
  · rfl

def busyRestore : Except ServiceError Unit × Stores :=
  (run_restore DatabaseIsolation.exampleHost CloneProtection.mirrorConfig.toConfigFields "staging"
    "latest").run serveBusy calm

end RestoreAtomicity
