import Odooctl.DatabaseCutoverSafety

/-!
# Swapping a prepared database in

`swap_temp_database` of `odoo/db_swap.py`. The database that last bore the target name is
a ghost beside the catalog. A call keeps it unless it starts while the target name is
free and the leftover copy is that very database, or while the two names are cut to one.
-/
namespace SwapTempDatabase

open EffectPrograms PostgresCatalog DatabaseCutover DatabaseCutoverSafety

def database_exists (name : DbName) : SwapM Bool :=
  .perform (F := Adapter) (.database_exists name) fun
    | .ok b => .ok b
    | .error e => .error (.adapter e)

def aside_name (target_db : DbName) : DbName := target_db ++ "__old_swap"

/-- `if exists_fn(aside_db):` terminate its connections and drop it. -/
def drop_if_exists (aside_db maintenance_db : DbName) : SwapM Unit := do
  if ← database_exists aside_db then
    terminate_connections aside_db maintenance_db
    drop_database aside_db maintenance_db
  else .pure ()

/-- `if target_existed:` move the live target aside. -/
def move_aside (target_db aside_db maintenance_db : DbName) (target_existed : Bool) :
    SwapM Unit := do
  if target_existed then
    terminate_connections target_db maintenance_db
    rename_database target_db aside_db maintenance_db
  else .pure ()

/-- The `try` of the promotion: on failure the original is put back. -/
def promote_temp (temp_db target_db aside_db maintenance_db : DbName) (target_existed : Bool) :
    SwapM Unit := do
  let promoted ← Prog.attempt (ε := SwapError) do
    terminate_connections temp_db maintenance_db
    rename_database temp_db target_db maintenance_db
  match promoted with
  | .ok () => .pure ()
  | .error e =>
    if target_existed then
      if ← database_exists aside_db then
        rename_database aside_db target_db maintenance_db
        .raise e
      else .raise e
    else .raise e

def refuses_target (is_protected_fn : Option (String → Except SwapError Bool))
    (target_env_name : String) : Except SwapError Bool :=
  match is_protected_fn with
  | none => .ok false
  | some f => f target_env_name

/-- Promote a prepared temp DB into the target DB name. -/
def swap_temp_database (pg : Hooks) (temp_db target_db : DbName) (target_env_name : String)
    (is_protected_fn : Option (String → Except SwapError Bool) := none)
    (maintenance_db : DbName := "postgres") : SwapM Unit := do
  let refused ← .ofExcept (refuses_target is_protected_fn target_env_name)
  if refused then
    .raise (.runtimeError ("Refusing to swap a temporary database into protected environment " ++
      s!"'{target_env_name}'"))
  else if temp_db = target_db then
    .raise (.runtimeError "Temporary database name must differ from target database name")
  else if pg.database_exists = false then
    terminate_connections target_db maintenance_db
    drop_database target_db maintenance_db
    terminate_connections temp_db maintenance_db
    rename_database temp_db target_db maintenance_db
  else
    drop_if_exists (aside_name target_db) maintenance_db
    let target_existed ← database_exists target_db
    move_aside target_db (aside_name target_db) maintenance_db target_existed
    promote_temp temp_db target_db (aside_name target_db) maintenance_db target_existed
    if target_existed then drop_if_exists (aside_name target_db) maintenance_db
    else .pure ()

/-! ## The last bearer of the target name -/

/-- The catalog, and the database that most recently bore the target name. -/
abbrev Borne := Catalog × Option Oid

/-- The name under which the server keeps the target. -/
abbrev live (target_db : DbName) : DbName := serverName target_db

/-- The name under which the server keeps the copy that is set aside. -/
abbrev copy (target_db : DbName) : DbName := serverName (aside_name target_db)

/-- Others leave the target name and the aside name alone. -/
def Elsewhere (target_db : DbName) (c d : Catalog) : Prop :=
  d (live target_db) = c (live target_db) ∧ d (copy target_db) = c (copy target_db)

/-- Statements may fail, with their effect or without; reports of success are true. -/
def swapServer (target_db : DbName) : World Adapter Borne := fun o s r t =>
  (failing.under (Elsewhere target_db)) o s.1 r t.1 ∧ t.2 = (t.1 (live target_db)).or s.2

/-- The last bearer of the target name still exists. -/
def BearerExists (s : Borne) : Prop := ∀ o, s.2 = some o → ∃ n, s.1 n = some o

/-- The last bearer is under the target name or set aside. -/
structure Kept (target_db : DbName) (s : Borne) : Prop where
  bearer : ∀ o, s.1 (live target_db) = some o → s.2 = some o
  kept : ∀ o, s.2 = some o → s.1 (live target_db) = some o ∨ s.1 (copy target_db) = some o

/-- The last bearer still bears the target name. -/
def Bearing (target_db : DbName) (s : Borne) : Prop :=
  Kept target_db s ∧ ∀ o, s.2 = some o → s.1 (live target_db) = some o

/-- What the server finds under the aside name is the last bearer of the target name. -/
def Stranded (target_db : DbName) (s : Borne) : Prop :=
  s.2 ≠ none ∧ s.1 (copy target_db) = s.2

variable {target_db temp_db m : DbName} {pg : Hooks} {s : Borne} {c d : Catalog}

theorem elsewhere_refl (c : Catalog) : Elsewhere target_db c c := ⟨rfl, rfl⟩

theorem Kept.bearerExists (h : Kept target_db s) : BearerExists s := by
  intro o ho
  rcases h.kept o ho with h | h
  · exact ⟨_, h⟩
  · exact ⟨_, h⟩

theorem Kept.elsewhere {t : Borne} (h : Kept target_db s) (hc : Elsewhere target_db s.1 t.1)
    (ht : t.2 = s.2) : Kept target_db t := by
  obtain ⟨hlive, hcopy⟩ := hc
  constructor
  · rw [hlive, ht]
    exact h.bearer
  · rw [hlive, hcopy, ht]
    exact h.kept

theorem Kept.unchanged (h : Kept target_db s) : (s.1 (live target_db)).or s.2 = s.2 := by
  cases ht : s.1 (live target_db) with
  | none => rfl
  | some o =>
    rw [h.bearer o ht]
    rfl

/-- Where the leftover copy is not the last bearer, the target is. -/
theorem Kept.bearing (h : Kept target_db s) (hn : ¬ Stranded target_db s) :
    Bearing target_db s := by
  refine ⟨h, fun o ho => (h.kept o ho).resolve_right fun hcopy => hn ⟨?_, ?_⟩⟩
  · rw [ho]
    exact Option.some_ne_none o
  · rw [hcopy, ho]

/-- An unstranded last bearer has an aside name other than its own. -/
theorem Bearing.apart {o : Oid} (h : Bearing target_db s) (hn : ¬ Stranded target_db s)
    (ho : s.2 = some o) : copy target_db ≠ live target_db := by
  intro hcopy
  refine hn ⟨?_, ?_⟩
  · rw [ho]
    exact Option.some_ne_none o
  · rw [hcopy, h.2 o ho, ho]

/-- What a statement leaves: the new catalog, and the bearer that it shows. -/
def shown (target_db : DbName) (d : Catalog) (last : Option Oid) : Borne :=
  (d, (d (live target_db)).or last)

theorem bearing_of_shown {o : Oid} (ht : d (live target_db) = some o) {last : Option Oid} :
    Bearing target_db (shown target_db d last) := by
  have hshown : (shown target_db d last).2 = some o := by simp [shown, ht]
  refine ⟨⟨?_, ?_⟩, ?_⟩
  · intro x hx
    rw [hshown, ← hx]
    exact ht.symm
  · intro x hx
    rw [hshown] at hx
    exact .inl (ht.trans hx)
  · intro x hx
    rw [hshown] at hx
    exact ht.trans hx

theorem bearing_rename_to_target {x : DbName}
    (hx : Executes s.1 (.renameDatabase x target_db) d) :
    Bearing target_db (shown target_db d s.2) := by
  cases hx with
  | @rename _ _ o ho hn => exact bearing_of_shown (Catalog.move_new _ _ _ o)

theorem kept_move_aside (h : Kept target_db s)
    (hx : Executes s.1 (.renameDatabase target_db (aside_name target_db)) d) :
    Kept target_db (shown target_db d s.2) := by
  cases hx with
  | @rename _ _ o ho hn =>
    have hlast := h.bearer o ho
    have hne : live target_db ≠ copy target_db := by
      intro he
      have hboth : s.1 (copy target_db) = some o := he ▸ ho
      rw [hboth] at hn
      cases hn
    have ht : (s.1.move (live target_db) (copy target_db) o) (live target_db) = none :=
      Catalog.move_old _ _ hne
    have hshown : (shown target_db (s.1.move (live target_db) (copy target_db) o) s.2).2 =
        some o := by
      simp [shown, ht, hlast]
    constructor
    · intro x hx
      exact absurd (ht.symm.trans hx) (by simp)
    · intro x hx
      rw [hshown] at hx
      refine .inr ?_
      rw [← hx]
      exact Catalog.move_new _ _ _ _

/-- Dropping the leftover copy keeps a bearer that is under the target name. -/
theorem bearing_drop_aside (h : Bearing target_db s) (hne : copy target_db ≠ live target_db)
    (hx : Executes s.1 (.dropDatabase (aside_name target_db)) d) :
    Bearing target_db (shown target_db d s.2) ∧ (shown target_db d s.2).2 = s.2 := by
  cases hx with
  | drop =>
    have ht : (s.1.drop (copy target_db)) (live target_db) = s.1 (live target_db) :=
      Catalog.drop_other _ (Ne.symm hne)
    have hshown : (shown target_db (s.1.drop (copy target_db)) s.2).2 = s.2 := by
      rw [shown, ht]
      exact h.1.unchanged
    refine ⟨⟨⟨?_, ?_⟩, ?_⟩, hshown⟩
    · intro o ho
      rw [hshown]
      exact h.1.bearer o (ht.symm.trans ho)
    · intro o ho
      rw [hshown] at ho
      exact .inl (ht.trans (h.2 o ho))
    · intro o ho
      rw [hshown] at ho
      exact ht.trans (h.2 o ho)

/-! ## One call -/

theorem Bearing.elsewhere {t : Borne} (h : Bearing target_db s)
    (hc : Elsewhere target_db s.1 t.1) (ht : t.2 = s.2) : Bearing target_db t := by
  refine ⟨h.1.elsewhere hc ht, fun o ho => ?_⟩
  rw [hc.1]
  exact h.2 o (ht ▸ ho)

/-- What one statement may leave behind. -/
theorem wp_send {sql : Statement} {Q : Except SwapError Unit → Borne → Prop}
    (h : Kept target_db s)
    (hq : ∀ r t b, Elsewhere target_db b.1 t.1 → t.2 = b.2 →
      (b = s ∧ (∃ e, r = .error e) ∨ ∃ d, Executes s.1 sql d ∧ b = shown target_db d s.2) →
      Q r t) :
    wp (swapServer target_db) (fun _ t => Kept target_db t) (psql m sql) Q s := by
  refine wp_perform.mpr ⟨h, ?_⟩
  rintro r t ⟨⟨d, ⟨-, heff⟩, helse⟩, hlast⟩
  rw [helse.1] at hlast
  rcases heff with heff | ⟨rfl, hfail⟩
  · obtain ⟨hx⟩ := heff
    exact hq _ t (shown target_db d s.2) helse hlast (.inr ⟨d, hx, rfl⟩)
  · refine hq _ t s helse (hlast.trans h.unchanged) (.inl ⟨rfl, ?_⟩)
    rcases hfail with hfail | ⟨e, rfl⟩
    · cases hfail
    · exact ⟨_, rfl⟩

theorem wp_exists {n : DbName} {Q : Except SwapError Bool → Borne → Prop}
    (h : Kept target_db s)
    (hq : ∀ r t, Elsewhere target_db s.1 t.1 → t.2 = s.2 →
      (∀ b, r = .ok b → b = (s.1 (serverName n)).isSome) → Q r t) :
    wp (swapServer target_db) (fun _ t => Kept target_db t) (database_exists n) Q s := by
  refine wp_perform.mpr ⟨h, ?_⟩
  rintro r t ⟨⟨d, ⟨htrue, heff⟩, helse⟩, hlast⟩
  have hd : d = s.1 := by
    rcases heff with heff | ⟨hd, -⟩
    · cases heff
    · exact hd
  subst hd
  rw [helse.1, h.unchanged] at hlast
  refine hq _ t helse hlast fun b hb => ?_
  cases r with
  | error e => cases hb
  | ok x =>
    cases hb
    exact htrue

/-- What a part of a call guarantees: the last bearer always, and `ok` when it returns. -/
abbrev Keeps (target_db : DbName) {α : Type} (p : SwapM α) (ok : α → Borne → Prop)
    (s : Borne) : Prop :=
  wp (swapServer target_db) (fun _ t => Kept target_db t) p
    (fun r t => Kept target_db t ∧ ∀ x, r = .ok x → ok x t) s

theorem keeps_bind {α β : Type} {p : SwapM α} {f : α → SwapM β} {mid : α → Borne → Prop}
    {ok : β → Borne → Prop} (h : Keeps target_db p mid s)
    (hf : ∀ x t, Kept target_db t → mid x t → Keeps target_db (f x) ok t) :
    Keeps target_db (p >>= f) ok s := by
  refine wp_bind'.mpr (wp_post h ?_)
  rintro (e | x) t ⟨hk, hmid⟩
  · exact ⟨hk, by intro x hx; cases hx⟩
  · exact hf x t hk (hmid x rfl)

theorem keeps_raise {α : Type} {e : SwapError} {ok : α → Borne → Prop} (h : Kept target_db s) :
    Keeps target_db (.raise e : SwapM α) ok s := ⟨h, by intro x hx; cases hx⟩

theorem keeps_pure {α : Type} {a : α} {ok : α → Borne → Prop} (h : Kept target_db s)
    (ha : ok a s) : Keeps target_db (.pure a : SwapM α) ok s :=
  ⟨h, by intro x hx; cases hx; exact ha⟩

/-- Terminating connections changes no name. -/
theorem keeps_terminate {n : DbName} (h : Kept target_db s) :
    Keeps target_db (terminate_connections n m)
      (fun _ t => Elsewhere target_db s.1 t.1 ∧ t.2 = s.2) s := by
  refine wp_send h fun r t b helse hlast heff => ?_
  have hb : b = s := by
    rcases heff with ⟨hb, -⟩ | ⟨d, hx, rfl⟩
    · exact hb
    · cases hx
      exact Prod.ext rfl h.unchanged
  subst hb
  exact ⟨h.elsewhere helse hlast, fun _ _ => ⟨helse, hlast⟩⟩

theorem keeps_rename {old new : DbName} {ok : Borne → Prop} (h : Kept target_db s)
    (heff : ∀ d, Executes s.1 (.renameDatabase old new) d →
      Kept target_db (shown target_db d s.2) ∧
        ∀ t, Elsewhere target_db d t.1 → t.2 = (shown target_db d s.2).2 → ok t) :
    Keeps target_db (rename_database old new m) (fun _ t => ok t) s := by
  unfold rename_database quote_identifier
  rw [Keeps, wp_bind']
  split
  · exact keeps_raise h
  simp only [wp_pure, wp_bind']
  split
  · exact keeps_raise h
  refine wp_send h fun r t b helse hlast hcases => ?_
  rcases hcases with ⟨rfl, e, rfl⟩ | ⟨d, hx, rfl⟩
  · exact ⟨h.elsewhere helse hlast, by intro x hx; cases hx⟩
  · exact ⟨(heff d hx).1.elsewhere helse hlast, fun _ _ => (heff d hx).2 t helse hlast⟩

/-- Renaming to the target name keeps the last bearer, for it is the new one. -/
theorem keeps_promote {x : DbName} (h : Kept target_db s) :
    Keeps target_db (rename_database x target_db m) (fun _ t => Bearing target_db t) s := by
  refine keeps_rename h fun d hx => ?_
  have hb := bearing_rename_to_target hx
  exact ⟨hb.1, fun t helse hlast => hb.elsewhere helse hlast⟩

theorem keeps_exists {n : DbName} (h : Kept target_db s) :
    Keeps target_db (database_exists n)
      (fun b t => Elsewhere target_db s.1 t.1 ∧ t.2 = s.2 ∧
        b = (s.1 (serverName n)).isSome) s := by
  refine wp_exists h fun r t helse hlast hb => ?_
  exact ⟨h.elsewhere helse hlast, fun b hr => ⟨helse, hlast, hb b hr⟩⟩

/-- A leftover copy is dropped only while the last bearer is under another name. -/
theorem keeps_drop_if_exists (h : Bearing target_db s)
    (hne : s.1 (copy target_db) ≠ none → copy target_db ≠ live target_db) :
    Keeps target_db (drop_if_exists (aside_name target_db) m) (fun _ t => t.2 = s.2) s := by
  unfold drop_if_exists
  refine keeps_bind (keeps_exists h.1) ?_
  rintro b t hk ⟨helse, hlast, rfl⟩
  split
  swap
  · exact keeps_pure hk hlast
  next hcopy =>
  have hapart := hne (Option.isSome_iff_ne_none.mp hcopy)
  have hbt : Bearing target_db t := h.elsewhere helse hlast
  refine keeps_bind (keeps_terminate hk) ?_
  rintro - u hk' ⟨helse', hlast'⟩
  have hbu : Bearing target_db u := hbt.elsewhere helse' hlast'
  unfold drop_database quote_identifier
  rw [Keeps, wp_bind']
  split
  · exact ⟨hk', by intro x hx; cases hx⟩
  rw [wp_pure]
  refine wp_send hk' fun r w b helse'' hlast'' hcases => ?_
  rcases hcases with ⟨rfl, -⟩ | ⟨d, hx, rfl⟩
  · exact ⟨hk'.elsewhere helse'' hlast'', fun _ _ => by rw [hlast'', hlast', hlast]⟩
  · obtain ⟨hb, hshown⟩ := bearing_drop_aside hbu hapart hx
    exact ⟨hb.1.elsewhere helse'' hlast'', fun _ _ => by rw [hlast'', hshown, hlast', hlast]⟩

theorem keeps_promote_temp {target_existed : Bool} (h : Kept target_db s) :
    Keeps target_db
      (promote_temp temp_db target_db (aside_name target_db) m target_existed)
      (fun _ t => Bearing target_db t) s := by
  have hpromote : Keeps target_db (do
        terminate_connections temp_db m
        rename_database temp_db target_db m)
      (fun _ t => Bearing target_db t) s :=
    keeps_bind (keeps_terminate h) fun _ _ hk _ => keeps_promote hk
  unfold promote_temp
  rw [Keeps, wp_bind', wp_attempt]
  refine wp_post hpromote ?_
  rintro (e | ⟨⟩) t ⟨hk, hok⟩
  swap
  · exact keeps_pure hk (hok () rfl)
  simp only
  split
  swap
  · exact keeps_raise hk
  refine keeps_bind (keeps_exists hk) ?_
  rintro b u hk' -
  split
  · exact keeps_bind (keeps_promote hk') fun _ _ hk'' _ => keeps_raise hk''
  · exact keeps_raise hk'

theorem keeps_move_aside {target_existed : Bool} (h : Kept target_db s) :
    Keeps target_db (move_aside target_db (aside_name target_db) m target_existed)
      (fun _ _ => True) s := by
  unfold move_aside
  split
  swap
  · exact keeps_pure h trivial
  refine keeps_bind (keeps_terminate h) fun _ t hk _ => ?_
  exact keeps_rename hk fun d hx => ⟨kept_move_aside hk hx, fun _ _ _ => trivial⟩

/-- A call that does not start stranded keeps the last bearer of the target name. -/
theorem keeps_swap_temp_database {target_env_name : String}
    {is_protected_fn : Option (String → Except SwapError Bool)}
    (hpg : pg.database_exists = true) (h : Kept target_db s) (hn : ¬ Stranded target_db s) :
    Keeps target_db (swap_temp_database pg temp_db target_db target_env_name is_protected_fn m)
      (fun _ _ => True) s := by
  have hb := h.bearing hn
  have hleft : s.1 (copy target_db) ≠ none → copy target_db ≠ live target_db := by
    intro ha hcopy
    obtain ⟨o, ho⟩ := Option.ne_none_iff_exists'.mp ha
    exact hb.apart hn (h.bearer o (hcopy ▸ ho)) hcopy
  have hrest : Keeps target_db (do
      drop_if_exists (aside_name target_db) m
      let target_existed ← database_exists target_db
      move_aside target_db (aside_name target_db) m target_existed
      promote_temp temp_db target_db (aside_name target_db) m target_existed
      if target_existed then drop_if_exists (aside_name target_db) m
      else .pure ()) (fun _ _ => True) s := by
    refine keeps_bind (keeps_drop_if_exists hb hleft) ?_
    rintro - t hk hlast
    refine keeps_bind (keeps_exists hk) ?_
    rintro b u hk' ⟨helse, hlast', rfl⟩
    refine keeps_bind (keeps_move_aside hk') fun _ w hk'' _ => ?_
    refine keeps_bind (keeps_promote_temp hk'') fun _ x hkx hbx => ?_
    split
    · next hexisted =>
      obtain ⟨o, ho⟩ := Option.isSome_iff_exists.mp hexisted
      have hapart := hb.apart hn (hlast ▸ hk.bearer o ho)
      exact wp_post (keeps_drop_if_exists hbx fun _ => hapart)
        fun r y hy => ⟨hy.1, fun _ _ => trivial⟩
    · exact keeps_pure hkx trivial
  unfold swap_temp_database
  have hguard : Keeps target_db (.ofExcept (refuses_target is_protected_fn target_env_name))
      (fun _ t => t = s) s := by
    rw [Keeps, wp_ofExcept]
    exact ⟨h, fun _ _ => rfl⟩
  refine keeps_bind hguard ?_
  rintro refused t hk rfl
  split
  · exact keeps_raise hk
  split
  · exact keeps_raise hk
  simp only [hpg, Bool.true_eq_false, ↓reduceIte]
  exact hrest

/-! ## Runs of calls -/

/-- The arguments of one call. -/
structure SwapCall where
  temp_db : DbName
  target_env_name : String
  is_protected_fn : Option (String → Except SwapError Bool)
  maintenance_db : DbName

def swap (pg : Hooks) (target_db : DbName) (call : SwapCall) : SwapM Unit :=
  swap_temp_database pg call.temp_db target_db call.target_env_name call.is_protected_fn
    call.maintenance_db

/-- The temp database of the call exists. -/
def Prepared (call : SwapCall) (s : Borne) : Prop := s.1 call.temp_db ≠ none

/-- Calls on one target, each run to its end or cut at any statement. -/
abbrev SwapRun (pg : Hooks) (target_db : DbName) (may : SwapCall → Borne → Prop) :
    Borne → Borne → Prop :=
  Session (swapServer target_db) (fun s t => Elsewhere target_db s.1 t.1 ∧ t.2 = s.2) may
    (swap pg target_db)

theorem kept_start (c₀ : Catalog) : Kept target_db (c₀, c₀ (live target_db)) := by
  constructor
  · exact fun _ ho => ho
  · exact fun _ ho => .inl ho

/-- Where no call starts stranded, the last bearer of the target name is never lost. -/
theorem swap_keeps_last_bearer {c₀ : Catalog} (hpg : pg.database_exists = true)
    (hrun : SwapRun pg target_db (fun call t => Prepared call t ∧ ¬ Stranded target_db t)
      (c₀, c₀ (live target_db)) s) : BearerExists s := by
  have hkept : Kept target_db s := by
    refine hrun.invariant (kept_start c₀) ?_ ?_
    · rintro u v hu ⟨helse, hlast⟩
      exact hu.elsewhere helse hlast
    · rintro call u hu ⟨-, hn⟩
      exact wp_post (keeps_swap_temp_database hpg hu hn) fun r t ht => ht.1
  exact hkept.bearerExists

/-- A call that starts stranded can lose the last bearer: it drops what it finds under the
aside name. -/
theorem stranded_call_loses {target_env_name : String} (hpg : pg.database_exists = true)
    (hne : temp_db ≠ target_db) (hk : Kept target_db s) (hst : Stranded target_db s)
    (hnul : (aside_name target_db).toList.contains '\x00' = false)
    (hinj : ∀ n o, s.2 = some o → s.1 n = some o → n = copy target_db) :
    ∃ t q, Steps (swapServer target_db) s
      (swap_temp_database pg temp_db target_db target_env_name none m) t q ∧
      ¬ BearerExists t := by
  obtain ⟨hlast, hcopy⟩ := hst
  obtain ⟨o, ho⟩ := Option.ne_none_iff_exists'.mp hlast
  let t : Borne := (s.1.drop (copy target_db), s.2)
  have hlook : swapServer target_db (.database_exists (aside_name target_db)) s (.ok true) s := by
    refine ⟨⟨s.1, ⟨?_, .inr ⟨rfl, .inl rfl⟩⟩, elsewhere_refl _⟩, hk.unchanged.symm⟩
    change true = (s.1 (copy target_db)).isSome
    rw [hcopy, ho]
    rfl
  have hterm : swapServer target_db (.psql m (.terminateConnections (aside_name target_db))) s
      (.ok ()) s :=
    ⟨⟨s.1, ⟨trivial, .inl (.psql (.terminate _ _))⟩, elsewhere_refl _⟩, hk.unchanged.symm⟩
  have htarget : t.1 (live target_db) = none := by
    by_cases hsame : live target_db = copy target_db
    · rw [hsame]
      exact Catalog.drop_self _ _
    · refine (Catalog.drop_other _ hsame).trans ?_
      by_contra hlive
      obtain ⟨x, hx⟩ := Option.ne_none_iff_exists'.mp hlive
      exact hsame (hinj _ x (hk.bearer x hx) hx)
  have hdrop : swapServer target_db (.psql m (.dropDatabase (aside_name target_db))) s
      (.ok ()) t := by
    refine ⟨⟨t.1, ⟨trivial, .inl (.psql (.drop _ _))⟩, elsewhere_refl _⟩, ?_⟩
    rw [htarget]
    rfl
  have hlost : ¬ BearerExists t := by
    intro hexists
    obtain ⟨n, hn⟩ := hexists o ho
    by_cases hna : n = copy target_db
    · rw [hna] at hn
      exact absurd ((Catalog.drop_self _ _).symm.trans hn) (by simp)
    · exact hna (hinj n o ho ((Catalog.drop_other _ hna).symm.trans hn))
  have hsteps : ∃ q, Steps (swapServer target_db) s
      (swap_temp_database pg temp_db target_db target_env_name none m) t q := by
    simp only [swap_temp_database, refuses_target, drop_if_exists, drop_database,
      quote_identifier, hnul, hne, hpg, ↓reduceIte, Bool.false_eq_true, Bool.true_eq_false]
    exact ⟨_, .call hlook (.call hterm (.call hdrop (.refl _ _)))⟩
  obtain ⟨q, hq⟩ := hsteps
  exact ⟨t, q, hq, hlost⟩

/-- A call that is killed right after it moved the live database aside leaves it stranded. -/
theorem killed_call_strands {o : Oid} {target_env_name : String}
    (hpg : pg.database_exists = true) (hne : temp_db ≠ target_db) (hk : Kept target_db s)
    (ho : s.1 (live target_db) = some o) (hfree : s.1 (copy target_db) = none)
    (hnul : target_db.toList.contains '\x00' = false)
    (hnul' : (aside_name target_db).toList.contains '\x00' = false) :
    ∃ q, Steps (swapServer target_db) s
      (swap_temp_database pg temp_db target_db target_env_name none m)
      (s.1.move (live target_db) (copy target_db) o, s.2) q := by
  let t : Borne := (s.1.move (live target_db) (copy target_db) o, s.2)
  have hcopy : swapServer target_db (.database_exists (aside_name target_db)) s (.ok false) s := by
    refine ⟨⟨s.1, ⟨?_, .inr ⟨rfl, .inl rfl⟩⟩, elsewhere_refl _⟩, hk.unchanged.symm⟩
    exact congrArg Option.isSome hfree.symm
  have htarget : swapServer target_db (.database_exists target_db) s (.ok true) s := by
    refine ⟨⟨s.1, ⟨?_, .inr ⟨rfl, .inl rfl⟩⟩, elsewhere_refl _⟩, hk.unchanged.symm⟩
    exact congrArg Option.isSome ho.symm
  have hterm : swapServer target_db (.psql m (.terminateConnections target_db)) s (.ok ()) s :=
    ⟨⟨s.1, ⟨trivial, .inl (.psql (.terminate _ _))⟩, elsewhere_refl _⟩, hk.unchanged.symm⟩
  have hrename : swapServer target_db (.psql m (.renameDatabase target_db (aside_name target_db)))
      s (.ok ()) t := by
    refine ⟨⟨t.1, ⟨trivial, .inl (.psql (.rename ho hfree))⟩, elsewhere_refl _⟩, ?_⟩
    have hsame : live target_db ≠ copy target_db := by
      intro hsame
      rw [hsame, hfree] at ho
      cases ho
    have hnone : t.1 (live target_db) = none := Catalog.move_old _ _ hsame
    rw [hnone]
    rfl
  simp only [swap_temp_database, refuses_target, drop_if_exists, move_aside, rename_database,
    quote_identifier, hnul, hnul', hne, hpg, ↓reduceIte, Bool.false_eq_true, Bool.true_eq_false]
  exact ⟨_, .call hcopy (.call htarget (.call hterm (.call hrename (.refl _ _))))⟩

/-! ## The run that loses the live database -/

theorem serve_failing (fresh : Oid) (o : AdapterCall) (c : Catalog) :
    failing o c (serve fresh o c).1 (serve fresh o c).2 := by
  refine ⟨(serve_faulty fresh o c).1, ?_⟩
  cases o with
  | psql db sql =>
    cases sql with
    | renameDatabase old new =>
      cases ho : c (serverName old) with
      | none => exact .inr (by simp [serve, ho])
      | some o =>
        cases hn : c (serverName new) with
        | none => exact .inl (by simpa [serve, ho, hn] using .psql (.rename ho hn))
        | some o' => exact .inr (by simp [serve, ho, hn])
    | dropDatabase n => exact .inl (.psql (.drop c n))
    | terminateConnections n => exact .inl (.psql (.terminate c n))
    | assertOdooSchema => exact .inl (.psql (.check c))
  | create n =>
    cases hn : c (serverName n) with
    | none => exact .inl (by simpa [serve, hn] using .create fresh hn)
    | some o => exact .inr (by simp [serve, hn])
  | drop n => exact .inl (.drop c n)
  | psql_scalar m n => exact .inr ⟨rfl, .inl rfl⟩
  | database_oid n => exact .inr ⟨rfl, .inl rfl⟩
  | database_exists n => exact .inr ⟨rfl, .inl rfl⟩
  | ping n => exact .inr ⟨rfl, .inl rfl⟩
  | restore_into n => exact .inr ⟨rfl, .inl rfl⟩

def swapServe (target_db : DbName) (fresh : Oid) (o : AdapterCall) (s : Borne) :
    Except AdapterError o.Answer × Borne :=
  ((serve fresh o s.1).1, shown target_db (serve fresh o s.1).2 s.2)

theorem swapServe_server (target_db : DbName) (fresh : Oid) (o : AdapterCall) (s : Borne) :
    swapServer target_db o s (swapServe target_db fresh o s).1 (swapServe target_db fresh o s).2 :=
  ⟨⟨_, serve_failing fresh o s.1, elsewhere_refl _⟩, rfl⟩

def existsHooks : Hooks := ⟨true, false, true⟩

/-- `odoo` is live and `odoo_incoming` is prepared. -/
def preparedCluster : Catalog := fun n =>
  if n = "odoo" then some liveOid else if n = "odoo_incoming" then some restoredOid else none

def exampleCall : SwapCall := ⟨"odoo_incoming", "staging", none, "postgres"⟩

theorem live_odoo : live "odoo" = "odoo" := by decide +kernel

theorem copy_odoo : copy "odoo" = "odoo__old_swap" := by decide +kernel

/-- The live database is set aside and nothing bears its name. -/
def strandedCluster : Catalog := preparedCluster.move (live "odoo") (copy "odoo") liveOid

theorem strandedCluster_copy : strandedCluster (copy "odoo") = some liveOid :=
  Catalog.move_new _ _ _ _

theorem strandedCluster_names {n : DbName} {o : Oid} (h : strandedCluster n = some o) :
    n = copy "odoo" ∨ n = "odoo_incoming" ∧ o = restoredOid := by
  by_cases ha : n = copy "odoo"
  · exact .inl ha
  have hsame : live "odoo" ≠ copy "odoo" := by
    rw [live_odoo, copy_odoo]
    decide
  have ho : n ≠ live "odoo" := by
    rintro rfl
    have hnone : strandedCluster (live "odoo") = none := Catalog.move_old _ _ hsame
    rw [hnone] at h
    cases h
  have hrest : strandedCluster n = preparedCluster n := Catalog.move_other _ _ ho ha
  rw [hrest] at h
  rw [live_odoo] at ho
  simp only [preparedCluster, ho, ↓reduceIte] at h
  split at h
  · next hi => exact .inr ⟨hi, (Option.some.inj h).symm⟩
  · cases h

theorem strandedCluster_kept : Kept "odoo" (strandedCluster, some liveOid) := by
  constructor
  · intro o ho
    replace ho : strandedCluster (live "odoo") = some o := ho
    rcases strandedCluster_names ho with h | ⟨h, -⟩
    · rw [live_odoo, copy_odoo] at h
      exact absurd h (by decide)
    · rw [live_odoo] at h
      exact absurd h (by decide)
  · intro o ho
    exact .inr (strandedCluster_copy.trans ho)

theorem swap_temp_database_loses_live_database :
    existsHooks.database_exists = true ∧
    ∃ s, SwapRun existsHooks "odoo" Prepared (preparedCluster, preparedCluster (live "odoo")) s ∧
      ¬ BearerExists s := by
  refine ⟨rfl, ?_⟩
  have hlive : preparedCluster (live "odoo") = some liveOid := by
    rw [live_odoo]
    rfl
  have hfree : preparedCluster (copy "odoo") = none := by
    rw [copy_odoo]
    rfl
  have hnul : (aside_name "odoo").toList.contains '\x00' = false := by decide +kernel
  have hkilled : ∃ q, Steps (swapServer "odoo") (preparedCluster, preparedCluster (live "odoo"))
      (swap existsHooks "odoo" exampleCall) (strandedCluster, preparedCluster (live "odoo")) q :=
    killed_call_strands rfl (by decide) (kept_start _) hlive hfree (by decide) hnul
  have hinj : ∀ n o, some liveOid = some o → strandedCluster n = some o → n = copy "odoo" := by
    intro n o ho hn
    rcases strandedCluster_names hn with h | ⟨-, rfl⟩
    · exact h
    · exact absurd ho (by decide)
  have hlose : ∃ t q, Steps (swapServer "odoo") (strandedCluster, some liveOid)
      (swap existsHooks "odoo" exampleCall) t q ∧ ¬ BearerExists t :=
    stranded_call_loses rfl (by decide) strandedCluster_kept
      ⟨Option.some_ne_none _, strandedCluster_copy⟩ hnul hinj
  have hprepared : ∀ o, Prepared exampleCall (preparedCluster, o) ∧
      Prepared exampleCall (strandedCluster, o) := by
    intro o
    refine ⟨by simp [Prepared, exampleCall, preparedCluster], ?_⟩
    have hrest : strandedCluster "odoo_incoming" = preparedCluster "odoo_incoming" := by
      refine Catalog.move_other _ _ ?_ ?_
      · rw [live_odoo]
        decide
      · rw [copy_odoo]
        decide
    change strandedCluster "odoo_incoming" ≠ none
    rw [hrest]
    simp [preparedCluster]
  rw [hlive] at hkilled ⊢
  obtain ⟨q₁, hfirst⟩ := hkilled
  obtain ⟨t, q₂, hsecond, hlost⟩ := hlose
  exact ⟨t, .call (.call (.refl _) (hprepared _).1 hfirst) (hprepared _).2 hsecond, hlost⟩

theorem swap_keeps_last_bearer_undisturbed :
    BearerExists ((swap existsHooks "odoo" exampleCall).run (swapServe "odoo" liveOid)
      (preparedCluster, preparedCluster (live "odoo"))).2 := by
  have hcall := ends_run (swapServe_server "odoo" liveOid)
    (swap existsHooks "odoo" exampleCall) (preparedCluster, preparedCluster (live "odoo"))
  have hmay : Prepared exampleCall (preparedCluster, preparedCluster (live "odoo")) ∧
      ¬ Stranded "odoo" (preparedCluster, preparedCluster (live "odoo")) := by
    refine ⟨by simp [Prepared, preparedCluster, exampleCall], ?_⟩
    rintro ⟨-, h⟩
    exact absurd h (by decide +kernel)
  have hrun : SwapRun existsHooks "odoo"
      (fun call t => Prepared call t ∧ ¬ Stranded "odoo" t)
      (preparedCluster, preparedCluster (live "odoo")) _ := .call (.refl _) hmay hcall
  exact swap_keeps_last_bearer rfl hrun

end SwapTempDatabase
