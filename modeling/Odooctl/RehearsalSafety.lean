import Odooctl.ProjectConfiguration
import Odooctl.UpgradeRehearsal

/-!
# What a rehearsal leaves alone

A rehearsal drops the database under its throwaway name as the server reads it, which may be
one that it did not create. Which databases a rehearsal may touch is settled before it starts.
-/
namespace RehearsalSafety

open EffectPrograms PostgresCatalog ProgramRules UpgradeRehearsal

variable (adapter : DbAdapter) (request : Rehearsal) (conninfo : String → Option DbName)
  (s : Server)

/-- Left by an earlier rehearsal of the same source and suffix. -/
def Leftover (db : Database) : Prop :=
  db.rehearsal_of = some (request.source_db, request.throwaway_suffix)

/-- However the rehearsal ends, every database that no earlier one left is as it was. -/
def Preserves : Prop :=
  ∀ r t, Ends (serverWorld request conninfo) s (rehearse_upgrade adapter request) r t →
    ∀ n db, s n = some db → ¬ Leftover request db → t n = some db

/-- The throwaway name as the server reads it. -/
abbrev target : DbName := serverName request.throwaway_db

/-- No command of the rehearsal reaches the server. -/
def Refused : Prop :=
  request.throwaway_db = request.source_db ∨
    (request.requires_openupgrade = true ∧ ¬ request.use_openupgrade = true) ∨
    request.throwaway_db.toList.contains '\x00' = true

/-- There is a database that the dump reads. -/
def Dumpable : Prop := ∃ m, conninfo request.source_db = some m ∧ s m ≠ none

/-- The names that a rehearsal may drop or fill: that of the copy, and the one that a client
reads in it as a connection string. -/
def Touched (n : DbName) : Prop :=
  Droppable s (target request) ∧
    ((n = target request ∧ request.keep = false) ∨
      (Dumpable request conninfo s ∧
        (n = target request ∨ conninfo request.throwaway_db = some n)))

/-- No command for the copy is run, or none for this name. -/
def Spared (n : DbName) : Prop :=
  request.throwaway_db.toList.contains '\x00' = true ∨ ¬ Touched request conninfo s n

variable {adapter request conninfo s} {t : Server} {n : DbName} {path : String}
  {I : RehearsalCall → Server → Prop}

/-! ## Calls that spare a name -/

def SparesName (conninfo : String → Option DbName) (n : DbName) : RehearsalCall → Prop
  | .dropdb m => serverName m ≠ n
  | .createdb m => serverName m ≠ n
  | .drop_statement m => serverName m ≠ n
  | .upgrade_fn m _ => serverName m ≠ n
  | .pg_restore m _ => conninfo m ≠ some n
  | _ => True

theorem effect_spares {o : RehearsalCall} (h : SparesName conninfo n o)
    (k : Effect request conninfo o s t) : t n = s n := by
  cases o with
  | dropdb m =>
    obtain ⟨-, rfl⟩ := k
    exact Function.update_of_ne (Ne.symm h) _ _
  | drop_statement m =>
    obtain ⟨-, rfl⟩ := k
    exact Function.update_of_ne (Ne.symm h) _ _
  | createdb m =>
    obtain ⟨-, content, rfl⟩ := k
    exact Function.update_of_ne (Ne.symm h) _ _
  | pg_restore m dump =>
    obtain ⟨r, db, content, hr, -, rfl⟩ := k
    have hne : n ≠ r := by
      rintro rfl
      exact h hr
    exact Function.update_of_ne hne _ _
  | upgrade_fn m version => exact k n (Ne.symm h)
  | pg_dump m output => rw [k.1]
  | mktemp => rw [show t = s from k]
  | terminate_backends m => rw [show t = s from k]
  | healthcheck_fn m => rw [show t = s from k]
  | unlink file => rw [show t = s from k]
  | save_report dir report => rw [show t = s from k]

theorem wp_spares {α : Type} {p : RehearsalM α} (h : p.Calls (SparesName conninfo n))
    (ht : t n = s n) :
    wp (serverWorld request conninfo) (fun _ _ => True) p (fun _ u => u n = s n) t := by
  apply wp_keeps (P := fun u : Server => u n = s n) h ht (fun _ _ _ _ => trivial)
  rintro o u r v ho hu (heffect | ⟨-, rfl⟩)
  · rw [effect_spares ho heffect]
    exact hu
  · exact hu

section Calls

variable {D : RehearsalCall → Prop}

theorem calls_ask {o : RehearsalCall} (h : D o) : (ask o).Calls D := calls_perform.mpr h

theorem calls_command {m : DbName} {p : RehearsalM Unit} (h : p.Calls D) :
    (command m p).Calls D := by
  rw [command]
  exact calls_ite (calls_raise _) h

theorem calls_restore (hterminate : ∀ m, D (.terminate_backends m))
    (hdrop : D (.dropdb request.throwaway_db)) (hcreate : D (.createdb request.throwaway_db))
    (hrestore : D (.pg_restore request.throwaway_db path)) :
    (restore adapter request.throwaway_db path).Calls D := by
  have hdropped : (dropdb request.throwaway_db).Calls D := calls_command (calls_ask hdrop)
  have hcreated : (create request.throwaway_db).Calls D := calls_command (calls_ask hcreate)
  rw [restore]
  apply calls_bind _ fun _ => calls_command (calls_ask hrestore)
  cases adapter with
  | host => exact calls_bind hdropped fun _ => hcreated
  | docker =>
    exact calls_bind (calls_command (calls_ask (hterminate _))) fun _ =>
      calls_bind hdropped fun _ => hcreated

theorem calls_try_upgrade {progress : Progress} (hhealth : ∀ m, D (.healthcheck_fn m))
    (hupgrade : D (.upgrade_fn request.throwaway_db request.target_version)) :
    (try_upgrade request progress).Calls D := by
  rw [try_upgrade]
  apply calls_bind (calls_attempt (calls_ask hupgrade))
  intro upgraded
  cases upgraded with
  | error e => exact calls_pure _
  | ok result =>
    apply calls_ite _ (calls_pure _)
    rw [check_health]
    apply calls_bind (calls_attempt (calls_ask (hhealth _)))
    intro checked
    cases checked with
    | error e => exact calls_pure _
    | ok healthy => cases healthy <;> exact calls_pure _

theorem calls_unlink_dump {file : Option String} (h : ∀ path, D (.unlink path)) :
    (unlink_dump file).Calls D := by
  cases file with
  | none => exact calls_pure _
  | some path => exact calls_ask (h path)

theorem calls_save_report {report : RehearsalReport}
    (h : ∀ dir report, D (.save_report dir report)) :
    (save_report_to_dir request report).Calls D := by
  rw [save_report_to_dir]
  cases request.report_dir with
  | none => exact calls_pure _
  | some dir => exact calls_bind (calls_ask (h dir report)) fun _ => calls_pure _

theorem calls_drop_throwaway (hterminate : ∀ m, D (.terminate_backends m))
    (hdrop : request.keep = false → D (.drop_statement request.throwaway_db)) :
    (drop_throwaway request).Calls D := by
  rw [drop_throwaway]
  cases hkeep : request.keep with
  | true => exact calls_pure _
  | false =>
    have hdropped : (drop request.throwaway_db).Calls D :=
      calls_bind (calls_command (calls_ask (hterminate _))) fun _ =>
        calls_command (calls_ask (hdrop hkeep))
    apply calls_bind (calls_attempt hdropped)
    intro dropped
    cases dropped <;> exact calls_pure _

end Calls

/-! ## A template under the throwaway name -/

section Template

variable {Q : Except String Unit → Server → Prop}

theorem wp_command {m : DbName} {p : RehearsalM Unit} {W : World RehearsalCalls Server}
    (h : wp W I p Q s) (hnul : Q (.error "embedded null byte") s) : wp W I (command m p) Q s := by
  rw [command]
  split
  · exact hnul
  · exact h

theorem wp_terminate {m : DbName} :
    wp (serverWorld request conninfo) (fun _ _ => True) (terminate_connections m)
      (fun _ t => t = s) s := by
  apply wp_command _ rfl
  apply wp_perform.mpr
  refine ⟨trivial, ?_⟩
  rintro r t (heffect | ⟨-, rfl⟩)
  · exact heffect
  · rfl

/-- Where a drop cannot take effect it fails. -/
theorem wp_refused {o : RehearsalCall} {p : RehearsalM Unit} {m : DbName}
    (hp : wp (serverWorld request conninfo) (fun _ _ => True) p (fun r t =>
      Effect request conninfo o s t ∨ (∃ e, r = .error e) ∧ t = s) s)
    (h : ∀ t, ¬ Effect request conninfo o s t) :
    wp (serverWorld request conninfo) (fun _ _ => True) (command m p)
      (fun r t => t = s ∧ ∃ e, r = .error e) s := by
  apply wp_command _ ⟨rfl, _, rfl⟩
  apply wp_post hp
  rintro r t (heffect | ⟨herror, rfl⟩)
  · exact absurd heffect (h t)
  · exact ⟨rfl, herror⟩

theorem wp_restore_template (h : ¬ Droppable s (target request)) :
    wp (serverWorld request conninfo) (fun _ _ => True) (restore adapter request.throwaway_db path)
      (fun r t => t = s ∧ ∃ e, r = .error e) s := by
  have hdropped : wp (serverWorld request conninfo) (fun _ _ => True)
      (dropdb request.throwaway_db) (fun r t => t = s ∧ ∃ e, r = .error e) s :=
    wp_refused (wp_perform.mpr ⟨trivial, fun _ _ h => h⟩) fun t heffect => h heffect.1
  have hfailed : ∀ b : Unit, ∀ t : Server,
      ¬ (t = s ∧ ∃ e, (Except.ok b : Except String Unit) = .error e) := by
    rintro b t ⟨-, e, he⟩
    cases he
  have hcreated : wp (serverWorld request conninfo) (fun _ _ => True)
      (drop_create adapter request.throwaway_db) (fun r t => t = s ∧ ∃ e, r = .error e) s := by
    cases adapter with
    | host => exact wp_seq hdropped (fun e t ht => ⟨ht.1, e, rfl⟩) fun b t ht =>
        absurd ht (hfailed b t)
    | docker =>
      apply wp_seq wp_terminate (fun e t ht => ⟨ht, e, rfl⟩)
      rintro _ t rfl
      exact wp_seq hdropped (fun e t ht => ⟨ht.1, e, rfl⟩) fun b t ht => absurd ht (hfailed b t)
  exact wp_seq hcreated (fun e t ht => ⟨ht.1, e, rfl⟩) fun b t ht => absurd ht (hfailed b t)

theorem wp_drop_template (h : ¬ Droppable s (target request)) :
    wp (serverWorld request conninfo) (fun _ _ => True) (drop request.throwaway_db)
      (fun _ t => t = s) s := by
  rw [drop]
  apply wp_seq wp_terminate fun _ _ ht => ht
  rintro _ t rfl
  have hdropped : wp (serverWorld request conninfo) (fun _ _ => True)
      (drop_database request.throwaway_db) (fun r u => u = t ∧ ∃ e, r = .error e) t :=
    wp_refused (wp_perform.mpr ⟨trivial, fun _ _ h => h⟩) fun u heffect => h heffect.1
  exact wp_post hdropped fun _ _ hu => hu.1

end Template

/-! ## A name with a NUL -/

theorem wp_nul {p : RehearsalM Unit} {f : Unit → RehearsalM Unit}
    (h : request.throwaway_db.toList.contains '\x00' = true) :
    wp (serverWorld request conninfo) (fun _ _ => True) (command request.throwaway_db p >>= f)
      (fun r t => t = s ∧ ∃ e, r = .error e) s := by
  rw [command, if_pos h]
  exact ⟨rfl, _, rfl⟩

theorem wp_restore_nul (h : request.throwaway_db.toList.contains '\x00' = true) :
    wp (serverWorld request conninfo) (fun _ _ => True) (restore adapter request.throwaway_db path)
      (fun r t => t = s ∧ ∃ e, r = .error e) s := by
  have hcreated : wp (serverWorld request conninfo) (fun _ _ => True)
      (drop_create adapter request.throwaway_db) (fun r t => t = s ∧ ∃ e, r = .error e) s := by
    cases adapter with
    | host => exact wp_nul h
    | docker => exact wp_nul h
  apply wp_seq hcreated (fun e t ht => ⟨ht.1, e, rfl⟩)
  rintro _ t ⟨-, e, he⟩
  cases he

theorem wp_drop_nul (h : request.throwaway_db.toList.contains '\x00' = true) :
    wp (serverWorld request conninfo) (fun _ _ => True) (drop request.throwaway_db)
      (fun _ t => t = s) s := wp_post (wp_nul h) fun _ _ ht => ht.1

/-! ## The rehearsal spares what it does not touch -/

theorem wp_dump : wp (serverWorld request conninfo) (fun _ _ => True) (dump request.source_db path)
    (fun r t => t = s ∧ (r = .ok () → Dumpable request conninfo s)) s := by
  apply wp_command _ ⟨rfl, fun h => by cases h⟩
  apply wp_perform.mpr
  refine ⟨trivial, ?_⟩
  rintro r t (⟨rfl, hread⟩ | ⟨⟨e, rfl⟩, rfl⟩)
  · exact ⟨rfl, fun _ => hread⟩
  · exact ⟨rfl, fun h => by cases h⟩

/-- A copy that was made means that the name is neither that of the copy nor the one that a
client reads in it. -/
theorem wp_clone_source (h : Spared request conninfo s n) :
    wp (serverWorld request conninfo) (fun _ _ => True) (clone_source adapter request path)
      (fun r t => t n = s n ∧ (r = .ok () → target request ≠ n)) s := by
  rw [clone_source]
  apply wp_seq wp_dump
  · rintro e t ⟨rfl, -⟩
    exact ⟨rfl, fun h => by cases h⟩
  rintro _ t ⟨rfl, hdumped⟩
  have hread := hdumped rfl
  rcases h with hnul | h
  · apply wp_post (wp_restore_nul hnul)
    rintro r u ⟨rfl, e, rfl⟩
    exact ⟨rfl, fun h => by cases h⟩
  by_cases hdroppable : Droppable t (target request)
  · have hname : ¬ (n = target request ∨ conninfo request.throwaway_db = some n) :=
      fun hn => h ⟨hdroppable, Or.inr ⟨hread, hn⟩⟩
    rw [not_or] at hname
    have htarget : target request ≠ n := fun heq => hname.1 heq.symm
    apply wp_post (wp_spares (calls_restore (fun _ => trivial) htarget htarget hname.2) rfl)
    exact fun r u hu => ⟨hu, fun _ => htarget⟩
  · apply wp_post (wp_restore_template hdroppable)
    rintro r u ⟨rfl, e, rfl⟩
    exact ⟨rfl, fun h => by cases h⟩

theorem wp_try_rehearsal (h : Spared request conninfo s n) :
    wp (serverWorld request conninfo) (fun _ _ => True) (try_rehearsal adapter request)
      (fun _ t => t n = s n) s := by
  have hcreated : wp (serverWorld request conninfo) (fun _ _ => True) (ask .mktemp)
      (fun _ t => t = s) s := by
    apply wp_perform.mpr
    refine ⟨trivial, ?_⟩
    rintro r t (heffect | ⟨-, rfl⟩)
    · exact heffect
    · rfl
  rw [try_rehearsal]
  apply wp_attempt_seq hcreated
  rintro created t rfl
  cases created with
  | error e => exact rfl
  | ok path =>
    apply wp_attempt_seq (wp_clone_source h)
    intro cloned u hu
    cases cloned with
    | error e => exact hu.1
    | ok _ =>
      have htarget : serverName request.throwaway_db ≠ n := hu.2 rfl
      exact wp_spares (calls_try_upgrade (fun _ => trivial) htarget) hu.1

theorem wp_drop_throwaway (h : Spared request conninfo s n) (ht : t n = s n) :
    wp (serverWorld request conninfo) (fun _ _ => True) (drop_throwaway request)
      (fun _ u => u n = s n) t := by
  by_cases hname : target request = n
  · subst hname
    rw [drop_throwaway]
    cases hkeep : request.keep with
    | true => exact ht
    | false =>
      have hdropped : wp (serverWorld request conninfo) (fun _ _ => True)
          (drop request.throwaway_db) (fun _ u => u = t) t := by
        rcases h with hnul | h
        · exact wp_drop_nul hnul
        · -- the name is that of a template, and still is
          apply wp_drop_template
          intro hdroppable
          rw [Droppable, ht] at hdroppable
          exact h ⟨hdroppable, Or.inl ⟨rfl, hkeep⟩⟩
      apply wp_attempt_seq hdropped
      rintro dropped u rfl
      cases dropped <;> exact ht
  · exact wp_spares (calls_drop_throwaway (fun _ => trivial) fun _ => hname) ht

theorem wp_rehearse_on_copy (h : Spared request conninfo s n) :
    wp (serverWorld request conninfo) (fun _ _ => True) (rehearse_on_copy adapter request)
      (fun _ t => t n = s n) s := by
  rw [rehearse_on_copy]
  apply wp_seq (wp_try_rehearsal h) fun _ _ ht => ht
  intro progress t ht
  apply wp_seq (wp_spares (calls_unlink_dump fun _ => trivial) ht) fun _ _ hu => hu
  intro _ u hu
  apply wp_seq (wp_drop_throwaway h hu) fun _ _ hv => hv
  intro cleanup_status v hv
  exact wp_spares (calls_save_report fun _ _ => trivial) hv

/-! ## A run in which every call does what it can -/

def serveAll (request : Rehearsal) (conninfo : String → Option DbName) :
    (o : RehearsalCall) → Server → Except String o.Answer × Server
  | .mktemp, s => (.ok "/tmp/odooctl-mig-.dump", s)
  | .pg_dump n _, s =>
    (if ((conninfo n).bind s).isSome then .ok () else .error "database does not exist", s)
  | .terminate_backends _, s => (.ok (), s)
  | .dropdb n, s =>
    if (s (serverName n)).any Database.is_template then
      (.error "cannot drop a template database", s)
    else (.ok (), Function.update s (serverName n) none)
  | .drop_statement n, s =>
    if (s (serverName n)).any Database.is_template then
      (.error "cannot drop a template database", s)
    else (.ok (), Function.update s (serverName n) none)
  | .createdb n, s =>
    if (s (serverName n)).isSome then (.error "database already exists", s)
    else (.ok (), Function.update s (serverName n)
      (some ⟨"", some (request.source_db, request.throwaway_suffix), false⟩))
  | .pg_restore n _, s =>
    match conninfo n with
    | none => (.error "invalid connection option", s)
    | some m =>
      match s m with
      | none => (.error "database does not exist", s)
      | some db =>
        (.ok (), Function.update s m (some { db with content := db.content ++ " restored" }))
  | .upgrade_fn _ _, s => (.ok { ok := true }, s)
  | .healthcheck_fn _, s => (.ok true, s)
  | .unlink _, s => (.ok (), s)
  | .save_report dir _, s => (.ok dir, s)

theorem droppable_iff : Droppable s n ↔ (s n).any Database.is_template = false := by
  cases h : s n with
  | none => simp [Droppable, h]
  | some db => simp [Droppable, h]

theorem serveAll_serverWorld (request : Rehearsal) (conninfo : String → Option DbName)
    (o : RehearsalCall) (s : Server) :
    serverWorld request conninfo o s (serveAll request conninfo o s).1
      (serveAll request conninfo o s).2 := by
  cases o with
  | mktemp => exact Or.inl rfl
  | terminate_backends m => exact Or.inl rfl
  | upgrade_fn m version => exact Or.inl fun _ _ => rfl
  | healthcheck_fn m => exact Or.inl rfl
  | unlink file => exact Or.inl rfl
  | save_report dir report => exact Or.inl rfl
  | pg_dump m output =>
    cases hread : ((conninfo m).bind s).isSome with
    | true =>
      obtain ⟨db, hdb⟩ := Option.isSome_iff_exists.mp hread
      obtain ⟨r, hr, hdb⟩ := Option.bind_eq_some_iff.mp hdb
      refine Or.inl ⟨rfl, r, hr, ?_⟩
      rw [hdb]
      exact Option.some_ne_none db
    | false =>
      refine Or.inr ⟨⟨"database does not exist", ?_⟩, rfl⟩
      simp [serveAll, hread]
  | dropdb m =>
    cases htemplate : (s (serverName m)).any Database.is_template with
    | true => exact Or.inr (by simp [serveAll, htemplate])
    | false => exact Or.inl (by simp [serveAll, htemplate, Effect, droppable_iff])
  | drop_statement m =>
    cases htemplate : (s (serverName m)).any Database.is_template with
    | true => exact Or.inr (by simp [serveAll, htemplate])
    | false => exact Or.inl (by simp [serveAll, htemplate, Effect, droppable_iff])
  | createdb m =>
    cases hexists : s (serverName m) with
    | some db => exact Or.inr (by simp [serveAll, hexists])
    | none => exact Or.inl ⟨hexists, "", by simp [serveAll, hexists]⟩
  | pg_restore m dump =>
    cases hconn : conninfo m with
    | none => exact Or.inr (by simp [serveAll, hconn])
    | some r =>
      cases hdb : s r with
      | none => exact Or.inr (by simp [serveAll, hconn, hdb])
      | some db =>
        refine Or.inl ⟨r, db, db.content ++ " restored", hconn, hdb, ?_⟩
        simp [serveAll, hconn, hdb]

/-! ## What such a run does to a database that it touches -/

section Faultless

variable {db : Database}

def faultless (request : Rehearsal) (conninfo : String → Option DbName) :
    World RehearsalCalls Server := World.ofServer (serveAll request conninfo)

theorem wp_served {o : RehearsalCall} {Q : Except String o.Answer → Server → Prop}
    (h : Q (serveAll request conninfo o s).1 (serveAll request conninfo o s).2) :
    wp (faultless request conninfo) (fun _ _ => True) (ask o) Q s := by
  apply wp_perform.mpr
  refine ⟨trivial, ?_⟩
  intro r t hserved
  rw [hserved] at h
  exact h

theorem wp_command_served {m : DbName} {p : RehearsalM Unit}
    {Q : Except String Unit → Server → Prop} (hnul : m.toList.contains '\x00' = false)
    (h : wp (faultless request conninfo) (fun _ _ => True) p Q s) :
    wp (faultless request conninfo) (fun _ _ => True) (command m p) Q s := by
  rw [command, if_neg (by rw [hnul]; exact Bool.false_ne_true)]
  exact h

/-- Nothing but a creation or a restore gives a database back. -/
def GivesNothingBack : RehearsalCall → Prop
  | .createdb _ => False
  | .pg_restore _ _ => False
  | _ => True

theorem wp_stays_altered {α : Type} {p : RehearsalM α} (h : p.Calls GivesNothingBack)
    (hs : s n ≠ some db) :
    wp (faultless request conninfo) (fun _ _ => True) p (fun _ t => t n ≠ some db) s := by
  apply wp_keeps (P := fun t : Server => t n ≠ some db) h hs (fun _ _ _ _ => trivial)
  intro o t r u ho ht hserved
  have hgone : ∀ m, Function.update t (serverName m) none n ≠ some db := by
    intro m
    by_cases hname : n = serverName m
    · subst hname
      rw [Function.update_self]
      exact Option.some_ne_none db |>.symm
    · rw [Function.update_of_ne hname]
      exact ht
  obtain rfl : (serveAll request conninfo o t).2 = u := congrArg Prod.snd hserved
  cases o with
  | createdb m => exact ho.elim
  | pg_restore m dump => exact ho.elim
  | dropdb m =>
    rw [serveAll]
    split
    · exact ht
    · exact hgone m
  | drop_statement m =>
    rw [serveAll]
    split
    · exact ht
    · exact hgone m
  | mktemp => exact ht
  | pg_dump m output => exact ht
  | terminate_backends m => exact ht
  | upgrade_fn m version => exact ht
  | healthcheck_fn m => exact ht
  | unlink file => exact ht
  | save_report dir report => exact ht

/-- The copy is a database of the rehearsal, and what a client reads in its name is filled. -/
structure Copied (request : Rehearsal) (conninfo : String → Option DbName) (s t : Server) :
    Prop where
  created : ∃ db, t (target request) = some db ∧ Leftover request db
  filled : ∀ m db, conninfo request.throwaway_db = some m → m ≠ target request →
    s m = some db → t m ≠ some db

def fresh (request : Rehearsal) : Database :=
  ⟨"", some (request.source_db, request.throwaway_suffix), false⟩

theorem served_drop {m : DbName} (h : Droppable s (serverName m)) :
    serveAll request conninfo (.dropdb m) s =
      (.ok (), Function.update s (serverName m) none) := by
  rw [serveAll, droppable_iff.mp h]
  rfl

theorem served_drop_statement {m : DbName} (h : Droppable s (serverName m)) :
    serveAll request conninfo (.drop_statement m) s =
      (.ok (), Function.update s (serverName m) none) := by
  rw [serveAll, droppable_iff.mp h]
  rfl

theorem served_create {m : DbName} (h : s (serverName m) = none) :
    serveAll request conninfo (.createdb m) s =
      (.ok (), Function.update s (serverName m) (some (fresh request))) := by
  rw [serveAll, h]
  rfl

theorem served_restore_none {m : DbName} (h : conninfo m = none) :
    serveAll request conninfo (.pg_restore m path) s =
      (.error "invalid connection option", s) := by
  rw [serveAll, h]

theorem served_restore_absent {m r : DbName} (h : conninfo m = some r) (hr : s r = none) :
    serveAll request conninfo (.pg_restore m path) s = (.error "database does not exist", s) := by
  simp only [serveAll, h, hr]

theorem served_restore {m r : DbName} (h : conninfo m = some r) (hr : s r = some db) :
    serveAll request conninfo (.pg_restore m path) s = (.ok (), Function.update s r
      (some { db with content := db.content ++ " restored" })) := by
  simp only [serveAll, h, hr]

theorem content_ne_restored (content : String) : content ≠ content ++ " restored" := by
  intro h
  have hlength := congrArg String.length h
  rw [String.length_append] at hlength
  exact absurd hlength (Nat.ne_of_lt (Nat.lt_add_of_pos_right (by decide)))

theorem wp_created (hnul : request.throwaway_db.toList.contains '\x00' = false)
    (h : Droppable s (target request)) :
    wp (faultless request conninfo) (fun _ _ => True) (drop_create adapter request.throwaway_db)
      (fun r t => r = .ok () ∧
        t = Function.update s (target request) (some (fresh request))) s := by
  have hcreated : wp (faultless request conninfo) (fun _ _ => True) (create request.throwaway_db)
      (fun r t => r = .ok () ∧ t = Function.update s (target request) (some (fresh request)))
      (Function.update s (target request) none) := by
    apply wp_command_served hnul
    apply wp_served
    rw [served_create (Function.update_self _ _ _)]
    exact ⟨rfl, Function.update_idem _ _ _⟩
  have hdropped : wp (faultless request conninfo) (fun _ _ => True) (dropdb request.throwaway_db)
      (fun r t => r = .ok () ∧ t = Function.update s (target request) none) s := by
    apply wp_command_served hnul
    apply wp_served
    rw [served_drop h]
    exact ⟨rfl, rfl⟩
  have hterminated : wp (faultless request conninfo) (fun _ _ => True)
      (terminate_connections request.throwaway_db) (fun r t => r = .ok () ∧ t = s) s := by
    apply wp_command_served hnul
    apply wp_served
    exact ⟨rfl, rfl⟩
  have hrest : wp (faultless request conninfo) (fun _ _ => True) (do
      dropdb request.throwaway_db
      create request.throwaway_db)
      (fun r t => r = .ok () ∧
        t = Function.update s (target request) (some (fresh request))) s := by
    apply wp_seq hdropped
    · rintro e t ⟨he, -⟩
      cases he
    · rintro _ t ⟨-, rfl⟩
      exact hcreated
  cases adapter with
  | host => exact hrest
  | docker =>
    rw [drop_create]
    apply wp_seq hterminated
    · rintro e t ⟨he, -⟩
      cases he
    · rintro _ t ⟨-, rfl⟩
      exact hrest

theorem wp_copied (hnul : request.throwaway_db.toList.contains '\x00' = false)
    (h : Droppable s (target request)) :
    wp (faultless request conninfo) (fun _ _ => True) (restore adapter request.throwaway_db path)
      (fun _ t => Copied request conninfo s t) s := by
  have hfilled : wp (faultless request conninfo) (fun _ _ => True)
      (restore_into request.throwaway_db path) (fun _ t => Copied request conninfo s t)
      (Function.update s (target request) (some (fresh request))) := by
    apply wp_command_served hnul
    apply wp_served
    cases hconn : conninfo request.throwaway_db with
    | none =>
      rw [served_restore_none hconn]
      refine ⟨⟨fresh request, Function.update_self _ _ _, rfl⟩, ?_⟩
      intro m db hm
      rw [hconn] at hm
      cases hm
    | some r =>
      by_cases hname : r = target request
      · subst hname
        rw [served_restore hconn (Function.update_self _ _ _)]
        refine ⟨⟨_, Function.update_self _ _ _, rfl⟩, ?_⟩
        intro m db hm hne
        rw [hconn] at hm
        exact absurd (Option.some.inj hm).symm hne
      · cases hdb : s r with
        | none =>
          rw [served_restore_absent hconn ((Function.update_of_ne hname _ _).trans hdb)]
          refine ⟨⟨fresh request, Function.update_self _ _ _, rfl⟩, ?_⟩
          intro m db hm _ hsome
          obtain rfl : r = m := Option.some.inj (hconn.symm.trans hm)
          rw [hdb] at hsome
          cases hsome
        | some db =>
          rw [served_restore hconn ((Function.update_of_ne hname _ _).trans hdb)]
          refine ⟨⟨fresh request, ?_, rfl⟩, ?_⟩
          · exact (Function.update_of_ne (Ne.symm hname) _ _).trans (Function.update_self _ _ _)
          · intro m old hm _ hsome hsame
            obtain rfl : r = m := Option.some.inj (hconn.symm.trans hm)
            obtain rfl : db = old := Option.some.inj (hdb.symm.trans hsome)
            have hnew := Option.some.inj ((Function.update_self r _ _).symm.trans hsame)
            exact content_ne_restored db.content (congrArg Database.content hnew).symm
  apply wp_seq (wp_created hnul h)
  · rintro e t ⟨he, -⟩
    cases he
  · rintro _ t ⟨-, rfl⟩
    exact hfilled

/-- A database that is touched and no leftover is altered by the copy. -/
theorem Copied.altered {t : Server} (h : Copied request conninfo s t)
    (hname : n = target request ∨ conninfo request.throwaway_db = some n) (hdb : s n = some db)
    (hleft : ¬ Leftover request db) : t n ≠ some db := by
  by_cases htarget : n = target request
  · subst htarget
    obtain ⟨copy, hcopy, hcopied⟩ := h.created
    rw [hcopy]
    intro heq
    exact hleft (Option.some.inj heq ▸ hcopied)
  · exact h.filled n db (hname.resolve_left htarget) htarget hdb

theorem gives_nothing_back_finally {progress : Progress} :
    (do
      unlink_dump progress.tmp_dump
      let cleanup_status ← drop_throwaway request
      save_report_to_dir request (report_of request progress cleanup_status) :
        RehearsalM RehearsalReport).Calls GivesNothingBack := by
  apply calls_bind (calls_unlink_dump fun _ => trivial)
  intro _
  apply calls_bind (calls_drop_throwaway (fun _ => trivial) fun _ => trivial)
  intro cleanup_status
  exact calls_save_report fun _ _ => trivial

theorem wp_mktemp : wp (faultless request conninfo) (fun _ _ => True) (ask .mktemp)
    (fun r t => (∃ path, r = .ok path) ∧ t = s) s := wp_served ⟨⟨_, rfl⟩, rfl⟩

theorem wp_dumped (hnul : request.source_db.toList.contains '\x00' = false) :
    wp (faultless request conninfo) (fun _ _ => True) (dump request.source_db path)
      (fun r t => t = s ∧ (r = .ok () ↔ Dumpable request conninfo s)) s := by
  apply wp_command_served hnul
  apply wp_served
  refine ⟨rfl, ?_⟩
  have hread : ((conninfo request.source_db).bind s).isSome = true ↔
      Dumpable request conninfo s := by
    rw [Dumpable]
    cases conninfo request.source_db with
    | none => simp
    | some m => simp [Option.isSome_iff_ne_none]
  rw [← hread, serveAll]
  by_cases h : ((conninfo request.source_db).bind s).isSome = true
  · rw [if_pos h]
    exact ⟨fun _ => h, fun _ => rfl⟩
  · rw [if_neg h]
    exact ⟨fun he => (by cases he), fun hd => absurd hd h⟩

/-- Where there is something to dump, the copy is made. -/
theorem wp_altered_by_copy (hnul : request.throwaway_db.toList.contains '\x00' = false)
    (hsource : request.source_db.toList.contains '\x00' = false)
    (hdroppable : Droppable s (target request)) (hdump : Dumpable request conninfo s)
    (hname : n = target request ∨ conninfo request.throwaway_db = some n) (hdb : s n = some db)
    (hleft : ¬ Leftover request db) :
    wp (faultless request conninfo) (fun _ _ => True) (rehearse_on_copy adapter request)
      (fun _ t => t n ≠ some db) s := by
  have hcloned : ∀ path, wp (faultless request conninfo) (fun _ _ => True)
      (clone_source adapter request path) (fun _ t => t n ≠ some db) s := by
    intro path
    rw [clone_source]
    apply wp_seq (wp_dumped hsource)
    · rintro e t ⟨rfl, hread⟩
      cases hread.mpr hdump
    rintro _ t ⟨rfl, -⟩
    exact wp_post (wp_copied hnul hdroppable) fun _ _ hcopied => hcopied.altered hname hdb hleft
  have htried : wp (faultless request conninfo) (fun _ _ => True) (try_rehearsal adapter request)
      (fun _ t => t n ≠ some db) s := by
    rw [try_rehearsal]
    apply wp_attempt_seq wp_mktemp
    rintro created t ⟨⟨path, rfl⟩, rfl⟩
    apply wp_attempt_seq (hcloned path)
    intro cloned u hu
    cases cloned with
    | error e => exact hu
    | ok _ => exact wp_stays_altered (calls_try_upgrade (fun _ => trivial) trivial) hu
  rw [rehearse_on_copy]
  apply wp_seq htried fun _ _ ht => ht
  intro progress t ht
  exact wp_stays_altered gives_nothing_back_finally ht

/-- Where there is nothing to dump, the clean-up drops the throwaway name all the same. -/
theorem wp_dropped_by_cleanup (hnul : request.throwaway_db.toList.contains '\x00' = false)
    (hsource : request.source_db.toList.contains '\x00' = false)
    (hdroppable : Droppable s (target request)) (hdump : ¬ Dumpable request conninfo s)
    (hkeep : request.keep = false) :
    wp (faultless request conninfo) (fun _ _ => True) (rehearse_on_copy adapter request)
      (fun _ t => t (target request) ≠ some db) s := by
  have hcloned : ∀ path, wp (faultless request conninfo) (fun _ _ => True)
      (clone_source adapter request path) (fun r t => t = s ∧ ∃ e, r = .error e) s := by
    intro path
    rw [clone_source]
    apply wp_seq (wp_dumped hsource)
    · rintro e t ⟨rfl, -⟩
      exact ⟨rfl, e, rfl⟩
    rintro _ t ⟨rfl, hread⟩
    exact absurd (hread.mp rfl) hdump
  have htried : wp (faultless request conninfo) (fun _ _ => True) (try_rehearsal adapter request)
      (fun r t => (∃ progress, r = .ok progress) ∧ t = s) s := by
    rw [try_rehearsal]
    apply wp_attempt_seq wp_mktemp
    rintro created t ⟨⟨path, rfl⟩, rfl⟩
    apply wp_attempt_seq (hcloned path)
    rintro cloned u ⟨rfl, e, rfl⟩
    exact ⟨⟨_, rfl⟩, rfl⟩
  have hunlinked : ∀ file, wp (faultless request conninfo) (fun _ _ => True) (unlink_dump file)
      (fun r t => r = .ok () ∧ t = s) s := by
    intro file
    cases file with
    | none => exact ⟨rfl, rfl⟩
    | some path => exact wp_served ⟨rfl, rfl⟩
  have hterminated : wp (faultless request conninfo) (fun _ _ => True)
      (terminate_connections request.throwaway_db) (fun r t => r = .ok () ∧ t = s) s :=
    wp_command_served hnul (wp_served ⟨rfl, rfl⟩)
  have hdropped : wp (faultless request conninfo) (fun _ _ => True) (drop request.throwaway_db)
      (fun _ t => t (target request) ≠ some db) s := by
    rw [drop]
    apply wp_seq hterminated
    · rintro e t ⟨he, -⟩
      cases he
    rintro _ t ⟨-, rfl⟩
    apply wp_command_served hnul
    apply wp_served
    rw [served_drop_statement hdroppable]
    intro heq
    cases (Function.update_self (target request) (none : Option Database) t).symm.trans heq
  rw [rehearse_on_copy]
  apply wp_seq htried
  · rintro e t ⟨⟨progress, he⟩, -⟩
    cases he
  rintro progress t ⟨-, rfl⟩
  apply wp_seq (hunlinked _)
  · rintro e u ⟨he, -⟩
    cases he
  rintro _ u ⟨-, rfl⟩
  apply wp_seq (P := fun _ v => v (target request) ≠ some db)
  · rw [drop_throwaway, hkeep]
    apply wp_attempt_seq hdropped
    intro dropped v hv
    cases dropped <;> exact hv
  · exact fun _ _ hv => hv
  intro cleanup_status v hv
  exact wp_stays_altered (calls_save_report fun _ _ => trivial) hv

end Faultless

/-! ## Exactly when a rehearsal preserves -/

theorem source_no_nul (h : request.throwaway_db.toList.contains '\x00' = false) :
    request.source_db.toList.contains '\x00' = false := by
  rw [Rehearsal.throwaway_db, String.toList_append] at h
  simp only [List.contains_eq_mem, decide_eq_false_iff_not, List.mem_append, not_or] at h ⊢
  exact h.1

theorem wp_altered {db : Database} (hrefused : ¬ Refused request)
    (h : Touched request conninfo s n) (hdb : s n = some db) (hleft : ¬ Leftover request db) :
    wp (faultless request conninfo) (fun _ _ => True) (rehearse_upgrade adapter request)
      (fun _ t => t n ≠ some db) s := by
  rw [Refused, not_or, not_or] at hrefused
  obtain ⟨hname, hopen, hnul⟩ := hrefused
  rw [Bool.not_eq_true] at hnul
  have hsource := source_no_nul hnul
  rw [rehearse_upgrade, if_neg hname, if_neg hopen]
  obtain ⟨hdroppable, hwhere⟩ := h
  by_cases hdump : Dumpable request conninfo s
  · apply wp_altered_by_copy hnul hsource hdroppable hdump _ hdb hleft
    rcases hwhere with ⟨hn, -⟩ | ⟨-, hn⟩
    · exact Or.inl hn
    · exact hn
  · rcases hwhere with ⟨rfl, hkeep⟩ | ⟨hread, -⟩
    · exact wp_dropped_by_cleanup hnul hsource hdroppable hdump hkeep
    · exact absurd hread hdump

/-- A refused rehearsal leaves the server as it is. -/
theorem wp_unchanged (h : Refused request ∨ ¬ Touched request conninfo s n) :
    wp (serverWorld request conninfo) (fun _ _ => True) (rehearse_upgrade adapter request)
      (fun _ t => t n = s n) s := by
  rw [rehearse_upgrade]
  by_cases hname : request.throwaway_db = request.source_db
  · rw [if_pos hname]
    exact rfl
  rw [if_neg hname]
  by_cases hopen : request.requires_openupgrade = true ∧ ¬ request.use_openupgrade = true
  · rw [if_pos hopen]
    exact wp_spares (calls_save_report fun _ _ => trivial) rfl
  rw [if_neg hopen]
  apply wp_rehearse_on_copy
  rcases h with (h | h | h) | h
  · exact absurd h hname
  · exact absurd h hopen
  · exact Or.inl h
  · exact Or.inr h

/-- A rehearsal preserves every database but leftovers exactly where it is refused, or every
database under a name that it touches is a leftover. -/
theorem preserves_iff (adapter : DbAdapter) (request : Rehearsal)
    (conninfo : String → Option DbName) (s : Server) :
    Preserves adapter request conninfo s ↔ Refused request ∨
      ∀ n db, Touched request conninfo s n → s n = some db → Leftover request db := by
  constructor
  · intro h
    by_contra hcondition
    rw [not_or] at hcondition
    obtain ⟨hrefused, hcondition⟩ := hcondition
    simp only [not_forall] at hcondition
    obtain ⟨n, db, htouched, hdb, hleft⟩ := hcondition
    have hends := ends_run (serveAll_serverWorld request conninfo)
      (rehearse_upgrade adapter request) s
    have hserved : Ends (faultless request conninfo) s (rehearse_upgrade adapter request) _ _ :=
      ends_run (fun _ _ => rfl) (rehearse_upgrade adapter request) s
    exact wp_ends (wp_altered hrefused htouched hdb hleft) hserved (h _ _ hends n db hdb hleft)
  · intro h r t hends n db hdb hleft
    have hspared : Refused request ∨ ¬ Touched request conninfo s n := by
      rcases h with h | h
      · exact Or.inl h
      · exact Or.inr fun htouched => hleft (h n db htouched hdb)
    exact (wp_ends (wp_unchanged hspared) hends).trans hdb

/-! ## A source whose name fills the limit of the server -/

/-- A database name of 63 characters. -/
def longName : DbName := "odoo_production_of_the_company_with_a_long_name_north_and_south"

def longRehearsal : Rehearsal where
  source_env := "production"
  source_version := "17.0"
  target_version := "18.0"
  source_db := longName

/-- What a client connects to for a name that is no connection string. -/
def plain (n : String) : Option DbName := some (serverName n)

def production : Server := fun n => if n = longName then some { content := "orders" } else none

/-- The server cuts the suffix off: the rehearsal restores over its source, and drops it. -/
theorem rehearsal_drops_its_source :
    ProjectConfiguration.validate_identifier longName "db_name" = .ok longName ∧
      longRehearsal.throwaway_suffix ≠ "" ∧ production longName = some { content := "orders" } ∧
      ¬ Leftover longRehearsal { content := "orders" } ∧
      ∃ r t, Ends (serverWorld longRehearsal plain) production
        (rehearse_upgrade .docker longRehearsal) r t ∧ t longName = none := by
  refine ⟨by decide +kernel, by decide, by decide +kernel, fun h => (by cases h), ?_⟩
  have hends := ends_run (serveAll_serverWorld longRehearsal plain)
    (rehearse_upgrade .docker longRehearsal) production
  exact ⟨_, _, hends, by decide +kernel⟩

end RehearsalSafety
