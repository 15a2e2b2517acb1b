import Odooctl.EffectPrograms
import Odooctl.PythonText
import Mathlib.Logic.Function.Basic

/-!
# The PostgreSQL server behind a database adapter

The cluster is a partial map from database names to OIDs. Statements take effect
atomically or not at all; whether the adapter then reports success is independent of
that in the lossy worlds below.
-/
namespace PostgresCatalog

open EffectPrograms PythonText

abbrev DbName := String

/-- The name that the server reads in a statement: identifiers are cut at 63 bytes. -/
def serverName (n : DbName) : DbName := String.ofList (truncateUtf8 n.toList 63)

theorem serverName_of_le {n : DbName} (h : utf8Length n.toList ≤ 63) : serverName n = n := by
  rw [serverName, truncateUtf8_of_le h, String.ofList_toList]

theorem utf8Length_serverName (n : DbName) : utf8Length (serverName n).toList ≤ 63 := by
  rw [serverName, String.toList_ofList]
  exact utf8Length_truncateUtf8 _ _

/-- An assigned OID; `0` is PostgreSQL's invalid OID. -/
structure Oid where
  val : ℕ
  pos : 1 ≤ val
  le : val ≤ 0xFFFFFFFF
  deriving DecidableEq, Repr

/-- `pg_database`: the name of a database is unique in its cluster. -/
abbrev Catalog := DbName → Option Oid

/-- The SQL that the adapters are asked to run. -/
inductive Statement where
  | terminateConnections (datname : DbName)
  | dropDatabase (name : DbName)
  | renameDatabase (old new : DbName)
  | assertOdooSchema
  deriving DecidableEq, Repr

/-- A scalar as `int` sees it: `None` or the empty string, a number or text that spells
one, or a value that `int` rejects. -/
inductive Scalar where
  | absent
  | integer (n : ℤ)
  | unreadable
  deriving DecidableEq, Repr

/-- What an adapter raises, as text. -/
abbrev AdapterError := String

/-- The calls that odooctl makes on a database adapter. -/
inductive AdapterCall where
  | psql (db_name : DbName) (sql : Statement)
  | psql_scalar (db_name : DbName) (oid_of : DbName)
  | database_oid (name : DbName)
  | database_exists (name : DbName)
  | ping (db_name : DbName)
  | create (db_name : DbName)
  | restore_into (db_name : DbName)
  | drop (db_name : DbName)
  deriving DecidableEq, Repr

def AdapterCall.Answer : AdapterCall → Type
  | .psql_scalar _ _ => Scalar
  | .database_oid _ => Scalar
  | .database_exists _ => Bool
  | _ => Unit

abbrev Adapter : Interface where
  Op := AdapterCall
  Reply := fun c => Except AdapterError c.Answer

/-- The optional methods that an adapter object exposes. -/
structure Hooks where
  psql_scalar : Bool
  database_oid : Bool
  database_exists : Bool
  deriving DecidableEq, Repr

namespace Catalog

def drop (c : Catalog) (n : DbName) : Catalog := Function.update c n none

def move (c : Catalog) (old new : DbName) (o : Oid) : Catalog :=
  Function.update (Function.update c old none) new (some o)

@[simp] theorem drop_self (c : Catalog) (n : DbName) : c.drop n n = none := by simp [drop]

@[simp] theorem drop_other (c : Catalog) {m n : DbName} (h : m ≠ n) : c.drop n m = c m := by
  simp [drop, h]

@[simp] theorem move_new (c : Catalog) (old new : DbName) (o : Oid) :
    c.move old new o new = some o := by simp [move]

theorem move_old (c : Catalog) {old new : DbName} (o : Oid) (h : old ≠ new) :
    c.move old new o old = none := by simp [move, h]

theorem move_other (c : Catalog) {m old new : DbName} (o : Oid) (h : m ≠ old) (k : m ≠ new) :
    c.move old new o m = c m := by simp [move, h, k]

/-- The answer to an OID lookup that tells the truth. The name in the query is cut as well:
`datname = '…'` reads its literal as a `name`. -/
def scalar (c : Catalog) (n : DbName) : Scalar :=
  match c (serverName n) with
  | some o => .integer o.val
  | none => .absent

end Catalog

/-- What a statement does when it takes effect. A rename needs its old name to exist and
its new name to be free. -/
inductive Executes : Catalog → Statement → Catalog → Prop where
  | terminate (c n) : Executes c (.terminateConnections n) c
  | drop (c n) : Executes c (.dropDatabase n) (c.drop (serverName n))
  | rename {c : Catalog} {old new o} (ho : c (serverName old) = some o)
      (hn : c (serverName new) = none) :
      Executes c (.renameDatabase old new) (c.move (serverName old) (serverName new) o)
  | check (c) : Executes c .assertOdooSchema c

/-- What an adapter call does to the cluster when it takes effect. The server picks the
OID of a new database. -/
inductive Affects : Catalog → AdapterCall → Catalog → Prop where
  | psql {c d db sql} (h : Executes c sql d) : Affects c (.psql db sql) d
  | create {c : Catalog} {n} (o) (hn : c (serverName n) = none) :
      Affects c (.create n) (Function.update c (serverName n) (some o))
  | drop (c n) : Affects c (.drop n) (c.drop (serverName n))

/-- A lookup tells the truth or raises. -/
def Truthful (c : Catalog) : (o : AdapterCall) → Except AdapterError o.Answer → Prop
  | .psql_scalar _ n, .ok v => v = c.scalar n
  | .database_oid n, .ok v => v = c.scalar n
  | .database_exists n, .ok v => v = (c (serverName n)).isSome
  | _, _ => True

/-- Every call takes effect or not and, independently of that, reports success or raises;
only a lookup that reports something reports the truth. -/
def faulty : World Adapter Catalog := fun o c r d =>
  Truthful c o r ∧ (d = c ∨ Affects c o d)

/-- The calls that change no name when they take effect. -/
def AdapterCall.isLookup : AdapterCall → Bool
  | .psql _ _ => false
  | .create _ => false
  | .drop _ => false
  | _ => true

/-- As `faulty`, but a call that reports success has taken effect. -/
def failing : World Adapter Catalog := fun o c r d =>
  Truthful c o r ∧ (Affects c o d ∨ d = c ∧ (o.isLookup = true ∨ ∃ e, r = .error e))

/-- A server without faults, which gives new databases the OID `fresh`. -/
def serve (fresh : Oid) : (o : AdapterCall) → Catalog → Except AdapterError o.Answer × Catalog
  | .psql _ (.renameDatabase old new), c =>
    match c (serverName old), c (serverName new) with
    | some o, none => (.ok (), c.move (serverName old) (serverName new) o)
    | none, _ => (.error s!"database {old} does not exist", c)
    | some _, some _ => (.error s!"database {new} already exists", c)
  | .psql _ (.dropDatabase n), c => (.ok (), c.drop (serverName n))
  | .psql _ (.terminateConnections _), c => (.ok (), c)
  | .psql _ .assertOdooSchema, c => (.ok (), c)
  | .psql_scalar _ n, c => (.ok (c.scalar n), c)
  | .database_oid n, c => (.ok (c.scalar n), c)
  | .database_exists n, c => (.ok (c (serverName n)).isSome, c)
  | .ping _, c => (.ok (), c)
  | .create n, c =>
    match c (serverName n) with
    | none => (.ok (), Function.update c (serverName n) (some fresh))
    | some _ => (.error s!"database {n} already exists", c)
  | .restore_into _, c => (.ok (), c)
  | .drop n, c => (.ok (), c.drop (serverName n))

/-- A server without faults; it gives each new database some OID. -/
def faultless : World Adapter Catalog := fun o c r d => ∃ fresh, serve fresh o c = (r, d)

theorem serve_faulty (fresh : Oid) (o : AdapterCall) (c : Catalog) :
    faulty o c (serve fresh o c).1 (serve fresh o c).2 := by
  cases o with
  | psql db sql =>
    refine ⟨trivial, ?_⟩
    cases sql with
    | renameDatabase old new =>
      cases ho : c (serverName old) with
      | none => exact .inl (by simp [serve, ho])
      | some o =>
        cases hn : c (serverName new) with
        | none => exact .inr (by simpa [serve, ho, hn] using .psql (.rename ho hn))
        | some o' => exact .inl (by simp [serve, ho, hn])
    | dropDatabase n => exact .inr (.psql (.drop c n))
    | terminateConnections n => exact .inl rfl
    | assertOdooSchema => exact .inl rfl
  | psql_scalar m n => exact ⟨rfl, .inl rfl⟩
  | database_oid n => exact ⟨rfl, .inl rfl⟩
  | database_exists n => exact ⟨rfl, .inl rfl⟩
  | ping n => exact ⟨trivial, .inl rfl⟩
  | create n =>
    refine ⟨trivial, ?_⟩
    cases hn : c (serverName n) with
    | none => exact .inr (by simpa [serve, hn] using .create fresh hn)
    | some o => exact .inl (by simp [serve, hn])
  | restore_into n => exact ⟨trivial, .inl rfl⟩
  | drop n => exact ⟨trivial, .inr (.drop c n)⟩

theorem faultless_faulty {o : AdapterCall} {c d : Catalog} {r : Except AdapterError o.Answer}
    (h : faultless o c r d) : faulty o c r d := by
  obtain ⟨fresh, hs⟩ := h
  have hf := serve_faulty fresh o c
  rw [hs] at hf
  exact hf

end PostgresCatalog
