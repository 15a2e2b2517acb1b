import Mathlib.Data.Int.Notation
import Mathlib.Data.List.Basic

/-!
# JSON values as Python reads them

A mapping is the list of its items; of two items with one key Python keeps the last, so a
mapping has each key once. A float is its text, which nothing modelled here reads.
-/
namespace PythonJson

inductive Json where
  | null
  | bool (b : Bool)
  | int (i : ℤ)
  | float (text : String)
  | str (s : String)
  | list (items : List Json)
  | dict (items : List (String × Json))
  deriving Repr

abbrev Items := List (String × Json)

/-- `mapping.get(key)`; an absent key is `None`. -/
def get (items : Items) (key : String) : Option Json :=
  (items.find? fun item => item.1 = key).map Prod.snd

def Json.asStr : Json → Option String
  | .str s => some s
  | _ => none

/-- `isinstance(value, int)`, of which the booleans are instances. -/
def Json.asInt : Json → Option ℤ
  | .int i => some i
  | .bool true => some 1
  | .bool false => some 0
  | _ => none

/-- `isinstance(value, (int, float))`, as far as an integer is one. -/
def Json.isNumber : Json → Bool
  | .int _ | .bool _ | .float _ => true
  | _ => false

/-- A mapping or a list cannot be a key. -/
def Json.hashable : Json → Bool
  | .list _ | .dict _ => false
  | _ => true

/-- `mapping.get(key) == text`. -/
def holds (items : Items) (key text : String) : Bool :=
  (get items key).bind Json.asStr == some text

theorem holds_iff {items : Items} {key text : String} :
    holds items key text = true ↔ get items key = some (.str text) := by
  simp only [holds, beq_iff_eq, Option.bind_eq_some_iff]
  constructor
  · rintro ⟨v, hv, htext⟩
    cases v with
    | str s => rw [hv, Option.some.inj htext]
    | null | bool b | int i | float t | list l | dict d => cases htext
  · intro h
    exact ⟨_, h, rfl⟩

end PythonJson
