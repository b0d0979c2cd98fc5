import BoundSql.Json.Basic
import BoundSql.TypeRef

set_option autoImplicit false

/-!
# Values and JSON

The JSON form of a value, which is what a placeholder is bound to in a request, and the value that a
JSON literal of a document stands for.
-/

namespace BoundSql.Value

mutual

/-- The JSON form of a value.  A float that is no number is null, and a decimal that does not fit a
float is a text; moments, ids and queries are texts. -/
def toJson : Value → Json
  | .null => .null
  | .boolean b => .boolean b
  | .integer n => .integer n.toInt
  | .float x => if x.isFinite then .float x else .null
  | .decimal d => if d.toFloat.isFinite then .float d.toFloat else .text d.text
  | .text s => .text s
  | .moment m => .text m.text
  | .guid g => .text g.text
  | .array items => .array (toJsonItems items)
  | .object members => .object (toJsonMembers members)
  | .query dataset _ => .text dataset
termination_by structural v => v

/-- The JSON forms of items. -/
def toJsonItems : List Value → List Json
  | [] => []
  | item :: items => item.toJson :: toJsonItems items
termination_by structural vs => vs

/-- The JSON forms of named members. -/
def toJsonMembers : List (String × Value) → List (String × Json)
  | [] => []
  | (name, value) :: members => (name, value.toJson) :: toJsonMembers members
termination_by structural ms => ms

end

/-- The value of an integer: an integer if it fits 64 signed bits, else the nearest float. -/
def ofInt (n : Int) : Value :=
  if -Int.pow 2 63 ≤ n ∧ n < Int.pow 2 63 then .integer (Int64.ofInt n) else .float (Float.ofInt n)

mutual

/-- The value of a JSON literal. -/
def ofJson : Json → Value
  | .null => .null
  | .boolean b => .boolean b
  | .integer n => ofInt n
  | .float x => .float x
  | .text s => .text s
  | .array items => .array (ofJsonItems items)
  | .object members => ofMembers (ofJsonMembers members)
termination_by structural j => j

/-- The values of items. -/
def ofJsonItems : List Json → List Value
  | [] => []
  | item :: items => ofJson item :: ofJsonItems items
termination_by structural js => js

/-- The values of named members. -/
def ofJsonMembers : List (String × Json) → List (String × Value)
  | [] => []
  | (name, value) :: members => (name, ofJson value) :: ofJsonMembers members
termination_by structural ms => ms

end

theorem toJsonItems_eq_map (items : List Value) : toJsonItems items = items.map toJson := by
  induction items with
  | nil => rfl
  | cons v vs ih => simp [toJsonItems, ih]

theorem ofJsonItems_eq_map (items : List Json) : ofJsonItems items = items.map ofJson := by
  induction items with
  | nil => rfl
  | cons j js ih => simp [ofJsonItems, ih]

end BoundSql.Value
