set_option autoImplicit false

/-!
# JSON values

Integers are kept apart from floats, because `1` and `1.0` are bound as different parameters.  The
members of an object keep the order in which their keys first appeared.
-/

namespace BoundSql

/-- A JSON value. -/
inductive Json where
  | null
  | boolean (b : Bool)
  | integer (n : Int)
  | float (x : Float)
  | text (s : String)
  | array (items : List Json)
  | object (members : List (String × Json))
  deriving Inhabited

namespace Json

/-- The members with the value stored under the key: in the place of a member of that key, or
last. -/
def putMember (key : String) (value : Json) : List (String × Json) → List (String × Json)
  | [] => [(key, value)]
  | (k, v) :: rest => if key = k then (key, value) :: rest else (k, v) :: putMember key value rest

/-- The text of a JSON string. -/
def asText? : Json → Option String
  | .text s => some s
  | _ => none

end Json

end BoundSql
