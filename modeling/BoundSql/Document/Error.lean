import BoundSql.Json.Printer

set_option autoImplicit false

/-!
# Why a document is refused

A query document is well-formed JSON.  These are the causes for which such a text describes no
query, and the wording of each.
-/

namespace BoundSql

/-- A cause for which a document is refused. -/
inductive DocumentError where
  | notAnObject
  | missingText (key : String)
  | typesNotObject
  | typeNotObject (name : String)
  | propertiesNotObject (type : String)
  | propertyNotText (type property : String)
  | rowTypeNotDeclared (name : String)
  | capturedNotObject
  | filtersNotArray
  | orderNotArray
  | orderKeyNotText
  | unknownOperator (symbol : String)
  | missingField (key : String)
  /-- An expression with none of the fields that say what it is. -/
  | unreadable (members : List (String × Json))
  | selectShape
  | entryNotObject
  | entryNameNotText
  | selectEmpty
  deriving Inhabited

/-- The wording of a cause. -/
def DocumentError.message : DocumentError → String
  | .notAnObject => "expected a JSON object"
  | .missingText key => "missing string field \"" ++ key ++ "\""
  | .typesNotObject => "\"types\" must be an object"
  | .typeNotObject name => "type '" ++ name ++ "' must be an object"
  | .propertiesNotObject type => "properties of '" ++ type ++ "' must be an object"
  | .propertyNotText type property => "type of " ++ type ++ "." ++ property ++ " must be a string"
  | .rowTypeNotDeclared name => "row type '" ++ name ++ "' is not declared under \"types\""
  | .capturedNotObject => "\"captured\" must be an object"
  | .filtersNotArray => "\"filters\" must be an array"
  | .orderNotArray => "\"order_by\" must be an array"
  | .orderKeyNotText => "order_by keys must be strings"
  | .unknownOperator symbol => "unknown operator '" ++ symbol ++ "'"
  | .missingField key => "missing field \"" ++ key ++ "\""
  | .unreadable members => "cannot interpret expression " ++ (Json.object members).compact
  | .selectShape => "\"select\" must be an object or an array"
  | .entryNotObject => "dynamic select entries must be objects"
  | .entryNameNotText => "dynamic select names must be strings"
  | .selectEmpty => "dynamic select is empty"

end BoundSql
