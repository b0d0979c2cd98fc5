set_option autoImplicit false

/-!
# Scalar types

The types of plain column values.  Each has one name, by which it is written in rendered trees, and
the names that a query document may use for it.
-/

namespace BoundSql

/-- The type of a plain value. -/
inductive ScalarType where
  | bool
  | char
  | int
  | uint
  | float
  | decimal
  | string
  | dateTime
  | dateTimeOffset
  | guid
  deriving DecidableEq, Repr, Inhabited

namespace ScalarType

/-- The name of the type. -/
def name : ScalarType → String
  | .bool => "bool"
  | .char => "char"
  | .int => "int"
  | .uint => "uint"
  | .float => "float"
  | .decimal => "decimal"
  | .string => "string"
  | .dateTime => "datetime"
  | .dateTimeOffset => "datetimeoffset"
  | .guid => "guid"

/-- The type that a document means by a name. -/
def ofName? : String → Option ScalarType
  | "bool" | "boolean" => some .bool
  | "char" => some .char
  | "int" | "long" | "short" | "byte" => some .int
  | "uint" | "ulong" | "ushort" => some .uint
  | "float" | "double" => some .float
  | "decimal" => some .decimal
  | "string" => some .string
  | "datetime" | "date" => some .dateTime
  | "datetimeoffset" => some .dateTimeOffset
  | "guid" | "uuid" => some .guid
  | _ => none

/-- Every type is read from its own name. -/
theorem ofName?_name (s : ScalarType) : ofName? s.name = some s := by cases s <;> rfl

end ScalarType

end BoundSql
