import BoundSql.Value.Basic

set_option autoImplicit false

/-!
# Types and members

The name of a type is its identity: two references denote the same type when their names agree.  A
member is known by its name, the type that declares it and the type of its value.
-/

namespace BoundSql

namespace TypeRef

/-- The name of a type. -/
def name : TypeRef → String
  | .scalar type => type.name
  | .nullable inner => inner.name ++ "?"
  | .list element => "list<" ++ element.name ++ ">"
  | .record name _ _ => name
  | .named name => name

/-- Do two references denote the same type? -/
def sameType (a b : TypeRef) : Bool := a.name == b.name

theorem sameType_iff {a b : TypeRef} : a.sameType b = true ↔ a.name = b.name := by simp [sameType]

/-- The type of truth values. -/
abbrev bool : TypeRef := .scalar .bool

/-- The type of texts. -/
abbrev string : TypeRef := .scalar .string

/-- The type of a value about which nothing is known. -/
abbrev object : TypeRef := .named "object"

/-- The type that declares the query operators. -/
abbrev queryable : TypeRef := .named "Queryable"

/-- The type of objects whose members are captured variables. -/
abbrev closure : TypeRef := .named "<>c__DisplayClass"

def isBool : TypeRef → Bool
  | .scalar .bool => true
  | _ => false

def isString : TypeRef → Bool
  | .scalar .string => true
  | _ => false

def isQueryable : TypeRef → Bool
  | .named name => name == "Queryable"
  | _ => false

def isScalar : TypeRef → Bool
  | .scalar _ => true
  | _ => false

/-- Is it the type of a plain value?  One nullable around a scalar is looked through on request. -/
def isBasic (throughNullable : Bool) : TypeRef → Bool
  | .scalar _ => true
  | .nullable inner => throughNullable && inner.isScalar
  | _ => false

/-- The properties of a record in declaration order; other types have none. -/
def properties : TypeRef → List (String × TypeRef)
  | .record _ properties _ => properties
  | _ => []

/-- The static members of a record; other types have none. -/
def statics : TypeRef → List (String × Value)
  | .record _ _ statics => statics
  | _ => []

/-- The name of a record; other types are none. -/
def recordName? : TypeRef → Option String
  | .record name _ _ => some name
  | _ => none

def isRecord (t : TypeRef) : Bool := t.recordName?.isSome

/-- The names of the properties of a record in declaration order. -/
def propertyNames (t : TypeRef) : List String := t.properties.map (·.1)

/-- The type of a property. -/
def property? (t : TypeRef) (name : String) : Option TypeRef := t.properties.lookup name

/-- The value of a static member. -/
def static? (t : TypeRef) (name : String) : Option Value := t.statics.lookup name

end TypeRef

/-- A property or field as an access or a binding sees it. -/
structure MemberRef where
  name : String
  /-- The type that declares the member. -/
  declaring : TypeRef
  /-- The type of the member's value. -/
  type : TypeRef
  deriving Inhabited

namespace MemberRef

/-- The member of that name on a type; nothing is known of a member that the type does not
declare. -/
def of (declaring : TypeRef) (name : String) : MemberRef :=
  ⟨name, declaring, (declaring.property? name).getD .object⟩

/-- Equality by structure. -/
def beq (a b : MemberRef) : Bool :=
  a.name == b.name && a.declaring == b.declaring && a.type == b.type

instance : BEq MemberRef := ⟨beq⟩

end MemberRef

/-- The static type of a value. -/
def Value.typeRef : Value → TypeRef
  | .null => .object
  | .boolean _ => .bool
  | .integer _ => .scalar .int
  | .float _ => .scalar .float
  | .decimal _ => .scalar .decimal
  | .text _ => .string
  | .moment _ => .scalar .dateTimeOffset
  | .guid _ => .scalar .guid
  | .array _ => .list .object
  | .object _ => .closure
  | .query _ element => .named ("Query<" ++ element.name ++ ">")

end BoundSql
