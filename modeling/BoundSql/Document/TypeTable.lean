import BoundSql.Document.Error
import BoundSql.Document.TypeSpec
import BoundSql.Value.Json

set_option autoImplicit false

/-!
# Declared types

A document declares record types by name.  Each is built once and kept.  While a type is being
built it is not among the free definitions, and a reference to it from inside stands for its name
alone; so every build takes a definition away and the building comes to an end.  A name that is
neither a scalar nor declared is a type of which only the name is known.
-/

namespace BoundSql

/-- What a document says of a type. -/
structure TypeDefinition where
  name : String
  /-- The properties, none if they are no object; a property is none if its type is no text. -/
  properties : Option (List (String × Option TypeSpec))
  statics : List (String × Value)
  deriving Inhabited

/-- The types that have been built, each under its name. -/
abbrev TypeTable := List (String × TypeRef)

namespace TypeDefinition

/-- The definition of that name. -/
def find? (name : String) (definitions : List TypeDefinition) : Option TypeDefinition :=
  definitions.find? (·.name == name)

/-- The names of the definitions in the order of their declaration. -/
def names (definitions : List TypeDefinition) : List String := definitions.map (·.name)

/-- The definitions without those of that name. -/
def without (name : String) (definitions : List TypeDefinition) : List TypeDefinition :=
  definitions.filter (·.name != name)

theorem length_without_lt {name : String} {definitions : List TypeDefinition} {d : TypeDefinition}
    (h : find? name definitions = some d) :
    (without name definitions).length < definitions.length := by
  have hmem : d ∈ definitions := List.mem_of_find?_eq_some h
  have hname : (d.name == name) = true := by simpa using List.find?_some h
  refine List.length_filter_lt_length_iff_exists.2 ⟨d, hmem, ?_⟩
  simp at hname
  simp [hname]

/-- The properties that the members of a JSON object declare. -/
def readProperties (members : List (String × Json)) : List (String × Option TypeSpec) :=
  members.map fun member => (member.1, member.2.asText?.map TypeSpec.ofText)

/-- The definition that the members of a JSON object give.  Without properties there are none, and
static members count only if they are an object. -/
def read (name : String) (members : List (String × Json)) : TypeDefinition where
  name := name
  properties :=
    match members.lookup "properties" with
    | none => some []
    | some (.object properties) => some (readProperties properties)
    | some _ => none
  statics :=
    match members.lookup "statics" with
    | some (.object statics) => statics.map fun member => (member.1, Value.ofJson member.2)
    | _ => []

/-- The definitions that the value under `types` gives. -/
def readAll : Option Json → Except DocumentError (List TypeDefinition)
  | none => .ok []
  | some (.object members) =>
    members.mapM fun member =>
      match member.2 with
      | .object definition => .ok (read member.1 definition)
      | _ => .error (.typeNotObject member.1)
  | some _ => .error .typesNotObject

end TypeDefinition

namespace TypeTable

/-- A text has null among its values already. -/
def addNull : TypeRef → TypeRef
  | .scalar .string => .string
  | type => .nullable type

mutual

/-- The type of a name, built now if it is declared and free. -/
def ofName (free : List TypeDefinition) (table : TypeTable) (name : String) :
    Except DocumentError (TypeRef × TypeTable) :=
  match table.lookup name with
  | some type => .ok (type, table)
  | none =>
    match _found : TypeDefinition.find? name free with
    | none => .ok (.named name, table)
    | some definition =>
      match definition.properties with
      | none => .error (.propertiesNotObject name)
      | some specs =>
        match ofProperties name (TypeDefinition.without name free) table specs with
        | .error e => .error e
        | .ok (properties, table) =>
          let type := TypeRef.record name properties definition.statics
          .ok (type, (name, type) :: table)
termination_by (free.length, 0)
decreasing_by exact Prod.Lex.left _ _ (TypeDefinition.length_without_lt _found)

/-- The type of a specification. -/
def ofSpec (free : List TypeDefinition) (table : TypeTable) :
    TypeSpec → Except DocumentError (TypeRef × TypeTable)
  | .name name =>
    match ScalarType.ofName? name with
    | some scalar => .ok (.scalar scalar, table)
    | none => ofName free table name
  | .list element =>
    match ofSpec free table element with
    | .error e => .error e
    | .ok (type, table) => .ok (.list type, table)
  | .nullable inner =>
    match ofSpec free table inner with
    | .error e => .error e
    | .ok (type, table) => .ok (addNull type, table)
termination_by spec => (free.length, sizeOf spec)
decreasing_by
  · exact Prod.Lex.right _ (by simp only [TypeSpec.name.sizeOf_spec]; omega)
  · exact Prod.Lex.right _ (by simp only [TypeSpec.list.sizeOf_spec]; omega)
  · exact Prod.Lex.right _ (by simp only [TypeSpec.nullable.sizeOf_spec]; omega)

/-- The types of the properties of the type `owner`, in order. -/
def ofProperties (owner : String) (free : List TypeDefinition) (table : TypeTable) :
    List (String × Option TypeSpec) → Except DocumentError (List (String × TypeRef) × TypeTable)
  | [] => .ok ([], table)
  | (property, none) :: _ => .error (.propertyNotText owner property)
  | (property, some spec) :: rest =>
    match ofSpec free table spec with
    | .error e => .error e
    | .ok (type, table) =>
      match ofProperties owner free table rest with
      | .error e => .error e
      | .ok (properties, table) => .ok ((property, type) :: properties, table)
termination_by specs => (free.length, sizeOf specs)
decreasing_by
  · refine Prod.Lex.right _ ?_
    simp only [List.cons.sizeOf_spec, Prod.mk.sizeOf_spec, Option.some.sizeOf_spec]
    omega
  · refine Prod.Lex.right _ ?_
    simp only [List.cons.sizeOf_spec]
    omega

end

/-- Builds the types of the given names, one after another. -/
def buildInOrder (definitions : List TypeDefinition) (names : List String) :
    Except DocumentError TypeTable :=
  names.foldlM (fun table name => (·.2) <$> ofName definitions table name) []

/-- The type of a name; a name that is not declared is all that is known of it. -/
def resolve (table : TypeTable) (name : String) : TypeRef := (table.lookup name).getD (.named name)

end TypeTable

end BoundSql
