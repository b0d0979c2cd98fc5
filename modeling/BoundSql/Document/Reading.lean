import BoundSql.Document.Expression
import BoundSql.Query.Operator

set_option autoImplicit false

/-!
# Query documents

A document names a dataset and the type of its rows, declares types and captured values, and lists
filters, a projection and an ordering.  It is read into a chain of query operators over the dataset:
the filters first, then the projection, then the ordering.
-/

namespace BoundSql

/-- The name of the type of a container without a next one. -/
def lastContainerName : String := "NamedProperty"

/-- The name of the type of a container with a next one. -/
def innerContainerName : String := "NamedPropertyWithNext"

/-- The names of all types of dynamic containers. -/
def dynamicContainerNames : List String := [lastContainerName, innerContainerName]

/-- A document that has been read. -/
structure Document where
  descriptor : Descriptor
  /-- The operators of the query in the order in which they apply. -/
  operators : List (QueryOperator × Expr)
  deriving Inhabited

namespace Document

/-- The chain of operators over the dataset. -/
def chain (d : Document) : Expr := (Expr.ofDescriptor d.descriptor).applyAll d.operators

/-! ## Projections -/

/-- The fields of a record, in order. -/
def recordFields (scope : Scope) (members : List (String × Json)) :
    Reading (List (String × Expr)) :=
  members.mapM fun member => (fun e => (member.1, e)) <$> expression scope member.2

/-- The container of a name and a value in front of the next container. -/
def container (name : String) (value : Expr) (next : Option Expr) : Expr :=
  let typeName := if next.isSome then innerContainerName else lastContainerName
  let nextType := next.toList.map fun e => ("Next", e.typeOf)
  let type := TypeRef.record typeName ([("Name", .string), ("Value", .object)] ++ nextType) []
  Expr.recordOf type
    ([("Name", .const (.text name)), ("Value", value)] ++ next.toList.map fun e => ("Next", e))

/-- The name and the value of an entry of a dynamic projection. -/
def entry (scope : Scope) (members : List (String × Json)) : Reading (String × Expr) :=
  match members.lookup "name" with
  | none => .error (.missingField "name")
  | some (.text name) =>
    match members.lookup "value" with
    | none => .error (.missingField "value")
    | some value => (fun e => (name, e)) <$> expression scope value
  | some _ => .error .entryNameNotText

/-- The chain of containers for a list of entries; the last entry is read first. -/
def containers (scope : Scope) : List Json → Reading (Option Expr)
  | [] => .ok none
  | json :: rest => do
    let next ← containers scope rest
    match json with
    | .object members => do
      let (name, value) ← entry scope members
      return some (container name value next)
    | _ => .error .entryNotObject

/-- The record that holds a chain of containers. -/
def containerRecord (container : Expr) : Expr :=
  let type := TypeRef.record "SelectSome" [("Container", container.typeOf)] []
  Expr.recordOf type [("Container", container)]

/-- The body of a projection: a record with a field for each member of an object, or a chain of
containers for the entries of an array. -/
def projectionBody (scope : Scope) : Json → Reading Expr
  | .object members =>
    Expr.anonymous (.record "<>f__AnonymousType" [] []) <$> recordFields scope members
  | .array entries => do
    match ← containers scope entries with
    | some container => return containerRecord container
    | none => .error .selectEmpty
  | _ => .error .selectShape

/-! ## The parts of a document -/

/-- The filters. -/
def filters (scope : Scope) : Option Json → Reading (List (QueryOperator × Expr))
  | none => .ok []
  | some (.array items) =>
    items.mapM fun json => (fun body => (.filter, scope.functionOf body)) <$> expression scope json
  | some _ => .error .filtersNotArray

/-- The projection. -/
def projection (scope : Scope) : Option Json → Reading (List (QueryOperator × Expr))
  | none => .ok []
  | some json => (fun body => [(.select, scope.functionOf body)]) <$> projectionBody scope json

/-- Whether a key of the ordering is descending, which a minus in front says, and its path. -/
def orderPath (key : String) : Bool × String :=
  match key.toList with
  | '-' :: column => (true, String.ofList column)
  | _ => (false, key)

/-- A key of the ordering: whether it is descending, and its column. -/
def orderKey (scope : Scope) (key : String) : Bool × Expr :=
  ((orderPath key).1, scope.functionOf (scope.column (orderPath key).2))

/-- The ordering: the first key starts it and the others are added. -/
def ordering (scope : Scope) : Option Json → Reading (List (QueryOperator × Expr))
  | none => .ok []
  | some (.array items) => do
    let keys ← items.mapM fun json =>
      match json with
      | .text key => (.ok (orderKey scope key) : Reading (Bool × Expr))
      | _ => .error .orderKeyNotText
    match keys with
    | [] => return []
    | (descending, key) :: rest =>
      let more := rest.map fun (descending, key) => (QueryOperator.thenBy descending, key)
      return (.orderBy descending, key) :: more
  | some _ => .error .orderNotArray

/-- The text under a key that has to hold one. -/
def requiredText (members : List (String × Json)) (key : String) : Reading String :=
  match textAt? members key with
  | some text => .ok text
  | none => .error (.missingText key)

/-- The row type, which has to be declared. -/
def declaredRowType (table : TypeTable) (name : String) : Reading TypeRef :=
  let type := table.resolve name
  if type.isRecord then .ok type else .error (.rowTypeNotDeclared name)

/-- The object with the captured variables. -/
def capturedObject : Option Json → Reading Value
  | none => .ok (.object [])
  | some (.object members) => .ok (Value.ofJson (.object members))
  | some _ => .error .capturedNotObject

/-- Reads a document with these members.  The types that it declares are built in the order in which
they are visited. -/
def ofMembersIn (visit : List TypeDefinition → List String) (members : List (String × Json)) :
    Reading Document := do
  let dataset ← requiredText members "dataset"
  let rowTypeName ← requiredText members "row_type"
  let definitions ← TypeDefinition.readAll (members.lookup "types")
  let table ← TypeTable.buildInOrder definitions (visit definitions)
  let rowType ← declaredRowType table rowTypeName
  let closure ← capturedObject (members.lookup "captured")
  let scope : Scope := ⟨rowType, closure⟩
  let filters ← filters scope (members.lookup "filters")
  let projection ← projection scope (members.lookup "select")
  let ordering ← ordering scope (members.lookup "order_by")
  return ⟨⟨dataset, rowType⟩, filters ++ projection ++ ordering⟩

/-- Reads a document with these members, whose types are built in the order of their declaration. -/
def ofMembers (members : List (String × Json)) : Reading Document :=
  ofMembersIn TypeDefinition.names members

/-- Reads a document. -/
def ofJson : Json → Reading Document
  | .object members => ofMembers members
  | _ => .error .notAnObject

end Document

end BoundSql
