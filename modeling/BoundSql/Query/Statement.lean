import BoundSql.Filter.Clause
import BoundSql.Projection.Item
import BoundSql.Value.Json

set_option autoImplicit false

/-!
# Statements

A statement is a compiled query in its parts: the selected items, the dataset, the clauses of the
filters and the keys of the ordering.  Its text, its parameters and the body of a request for it are
views of the parts.
-/

namespace BoundSql

/-- A key of an ordering. -/
structure OrderKey where
  column : String
  descending : Bool
  deriving DecidableEq, Repr, Inhabited

/-- The text of a key. -/
def OrderKey.text (key : OrderKey) : String :=
  if key.descending then key.column ++ " DESC" else key.column

/-- Shapes fetched rows with the row function of a projection. -/
def Lambda.shape (projection : Lambda) (rows : List Value) : Except CompileError (List Value) :=
  match projection.shaper with
  | some shaper => .ok (rows.map shaper.apply)
  | none => .error (.noRowFunction projection.toExpr)

/-- A compiled query. -/
structure Statement where
  dataset : String
  items : List Projection.Item
  /-- The clauses of the filters, all of which must hold. -/
  filters : List Filter.Operand
  order : List OrderKey
  /-- The projection that the items came from. -/
  projection : Option Lambda
  deriving Inhabited

namespace Statement

/-- The selected columns as text. -/
def columns (s : Statement) : List Column := Projection.columns s.items

/-- The list of selected columns and the dataset. -/
def selectText (s : Statement) : String :=
  "SELECT " ++ Text.joinWith ", " (s.columns.map Column.text) ++ " FROM " ++ s.dataset

/-- The condition, empty without filters. -/
def whereText (s : Statement) : String :=
  if s.filters.isEmpty then ""
  else " WHERE " ++ Text.joinWith " AND " (s.filters.map Filter.Operand.text)

/-- The ordering, empty without keys. -/
def orderText (s : Statement) : String :=
  if s.order.isEmpty then "" else " ORDER BY " ++ Text.joinWith ", " (s.order.map OrderKey.text)

/-- The text of the statement. -/
def sql (s : Statement) : String := s.selectText ++ s.whereText ++ s.orderText

/-- The values of the placeholders from left to right: first those of the items, then those of the
filters. -/
def params (s : Statement) : List Value :=
  Projection.values s.items ++ s.filters.flatMap Filter.Operand.values

/-- The parameters as JSON. -/
def paramsJson (s : Statement) : Json := .array (s.params.map Value.toJson)

/-- The body of a request for the statement. -/
def requestBody (s : Statement) : Json :=
  .object [("query", .text s.sql), ("params", s.paramsJson)]

end Statement

end BoundSql
