import BoundSql.Expr.Basic

set_option autoImplicit false

/-!
# Query operators

A query is a chain of operators applied to a dataset.  Each operator is a call with two arguments:
the chain so far and a lambda over its rows.
-/

namespace BoundSql

/-- An operator of a query chain. -/
inductive QueryOperator where
  /-- Keeps the rows for which a predicate holds. -/
  | filter
  /-- Shapes the selected columns. -/
  | select
  /-- Starts a new ordering. -/
  | orderBy (descending : Bool)
  /-- Adds a key to the ordering. -/
  | thenBy (descending : Bool)
  deriving DecidableEq, Repr, Inhabited

namespace QueryOperator

/-- The name of the method that stands for the operator. -/
def method : QueryOperator → String
  | .filter => "Where"
  | .select => "Select"
  | .orderBy false => "OrderBy"
  | .orderBy true => "OrderByDescending"
  | .thenBy false => "ThenBy"
  | .thenBy true => "ThenByDescending"

/-- The operator that a method stands for. -/
def ofMethod? : String → Option QueryOperator
  | "Where" => some .filter
  | "Select" => some .select
  | "OrderBy" => some (.orderBy false)
  | "OrderByDescending" => some (.orderBy true)
  | "ThenBy" => some (.thenBy false)
  | "ThenByDescending" => some (.thenBy true)
  | _ => none

theorem ofMethod?_method (op : QueryOperator) : ofMethod? op.method = some op := by
  cases op with
  | filter => rfl
  | select => rfl
  | orderBy d => cases d <;> rfl
  | thenBy d => cases d <;> rfl

end QueryOperator

/-- What a query is asked of: the dataset and the type of its rows. -/
structure Descriptor where
  dataset : String
  element : TypeRef
  deriving Inhabited

namespace Expr

/-- The expression that a chain starts from. -/
def ofDescriptor (d : Descriptor) : Expr := .const (.query d.dataset d.element)

/-- The chain with one more operator. -/
def apply (source : Expr) (op : QueryOperator) (argument : Expr) : Expr :=
  .call .queryable op.method [source, argument]

/-- The chain with more operators, the first applied first. -/
def applyAll (source : Expr) (steps : List (QueryOperator × Expr)) : Expr :=
  steps.foldl (fun chain step => chain.apply step.1 step.2) source

end Expr

end BoundSql
