import BoundSql.Expr.Basic
import BoundSql.Text.Segments

set_option autoImplicit false

/-!
# Building expressions

The shapes that queries are made of: members found on the type of their instance, captured
variables, comparisons and memberships in static form, lambdas over a parameter, and records.
-/

namespace BoundSql.Expr

/-- The member of that name on the static type of the target. -/
def access (target : Expr) (name : String) : Expr :=
  .member target (MemberRef.of target.typeOf name)

/-- The member that names lead to, one after another. -/
def accessAll (target : Expr) (names : List String) : Expr := names.foldl access target

/-- The member that a dotted path leads to. -/
def accessPath (target : Expr) (path : String) : Expr := accessAll target (Text.segments path)

/-- A variable that the query has captured. -/
def captured (closure : Value) (name : String) : Expr := access (.const closure) name

/-- A static member of a type. -/
def ofStatic (declaring : TypeRef) (name : String) : Expr :=
  .staticMember ⟨name, declaring, .object⟩

/-- The comparison of two texts. -/
def textCompare (left right : Expr) : Expr := .call .string compareMethod [left, right]

/-- The membership of an item in a list. -/
def contains (list item : Expr) : Expr := .call (.named "Enumerable") containsMethod [list, item]

/-- The parameter that an expression is.  Any other expression lends its text and its type. -/
def toParameter : Expr → Parameter
  | .param parameter => parameter
  | e => ⟨e.display, e.typeOf⟩

/-- The lambda over a parameter with a given return type. -/
def lambdaOver (parameter : Expr) (returns : TypeRef) (body : Expr) : Expr :=
  .lambda parameter.toParameter returns body none

/-- The lambda over a parameter that returns what its body is. -/
def functionOver (parameter body : Expr) : Expr := lambdaOver parameter body.typeOf body

/-- The lambda over a parameter that returns a truth value. -/
def predicateOver (parameter body : Expr) : Expr := lambdaOver parameter .bool body

/-- The lambda with a function that shapes rows; other expressions stay as they are. -/
def withShaper (shaper : RowFunction) : Expr → Expr
  | .lambda parameter returns body _ => .lambda parameter returns body (some shaper)
  | e => e

/-- The construction of an anonymous record, one argument for each field. -/
def anonymous (type : TypeRef) (fields : List (String × Expr)) : Expr :=
  .construct type (fields.map (·.1)) (fields.map (·.2))

/-- The record with members found on its type. -/
def recordOf (type : TypeRef) (fields : List (String × Expr)) : Expr :=
  .record type (fields.map fun field => (MemberRef.of type field.1, field.2))

end BoundSql.Expr
