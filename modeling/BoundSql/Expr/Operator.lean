set_option autoImplicit false

/-!
# Binary operators

The operators of expressions.  Filters understand the comparisons and the logical ones; the
arithmetic ones and the null coalescing one can be written, and filters refuse them by name.
-/

namespace BoundSql

/-- A binary operator. -/
inductive BinaryOp where
  | equal
  | notEqual
  | lessThan
  | lessThanOrEqual
  | greaterThan
  | greaterThanOrEqual
  /-- Bitwise and. -/
  | and
  /-- Bitwise or. -/
  | or
  /-- Logical and. -/
  | andAlso
  /-- Logical or. -/
  | orElse
  | add
  | subtract
  | multiply
  | divide
  | modulo
  /-- The left operand unless it is null. -/
  | coalesce
  deriving DecidableEq, Repr, Inhabited

namespace BinaryOp

/-- The name of an operator in rendered trees and messages. -/
def name : BinaryOp → String
  | .equal => "Equal"
  | .notEqual => "NotEqual"
  | .lessThan => "LessThan"
  | .lessThanOrEqual => "LessThanOrEqual"
  | .greaterThan => "GreaterThan"
  | .greaterThanOrEqual => "GreaterThanOrEqual"
  | .and => "And"
  | .or => "Or"
  | .andAlso => "AndAlso"
  | .orElse => "OrElse"
  | .add => "Add"
  | .subtract => "Subtract"
  | .multiply => "Multiply"
  | .divide => "Divide"
  | .modulo => "Modulo"
  | .coalesce => "Coalesce"

/-- Every operator once. -/
def all : List BinaryOp :=
  [.equal, .notEqual, .lessThan, .lessThanOrEqual, .greaterThan, .greaterThanOrEqual, .and, .or,
    .andAlso, .orElse, .add, .subtract, .multiply, .divide, .modulo, .coalesce]

/-- The operator of that name. -/
def ofName? (text : String) : Option BinaryOp := all.find? (·.name == text)

/-- The sign of an operator in documents. -/
def symbol : BinaryOp → String
  | .equal => "=="
  | .notEqual => "!="
  | .lessThan => "<"
  | .lessThanOrEqual => "<="
  | .greaterThan => ">"
  | .greaterThanOrEqual => ">="
  | .and => "&"
  | .or => "|"
  | .andAlso => "&&"
  | .orElse => "||"
  | .add => "+"
  | .subtract => "-"
  | .multiply => "*"
  | .divide => "/"
  | .modulo => "%"
  | .coalesce => "??"

/-- The operator with that sign. -/
def ofSymbol? (text : String) : Option BinaryOp := all.find? (·.symbol == text)

/-- Is it a test for equality, which becomes `IS` or `IS NOT` beside an absent value? -/
def isEquality : BinaryOp → Bool
  | .equal | .notEqual => true
  | _ => false

/-- Does the result have the type of the left operand? -/
def keepsType : BinaryOp → Bool
  | .add | .subtract | .multiply | .divide | .modulo | .coalesce => true
  | _ => false

end BinaryOp

end BoundSql
