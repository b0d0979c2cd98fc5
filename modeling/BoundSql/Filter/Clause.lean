import BoundSql.Text.Segments
import BoundSql.Value.Basic

set_option autoImplicit false

/-!
# Clauses

A clause is the meaning of a predicate as SQL can say it: a tree of operands in which every group
keeps its parentheses and every literal is a placeholder.  The text of a clause and the list of
values that its placeholders stand for are two views of the same tree, taken in the same order.
-/

namespace BoundSql.Filter

/-- The sign between the two sides of a group. -/
inductive Connective where
  | equal
  | notEqual
  | lessThan
  | lessThanOrEqual
  | greaterThan
  | greaterThanOrEqual
  | bitAnd
  | bitOr
  | and
  | or
  /-- Equal to an absent value. -/
  | is
  /-- Not equal to an absent value. -/
  | isNot
  deriving DecidableEq, Repr, Inhabited

/-- The sign with the blanks around it. -/
def Connective.text : Connective → String
  | .equal => " = "
  | .notEqual => " <> "
  | .lessThan => " < "
  | .lessThanOrEqual => " <= "
  | .greaterThan => " > "
  | .greaterThanOrEqual => " >= "
  | .bitAnd => " & "
  | .bitOr => " | "
  | .and => " AND "
  | .or => " OR "
  | .is => " IS "
  | .isNot => " IS NOT "

/-- One side of a group, or a whole clause. -/
inductive Operand where
  /-- A column, or the dotted path to one. -/
  | column (name : String)
  /-- A placeholder and the value that it stands for. -/
  | bound (value : Value)
  | null
  /-- The row itself, which has no text. -/
  | blank
  | group (left : Operand) (connective : Connective) (right : Operand)
  /-- The column equals one of the items. -/
  | membership (column : String) (items : List Value)
  deriving Inhabited

/-- The text of null. -/
def nullText : String := "NULL"

/-- One alternative of a membership: null is written out, and any other item is a placeholder. -/
def itemText (column : String) (item : Value) : String :=
  if item.isNull then column ++ " = " ++ nullText else column ++ " = ?"

namespace Operand

/-- The text of an operand. -/
def text : Operand → String
  | .column name => name
  | .bound _ => " ? "
  | .null => nullText
  | .blank => ""
  | .group left connective right => "(" ++ left.text ++ connective.text ++ right.text ++ ")"
  | .membership name items => "(" ++ Text.joinWith " OR " (items.map (itemText name)) ++ ")"

/-- The values of the placeholders in the order in which these are written. -/
def values : Operand → List Value
  | .column _ => []
  | .bound value => [value]
  | .null => []
  | .blank => []
  | .group left _ right => left.values ++ right.values
  | .membership _ items => items.filter (!·.isNull)

end Operand

end BoundSql.Filter
