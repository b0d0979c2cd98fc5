import BoundSql.Expr.Path
import BoundSql.Expr.Literal
import BoundSql.Filter.Clause

set_option autoImplicit false

/-!
# Clauses of predicates

A predicate over rows of a type becomes a clause.  Columns are the members that the row type
declares, literals become placeholders, and every binary expression becomes a group of its own, so
that the shape of the predicate is kept.  A part that cannot be said is an error; the parts are
judged from left to right, an operator after its left side and before its right side.
-/

namespace BoundSql.Filter

/-- The operand of a value to be bound, or of none. -/
def Operand.ofValue? : Option Value → Operand
  | some value => .bound value
  | none => .null

/-- The operand of a literal. -/
def literal (e : Expr) : Except CompileError Operand := Operand.ofValue? <$> e.resolve

/-- Is it neither a column nor a literal with a value, so that a test for equality with it is a test
for absence? -/
def isAbsent (rowType : TypeRef) (e : Expr) : Except CompileError Bool :=
  if e.isRowMember rowType then .ok false else Option.isNone <$> e.resolve

/-- The sign of an operator in front of an operand. -/
def connective (rowType : TypeRef) (op : BinaryOp) (right : Expr) :
    Except CompileError Connective :=
  match op with
  | .equal => (fun absent => if absent then .is else .equal) <$> isAbsent rowType right
  | .notEqual => (fun absent => if absent then .isNot else .notEqual) <$> isAbsent rowType right
  | .lessThan => .ok .lessThan
  | .lessThanOrEqual => .ok .lessThanOrEqual
  | .greaterThan => .ok .greaterThan
  | .greaterThanOrEqual => .ok .greaterThanOrEqual
  | .and => .ok .bitAnd
  | .or => .ok .bitOr
  | .andAlso => .ok .and
  | .orElse => .ok .or
  | .add | .subtract | .multiply | .divide | .modulo | .coalesce => .error (.unsupportedOperator op)

/-- The items of a list literal to be searched. -/
def listItems (list : Expr) : Except CompileError (List Value) := do
  match ← list.resolve with
  | some (.array []) => .error .containsOverEmpty
  | some (.array items) => .ok items
  | some value => .error (.containsOver value.kind)
  | none => .error .containsOverNull

/-- The operand of a membership test with these arguments. -/
def membership : List Expr → Except CompileError Operand
  | [list, item] => do
    let items ← listItems list
    match item.asMember? with
    | some ref => .ok (.membership ref.name items)
    | none => .error (.containsNotMember item)
  | args => .error (.containsArity args.length)

/-- The two texts that an expression compares. -/
def textCompareArgs? : Expr → Option (Expr × Expr)
  | .call declaring method [left, right] =>
    if method = Expr.compareMethod ∧ declaring.isString then some (left, right) else none
  | _ => none

/-- The column of a text comparison. -/
def comparedColumn (e : Expr) : Except CompileError Operand :=
  match e.asMember? with
  | some ref => .ok (.column ref.name)
  | none => .error (.compareNotMember e)

/-- The operand of a conditional: the path of the value that it falls back to. -/
def fallback (ifFalse : Expr) : Except CompileError Operand :=
  match ifFalse.dottedPath? with
  | some path => .ok (.column path)
  | none => .error (.fallbackNotMember ifFalse)

/-- The operand of an expression. -/
def operand (rowType : TypeRef) : Expr → Except CompileError Operand
  | .const value => literal (.const value)
  | .param _ => .ok .blank
  | .member target ref =>
    if ref.declaring.sameType rowType then .ok (.column ref.name) else literal (.member target ref)
  | .staticMember ref => literal (.staticMember ref)
  | .binary op left right =>
    match textCompareArgs? left with
    | some (item, value) => do
      let column ← comparedColumn item
      let sign ← connective rowType op right
      return .group column sign (← literal value)
    | none => do
      let first ←
        match left with
        | .cond _ _ ifFalse => fallback ifFalse
        | _ => operand rowType left
      let sign ← connective rowType op right
      return .group first sign (← operand rowType right)
  | .call declaring method args =>
    if method = Expr.containsMethod then membership args
    else .error (.untranslatable (.call declaring method args))
  | .lambda _ _ body _ => operand rowType body
  | e => .error (.untranslatable e)

/-- The clause of a predicate.  A lambda that does not return a truth value has none: it is
skipped. -/
def clause? (rowType : TypeRef) (predicate : Expr) : Except CompileError (Option Operand) :=
  match predicate.asLambda? with
  | none => .error (.filterNotLambda predicate)
  | some f => if f.returns.isBool then some <$> operand rowType f.body else .ok none

end BoundSql.Filter
