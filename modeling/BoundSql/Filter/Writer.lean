import BoundSql.Filter.Predicate

set_option autoImplicit false

/-!
# Writing clauses

A writer compiles predicates one after another.  It keeps the text of the clause under way and a
list of bound values, to which others may have added before.  Both are written from left to right
while the predicate is judged, so a refusal can find a clause half written; then the text is thrown
away and the values that it bound are taken back.
-/

namespace BoundSql.Filter

/-- The text of the clause under way and the values bound so far. -/
structure Writer where
  text : String
  params : List Value
  deriving Inhabited

/-- Writes on, or stops at a cause of refusal.  What was written before a stop stays written. -/
abbrev Writing : Type := EStateM CompileError Writer Unit

namespace Writing

/-- Adds to the text. -/
def put (piece : String) : Writing := fun w => .ok () { w with text := w.text ++ piece }

/-- Adds a value to the list. -/
def bindValue (value : Value) : Writing := fun w => .ok () { w with params := w.params ++ [value] }

/-- Goes on with what a result says, or stops at its error. -/
def ofResult {α : Type} (result : Except CompileError α) (next : α → Writing) : Writing :=
  match result with
  | .ok a => next a
  | .error e => throw e

end Writing

open Writing

/-- Writes a literal: a placeholder and its value, or null. -/
def writeLiteral (e : Expr) : Writing :=
  ofResult e.resolve fun value? =>
    match value? with
    | some value => do
      put " ? "
      bindValue value
    | none => put nullText

/-- Writes one alternative of a membership. -/
def writeItem (column : String) (item : Value) : Writing := do
  put column
  if item.isNull then
    put (" = " ++ nullText)
  else
    put " = ?"
    bindValue item

/-- Writes the alternatives of a membership with `OR` between neighbours. -/
def writeItems (column : String) : List Value → Writing
  | [] => pure ()
  | [item] => writeItem column item
  | item :: items => do
    writeItem column item
    put " OR "
    writeItems column items

/-- Writes a membership test with these arguments. -/
def writeMembership : List Expr → Writing
  | [list, item] =>
    ofResult (listItems list) fun items =>
      match item.asMember? with
      | some ref => do
        put "("
        writeItems ref.name items
        put ")"
      | none => throw (.containsNotMember item)
  | args => throw (.containsArity args.length)

/-- Writes a column, or stops if there is none. -/
def writeColumn (column : Except CompileError Operand) : Writing :=
  ofResult column fun column => put column.text

/-- Writes the sign of an operator in front of an operand. -/
def writeSign (rowType : TypeRef) (op : BinaryOp) (right : Expr) : Writing :=
  ofResult (connective rowType op right) fun sign => put sign.text

/-- Writes a group. -/
def writeGroup (left sign right : Writing) : Writing := do
  put "("
  left
  sign
  right
  put ")"

/-- Writes an expression as an operand. -/
def write (rowType : TypeRef) : Expr → Writing
  | .const value => writeLiteral (.const value)
  | .param _ => pure ()
  | .member target ref =>
    if ref.declaring.sameType rowType then put ref.name else writeLiteral (.member target ref)
  | .staticMember ref => writeLiteral (.staticMember ref)
  | .binary op left right =>
    match textCompareArgs? left with
    | some (item, value) =>
      writeGroup (writeColumn (comparedColumn item)) (writeSign rowType op right)
        (writeLiteral value)
    | none =>
      writeGroup
        (match left with
          | .cond _ _ ifFalse => writeColumn (fallback ifFalse)
          | _ => write rowType left)
        (writeSign rowType op right) (write rowType right)
  | .call declaring method args =>
    if method = Expr.containsMethod then writeMembership args
    else throw (.untranslatable (.call declaring method args))
  | .lambda _ _ body _ => write rowType body
  | e => throw (.untranslatable e)

namespace Writer

/-- A new writer that shares a list of values. -/
def start (params : List Value) : Writer := ⟨"", params⟩

/-- Compiles a predicate.  Its text is none if it does not return a truth value. -/
def compile (rowType : TypeRef) (w : Writer) (predicate : Expr) :
    Writer × Except CompileError (Option String) :=
  match predicate.asLambda? with
  | none => (w, .error (.filterNotLambda predicate))
  | some f =>
    if f.returns.isBool then
      match write rowType f.body { w with text := "" } with
      | .ok _ written => ({ written with text := "" }, .ok (some written.text))
      | .error e written => (⟨"", written.params.take w.params.length⟩, .error e)
    else (w, .ok none)

/-- Compiles predicates one after another. -/
def compileAll (rowType : TypeRef) (w : Writer) :
    List Expr → Writer × List (Except CompileError (Option String))
  | [] => (w, [])
  | predicate :: predicates =>
    let (next, result) := w.compile rowType predicate
    let (last, results) := next.compileAll rowType predicates
    (last, result :: results)

end Writer

end BoundSql.Filter
