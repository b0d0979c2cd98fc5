import BoundSql.Expr.Operator
import BoundSql.Value.Display

set_option autoImplicit false

/-!
# Expressions

An expression describes a computation over one row of a dataset, or a chain of query operators
over a whole dataset.  The module holds the tree, its equality, its parts in visiting order, its
display and its static types.
-/

namespace BoundSql

/-- The parameter of a lambda. -/
structure Parameter where
  name : String
  type : TypeRef
  deriving Inhabited

/-- A function that shapes one fetched row.  Its number is its identity: two row functions are the
same when their numbers agree. -/
structure RowFunction where
  id : Nat
  apply : Value → Value

instance : Inhabited RowFunction := ⟨0, id⟩

/-- An expression tree. -/
inductive Expr where
  /-- A literal, or a captured instance. -/
  | const (value : Value)
  | param (parameter : Parameter)
  /-- A member read off an instance. -/
  | member (target : Expr) (ref : MemberRef)
  /-- A static member, read off its type. -/
  | staticMember (ref : MemberRef)
  | binary (op : BinaryOp) (left right : Expr)
  /-- A call in static form, with the instance among the arguments. -/
  | call (declaring : TypeRef) (method : String) (args : List Expr)
  | lambda (parameter : Parameter) (returns : TypeRef) (body : Expr) (shaper : Option RowFunction)
  /-- A record made by assigning members. -/
  | record (type : TypeRef) (bindings : List (MemberRef × Expr))
  /-- A record made by a constructor with positional arguments. -/
  | construct (type : TypeRef) (paramNames : List String) (args : List Expr)
  /-- The second expression if the first holds, else the third. -/
  | cond (test ifTrue ifFalse : Expr)
  deriving Inhabited

/-- A lambda on its own. -/
structure Lambda where
  parameter : Parameter
  returns : TypeRef
  body : Expr
  shaper : Option RowFunction
  deriving Inhabited

/-- The lambda as an expression. -/
def Lambda.toExpr (f : Lambda) : Expr := .lambda f.parameter f.returns f.body f.shaper

namespace Expr

/-- The lambda that an expression is. -/
def asLambda? : Expr → Option Lambda
  | .lambda parameter returns body shaper => some ⟨parameter, returns, body, shaper⟩
  | _ => none

/-- The member that an expression reads. -/
def asMember? : Expr → Option MemberRef
  | .member _ ref => some ref
  | .staticMember ref => some ref
  | _ => none

/-- The value of a constant. -/
def asConst? : Expr → Option Value
  | .const value => some value
  | _ => none

/-- Does the expression read a column, a member that the row type declares off an instance? -/
def isRowMember (rowType : TypeRef) : Expr → Bool
  | .member _ ref => ref.declaring.sameType rowType
  | _ => false

/-! ## Parts -/

/-- The direct parts of an expression in visiting order. -/
def children : Expr → List Expr
  | .const _ | .param _ | .staticMember _ => []
  | .member target _ => [target]
  | .binary _ left right => [left, right]
  | .call _ _ args => args
  | .lambda _ _ body _ => [body]
  | .record _ bindings => bindings.map (·.2)
  | .construct _ _ args => args
  | .cond test ifTrue ifFalse => [test, ifTrue, ifFalse]

mutual

/-- The expression and all of its parts, each before its own parts. -/
def preorder : Expr → List Expr
  | .const value => [.const value]
  | .param parameter => [.param parameter]
  | .member target ref => .member target ref :: target.preorder
  | .staticMember ref => [.staticMember ref]
  | .binary op left right => .binary op left right :: (left.preorder ++ right.preorder)
  | .call declaring method args => .call declaring method args :: preorderAll args
  | .lambda parameter returns body shaper => .lambda parameter returns body shaper :: body.preorder
  | .record type bindings => .record type bindings :: preorderBindings bindings
  | .construct type paramNames args => .construct type paramNames args :: preorderAll args
  | .cond test ifTrue ifFalse =>
    .cond test ifTrue ifFalse :: (test.preorder ++ ifTrue.preorder ++ ifFalse.preorder)
termination_by structural e => e

/-- The parts of several expressions, one expression after another. -/
def preorderAll : List Expr → List Expr
  | [] => []
  | e :: es => e.preorder ++ preorderAll es
termination_by structural es => es

/-- The parts of the bound expressions, one binding after another. -/
def preorderBindings : List (MemberRef × Expr) → List Expr
  | [] => []
  | (_, e) :: bindings => e.preorder ++ preorderBindings bindings
termination_by structural bs => bs

end

theorem preorderAll_eq_flatMap (es : List Expr) : preorderAll es = es.flatMap preorder := by
  induction es with
  | nil => rfl
  | cons e es ih => simp [preorderAll, ih]

theorem preorderBindings_eq_flatMap (bindings : List (MemberRef × Expr)) :
    preorderBindings bindings = bindings.flatMap fun binding => binding.2.preorder := by
  induction bindings with
  | nil => rfl
  | cons b bs ih => obtain ⟨m, e⟩ := b; simp [preorderBindings, ih]

/-- The visiting order is the expression and then the visits of its direct parts. -/
theorem preorder_eq (e : Expr) : e.preorder = e :: e.children.flatMap preorder := by
  cases e <;>
    simp [preorder, children, preorderAll_eq_flatMap, preorderBindings_eq_flatMap, List.flatMap_map]

/-! ## Equality -/

mutual

/-- Equality by structure, with the equality of values on constants and identity on row functions.
-/
def beq : Expr → Expr → Bool
  | .const v, .const w => v == w
  | .param p, .param q => p.name == q.name && p.type == q.type
  | .member t m, .member u n => t.beq u && m == n
  | .staticMember m, .staticMember n => m == n
  | .binary o l r, .binary p l' r' => o == p && l.beq l' && r.beq r'
  | .call t m as, .call u n bs => t == u && m == n && beqAll as bs
  | .lambda p t b f, .lambda q u c g =>
    p.name == q.name && p.type == q.type && t == u && b.beq c && f.map (·.id) == g.map (·.id)
  | .record t bs, .record u cs => t == u && beqBindings bs cs
  | .construct t ns as, .construct u ms bs => t == u && ns == ms && beqAll as bs
  | .cond t a b, .cond u c d => t.beq u && a.beq c && b.beq d
  | _, _ => false
termination_by structural e => e

/-- Equality of expressions one by one. -/
def beqAll : List Expr → List Expr → Bool
  | [], [] => true
  | a :: as, b :: bs => a.beq b && beqAll as bs
  | _, _ => false
termination_by structural es => es

/-- Equality of bindings one by one. -/
def beqBindings : List (MemberRef × Expr) → List (MemberRef × Expr) → Bool
  | [], [] => true
  | (m, a) :: as, (n, b) :: bs => m == n && a.beq b && beqBindings as bs
  | _, _ => false
termination_by structural bs => bs

end

instance : BEq Expr := ⟨beq⟩

/-! ## Display -/

mutual

/-- The text of an expression in messages. -/
def display : Expr → String
  | .const value => value.display
  | .param parameter => parameter.name
  | .member target ref => target.display ++ "." ++ ref.name
  | .staticMember ref => ref.declaring.name ++ "." ++ ref.name
  | .binary op left right => "(" ++ left.display ++ " " ++ op.name ++ " " ++ right.display ++ ")"
  | .call declaring method args => declaring.name ++ "." ++ method ++ "(" ++ displayArgs args ++ ")"
  | .lambda parameter _ body _ => parameter.name ++ " => " ++ body.display
  | .record type bindings => "new " ++ type.name ++ " \x7b" ++ displayBindings bindings ++ " \x7d"
  | .construct type paramNames args =>
    "new " ++ type.name ++ "(" ++ displayNamed paramNames args ++ ")"
  | .cond test ifTrue ifFalse =>
    "IIF(" ++ test.display ++ ", " ++ ifTrue.display ++ ", " ++ ifFalse.display ++ ")"
termination_by structural e => e

/-- The texts of arguments divided by commas. -/
def displayArgs : List Expr → String
  | [] => ""
  | [arg] => arg.display
  | arg :: args => arg.display ++ ", " ++ displayArgs args
termination_by structural es => es

/-- The texts of assignments divided by commas. -/
def displayBindings : List (MemberRef × Expr) → String
  | [] => ""
  | [(ref, e)] => " " ++ ref.name ++ " = " ++ e.display
  | (ref, e) :: bindings => " " ++ ref.name ++ " = " ++ e.display ++ "," ++ displayBindings bindings
termination_by structural bs => bs

/-- The texts of arguments under their names, as far as both go. -/
def displayNamed (names : List String) : List Expr → String
  | [] => ""
  | arg :: args =>
    match names with
    | [] => ""
    | [name] => name ++ " = " ++ arg.display
    | name :: names =>
      name ++ " = " ++ arg.display ++ (if args.isEmpty then "" else ", ") ++ displayNamed names args
termination_by structural es => es

end

/-! ## Static types -/

/-- The method that compares two texts. -/
abbrev compareMethod : String := "Compare"

/-- The method that tests membership in a list. -/
abbrev containsMethod : String := "Contains"

/-- The static type of an expression, as far as it is known. -/
def typeOf : Expr → TypeRef
  | .const value => value.typeRef
  | .param parameter => parameter.type
  | .member _ ref => ref.type
  | .staticMember ref => ref.type
  | .binary op left _ => if op.keepsType then left.typeOf else .bool
  | .call _ method _ =>
    if method = containsMethod then .bool
    else if method = compareMethod then .scalar .int
    else .object
  | .lambda _ returns _ _ => returns
  | .record type _ => type
  | .construct type _ _ => type
  | .cond _ ifTrue _ => ifTrue.typeOf

end Expr

end BoundSql
