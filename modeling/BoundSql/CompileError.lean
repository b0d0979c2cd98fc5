import BoundSql.Expr.Basic

set_option autoImplicit false

/-!
# Why an expression is refused

The causes for which a filter, a projection or a whole query is refused, the kind of each cause,
and the wording of each.
-/

namespace BoundSql

/-- A cause for which a query is refused. -/
inductive CompileError where
  /-- A chain has a call of an operator without exactly a source and a lambda. -/
  | operatorArity (method : String) (count : Nat)
  | filterNotLambda (argument : Expr)
  | projectionNotLambda (argument : Expr)
  | orderingNotLambda (argument : Expr)
  /-- A conditional is compared whose fallback reads no member. -/
  | fallbackNotMember (fallback : Expr)
  | containsArity (count : Nat)
  | constructorArity (type : TypeRef) (parameters arguments : Nat)
  /-- A dynamic container lacks a binding. -/
  | bindingMissing (name : String)
  /-- A dynamic container has a binding twice. -/
  | bindingRepeated (name : String)
  /-- Nothing is projected and the row type has no properties either. -/
  | noProperties (rowType : TypeRef)
  /-- The first constant of the tree is no query. -/
  | rootNotQuery (kind : String)
  | noRoot
  | unsupportedOperator (op : BinaryOp)
  | noSuchMember (member : String)
  | nullInstance (member : String)
  | notAnObject (member : String) (kind : String)
  | noStaticMember (member : String) (type : TypeRef)
  | untranslatable (e : Expr)
  /-- A text comparison does not begin with a member. -/
  | compareNotMember (argument : Expr)
  | containsOver (kind : String)
  | containsOverNull
  | containsOverEmpty
  | containsNotMember (item : Expr)
  | unknownMethod (method : String)
  | secondSelect
  /-- Rows are to be shaped by a lambda without a row function. -/
  | noRowFunction (projection : Expr)
  deriving Inhabited

namespace CompileError

/-- The kinds of causes. -/
inductive Kind where
  /-- The tree has the wrong shape. -/
  | malformedQuery
  /-- A binary operator has no counterpart. -/
  | unsupportedOperator
  /-- A captured member could not be read. -/
  | memberRead
  /-- The tree is sound, but means something that cannot be said. -/
  | unsupported
  deriving DecidableEq, Repr, Inhabited

/-- The kind of a cause. -/
def kind : CompileError → Kind
  | .operatorArity .. | .filterNotLambda _ | .projectionNotLambda _ | .orderingNotLambda _
  | .fallbackNotMember _ | .containsArity _ | .constructorArity .. | .bindingMissing _
  | .bindingRepeated _ | .noProperties _ | .rootNotQuery _ | .noRoot => .malformedQuery
  | .unsupportedOperator _ => .unsupportedOperator
  | .noSuchMember _ | .nullInstance _ | .notAnObject .. | .noStaticMember .. => .memberRead
  | .untranslatable _ | .compareNotMember _ | .containsOver _ | .containsOverNull
  | .containsOverEmpty | .containsNotMember _ | .unknownMethod _ | .secondSelect
  | .noRowFunction _ => .unsupported

/-- What is wrong, without the words of the kind. -/
def detail : CompileError → String
  | .operatorArity method count =>
    "operator " ++ method ++ " expects a source and a lambda, got " ++ toString count
      ++ " arguments"
  | .filterNotLambda argument => "filter argument is not a lambda: " ++ argument.display
  | .projectionNotLambda argument => "projection is not a lambda: " ++ argument.display
  | .orderingNotLambda argument => "ordering key is not a lambda: " ++ argument.display
  | .fallbackNotMember fallback =>
    "conditional fallback '" ++ fallback.display ++ "' is not a member chain"
  | .containsArity count => "Contains expects two arguments, got " ++ toString count
  | .constructorArity type parameters arguments =>
    "constructor of " ++ type.name ++ " has " ++ toString parameters ++ " parameters but "
      ++ toString arguments ++ " arguments"
  | .bindingMissing name => "dynamic property container has no '" ++ name ++ "' binding"
  | .bindingRepeated name => "dynamic property container has more than one '" ++ name ++ "' binding"
  | .noProperties rowType => "row type " ++ rowType.name ++ " has no public properties to select"
  | .rootNotQuery kind => "the root constant is a " ++ kind ++ ", not a query descriptor"
  | .noRoot => "no root query descriptor found"
  | .unsupportedOperator op => "The binary operator '" ++ op.name ++ "' is not supported"
  | .noSuchMember _ => "no such member on the captured instance"
  | .nullInstance _ => "the captured instance is null"
  | .notAnObject _ kind => "cannot read a member off a " ++ kind
  | .noStaticMember _ type => "no static member on " ++ type.name
  | .untranslatable e => "cannot translate '" ++ e.display ++ "' in a filter"
  | .compareNotMember argument =>
    "String.Compare expects a member as its first argument, got '" ++ argument.display ++ "'"
  | .containsOver kind => "Contains over a " ++ kind ++ " is not supported"
  | .containsOverNull => "Contains over a null list"
  | .containsOverEmpty => "Contains over an empty list"
  | .containsNotMember item => "Contains expects a member, got '" ++ item.display ++ "'"
  | .unknownMethod method => "query operator '" ++ method ++ "' is not supported"
  | .secondSelect => "more than one Select in a single query"
  | .noRowFunction projection => "projection '" ++ projection.display ++ "' carries no row function"

/-- The member that could not be read. -/
def memberName? : CompileError → Option String
  | .noSuchMember member | .nullInstance member | .notAnObject member _
  | .noStaticMember member _ => some member
  | _ => none

/-- The wording of a cause. -/
def message (e : CompileError) : String :=
  match e.kind with
  | .malformedQuery => "The expression is not setup correctly: " ++ e.detail
  | .unsupportedOperator => e.detail
  | .memberRead => "Cannot read member '" ++ e.memberName?.getD "" ++ "': " ++ e.detail
  | .unsupported => "Unsupported expression: " ++ e.detail

end CompileError

end BoundSql
