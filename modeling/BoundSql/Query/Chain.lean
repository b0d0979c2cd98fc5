import BoundSql.CompileError
import BoundSql.Query.Operator

set_option autoImplicit false

/-!
# The steps of a chain

A chain is a nest of calls on the type that declares the query operators.  Its steps are read from
the outside, where each call must have a source and an argument, and are listed in the order in
which they apply, from the inside.  Anything but such a call ends the chain.
-/

namespace BoundSql.Query

/-- A call of a query operator in a chain. -/
structure Step where
  method : String
  argument : Expr
  deriving Inhabited

/-- The step that an operator and its argument give. -/
def Step.ofOperator (operator : QueryOperator × Expr) : Step := ⟨operator.1.method, operator.2⟩

/-- The steps of a chain in front of the `later` ones. -/
def stepsBefore (later : List Step) : Expr → Except CompileError (List Step)
  | .call declaring method args =>
    if declaring.isQueryable then
      match args with
      | [source, argument] => stepsBefore (⟨method, argument⟩ :: later) source
      | _ => .error (.operatorArity method args.length)
    else .ok later
  | _ => .ok later
termination_by structural e => e

/-- The steps of a chain in the order in which they apply. -/
def steps (chain : Expr) : Except CompileError (List Step) := stepsBefore [] chain

theorem stepsBefore_apply (source argument : Expr) (op : QueryOperator) (later : List Step) :
    stepsBefore later (source.apply op argument)
      = stepsBefore (⟨op.method, argument⟩ :: later) source := by
  simp [Expr.apply, stepsBefore, TypeRef.isQueryable]

theorem stepsBefore_applyAll (source : Expr) (operators : List (QueryOperator × Expr))
    (later : List Step) :
    stepsBefore later (source.applyAll operators)
      = stepsBefore (operators.map Step.ofOperator ++ later) source := by
  induction operators generalizing source with
  | nil => rfl
  | cons operator operators ih =>
    have := ih (source.apply operator.1 operator.2)
    simpa [Expr.applyAll, stepsBefore_apply, Step.ofOperator] using this

/-- The steps of a chain over a dataset are its operators. -/
theorem steps_applyAll (d : Descriptor) (operators : List (QueryOperator × Expr)) :
    steps ((Expr.ofDescriptor d).applyAll operators)
      = .ok (operators.map Step.ofOperator) := by
  simp [steps, stepsBefore_applyAll, Expr.ofDescriptor, stepsBefore]

end BoundSql.Query
