import BoundSql.CompileError
import BoundSql.Query.Operator

set_option autoImplicit false

/-!
# The root of a chain

A chain is rooted in a constant that holds a query.  It is looked up as the first constant of the
tree in visiting order.
-/

namespace BoundSql.Expr

/-- The first constant of a tree in visiting order. -/
def firstConst? (e : Expr) : Option Value := e.preorder.findSome? asConst?

/-- The query in which a chain is rooted. -/
def root (e : Expr) : Except CompileError Descriptor :=
  match e.firstConst? with
  | some (.query dataset element) => .ok ⟨dataset, element⟩
  | some value => .error (.rootNotQuery value.kind)
  | none => .error .noRoot

/-- An operator does not hide the root of the chain to which it is applied. -/
theorem firstConst?_apply {source : Expr} {v : Value} (h : source.firstConst? = some v)
    (op : QueryOperator) (argument : Expr) : (source.apply op argument).firstConst? = some v := by
  simp only [firstConst?] at h
  simp [firstConst?, apply, preorder, preorderAll, asConst?, List.findSome?_cons, h]

theorem firstConst?_applyAll {source : Expr} {v : Value} (h : source.firstConst? = some v)
    (operators : List (QueryOperator × Expr)) :
    (source.applyAll operators).firstConst? = some v := by
  induction operators generalizing source with
  | nil => exact h
  | cons operator operators ih => exact ih (firstConst?_apply h operator.1 operator.2)

/-- A chain of operators is rooted in the query from which it starts. -/
theorem root_applyAll (d : Descriptor) (operators : List (QueryOperator × Expr)) :
    ((ofDescriptor d).applyAll operators).root = .ok d := by
  have hstart : (ofDescriptor d).firstConst? = some (.query d.dataset d.element) := rfl
  simp [root, firstConst?_applyAll hstart]

end BoundSql.Expr
