import BoundSql.Expr.Build

set_option autoImplicit false

/-!
# Paths

The path of an expression is the names of all members that it reads, the outermost container
first, so that `x.Info.Address.City` has the path `Info`, `Address`, `City`.
-/

namespace BoundSql.Expr

/-- The names of the members read in an expression, outermost container first. -/
def path (e : Expr) : List String :=
  (e.preorder.filterMap fun part => part.asMember?.map (·.name)).reverse

/-- The path with dots between the names; none for an expression that reads no member. -/
def dottedPath? (e : Expr) : Option String :=
  if e.path.isEmpty then none else some (Text.joinWith "." e.path)

/-- Reading one more member adds its name at the end of the path. -/
theorem path_member (target : Expr) (ref : MemberRef) :
    (Expr.member target ref).path = target.path ++ [ref.name] := by
  simp [path, preorder, asMember?]

end BoundSql.Expr
