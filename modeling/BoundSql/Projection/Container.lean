import BoundSql.Expr.Basic
import BoundSql.Projection.Item
import BoundSql.Query.Options
import BoundSql.Text.Segments

set_option autoImplicit false

/-!
# Dynamic containers

A row can be shaped by a chain of containers that pair a public name with a value, instead of by a
record with fixed members:

    new PairAndNext (Name = "name", Value = $it.Name, Next = new Pair (Name = "city", Value = ..))

Each container anywhere in the tree, the outermost first, yields at most one item.  A public name
that is a label already yields none.
-/

namespace BoundSql.Projection

/-- How many characters of a rendered path belong to the row parameter and its dot, `$it.`. -/
def rowMarkLength : Nat := 4

/-- The rendered path of a member without the row parameter in front. -/
def renderedPath (member : Expr) : String :=
  String.ofList (member.display.toList.drop rowMarkLength)

/-- The only binding of that name. -/
def singleBinding (bindings : List (MemberRef × Expr)) (name : String) : Except CompileError Expr :=
  match bindings.filter (·.1.name == name) with
  | [] => .error (.bindingMissing name)
  | [binding] => .ok binding.2
  | _ => .error (.bindingRepeated name)

/-- The public name of a container, if it is a constant. -/
def publicName? : Expr → Option String
  | .const value => if value.isNull then none else some value.display
  | _ => none

/-- The item of a container with a public name and a value: a member under its own name, the
member that a conditional falls back to under its path, and anything else as a column of the
public name. -/
def pairItem (options : Options) (name : String) (value : Expr) : Item :=
  match value with
  | .member _ ref => .identity ref.name
  | .staticMember ref => .identity ref.name
  | .cond _ _ ifFalse =>
    if ifFalse.asMember?.isSome then
      ⟨Text.replaceDots options.dotSeparator (renderedPath ifFalse), .column (renderedPath ifFalse)⟩
    else .identity name
  | _ => .identity name

/-- The item of one container, unless its public name is a label already. -/
def collectPair (options : Options) (bindings : List (MemberRef × Expr)) : Collector :=
  Collector.ofResult (singleBinding bindings "Name") fun name =>
  Collector.ofResult (singleBinding bindings "Value") fun value =>
    match publicName? name with
    | none => Collector.done
    | some name => fun taken =>
      ⟨if taken.contains name then [] else [pairItem options name value], none⟩

/-- The item of an expression if it is a container. -/
def collectContainer (options : Options) : Expr → Collector
  | .record type bindings =>
    if options.isContainer type then collectPair options bindings else Collector.done
  | _ => Collector.done

/-- The items of all containers in a tree, the outermost first. -/
def collectDynamic (options : Options) (e : Expr) : Collector :=
  Collector.all (e.preorder.map (collectContainer options))

end BoundSql.Projection
