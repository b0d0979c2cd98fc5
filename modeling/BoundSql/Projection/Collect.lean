import BoundSql.Expr.Literal
import BoundSql.Projection.Container
import BoundSql.Text.Blank

set_option autoImplicit false

/-!
# Items of projections

The body of a projection is searched for what it constructs.  A constructor gives one item for
each argument, a record one for each of its plain members, and a dynamic container those of the
containers in it.  Everything else is searched through its parts.
-/

namespace BoundSql.Projection

/-- What a field of a projection shows. -/
def source (rowType : TypeRef) (e : Expr) : Except CompileError Source :=
  match e.asMember? with
  | some ref => if e.isRowMember rowType then .ok (.column ref.name) else ofLiteral
  | none => ofLiteral
where
  /-- The value of a literal, or null. -/
  ofLiteral : Except CompileError Source :=
    (fun value? => match value? with
      | some value => .bound value
      | none => .null) <$> e.resolve

/-- The item of a field with a label. -/
def collectField (rowType : TypeRef) (label : String) (e : Expr) : Collector :=
  Collector.ofResult (source rowType e) fun source => Collector.item ⟨label, source⟩

/-- The item of a plain member of a container: the column that a text names, if it names one. -/
def collectPublicName (e : Expr) : Collector :=
  Collector.ofResult e.resolve fun value? =>
    match value? with
    | some (.text name) =>
      if (Text.trim name.toList).isEmpty then Collector.done else Collector.newItem (.identity name)
    | _ => Collector.done

mutual

/-- The items of the body of a projection. -/
def collect (options : Options) (rowType : TypeRef) : Expr → Collector
  | .const _ | .param _ | .staticMember _ => Collector.done
  | .member target _ => collect options rowType target
  | .binary _ left right => (collect options rowType left).andThen (collect options rowType right)
  | .call _ _ args => collectAll options rowType args
  | .lambda _ _ body _ => collect options rowType body
  | .construct type paramNames args =>
    if args.isEmpty then Collector.done
    else if args.length = paramNames.length then
      Collector.all ((paramNames.zip args).map fun field => collectField rowType field.1 field.2)
    else Collector.fail (.constructorArity type paramNames.length args.length)
  | .record type bindings =>
    if options.isContainer type then collectDynamic options (.record type bindings)
    else collectBindings options rowType bindings
  | .cond test ifTrue ifFalse =>
    (collect options rowType test).andThen
      ((collect options rowType ifTrue).andThen (collect options rowType ifFalse))
termination_by structural e => e

/-- The items of several expressions. -/
def collectAll (options : Options) (rowType : TypeRef) : List Expr → Collector
  | [] => Collector.done
  | e :: es => (collect options rowType e).andThen (collectAll options rowType es)
termination_by structural es => es

/-- The items of the members of a record.  A member with members of its own is searched. -/
def collectBindings (options : Options) (rowType : TypeRef) : List (MemberRef × Expr) → Collector
  | [] => Collector.done
  | (ref, e) :: bindings =>
    Collector.andThen
      (if !ref.type.isBasic true then collect options rowType e
        else if options.isContainer ref.declaring then collectPublicName e
        else collectField rowType ref.name e)
      (collectBindings options rowType bindings)
termination_by structural bs => bs

end

end BoundSql.Projection
