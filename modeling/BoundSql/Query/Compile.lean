import BoundSql.Filter.Predicate
import BoundSql.Projection.Collect
import BoundSql.Query.Chain
import BoundSql.Query.Root
import BoundSql.Query.Statement

set_option autoImplicit false

/-!
# Compiling chains

The steps of a chain are taken in the order in which they apply.  Filters add their clauses, one
projection sets the selected items, and ordering operators build the list of keys.  Without a
projected item every property of the row type is selected under its own name.
-/

namespace BoundSql.Query

/-- What the steps so far have given. -/
structure Progress where
  projection : Option (Lambda × List Projection.Item)
  filters : List Filter.Operand
  order : List OrderKey
  deriving Inhabited

namespace Progress

/-- Before the first step. -/
def start : Progress := ⟨none, [], []⟩

/-- Adds the clause of a filter, if it has one. -/
def addFilter (rowType : TypeRef) (predicate : Expr) (p : Progress) :
    Except CompileError Progress := do
  let clause? ← Filter.clause? rowType predicate
  return { p with filters := p.filters ++ clause?.toList }

/-- Sets the projection, of which there may be one. -/
def setProjection (options : Options) (rowType : TypeRef) (projection : Expr) (p : Progress) :
    Except CompileError Progress :=
  match p.projection, projection.asLambda? with
  | some _, _ => .error .secondSelect
  | none, none => .error (.projectionNotLambda projection)
  | none, some f =>
    let collected := Projection.collect options rowType f.body []
    match collected.error with
    | some e => .error e
    | none => .ok { p with projection := some (f, collected.items) }

/-- The column that a key orders by: a column of the row, or the path that a conditional falls
back to. Other keys order by nothing. -/
def orderColumn? (rowType : TypeRef) : Expr → Option String
  | .member _ ref => if ref.declaring.sameType rowType then some ref.name else none
  | .cond _ _ ifFalse => ifFalse.dottedPath?
  | _ => none

/-- Adds a key to the ordering, if it orders by a column. -/
def addOrder (options : Options) (rowType : TypeRef) (key : Expr) (descending : Bool)
    (p : Progress) : Except CompileError Progress :=
  if options.ordering then
    match key.asLambda? with
    | none => .error (.orderingNotLambda key)
    | some f =>
      let key? := (orderColumn? rowType f.body).map fun column => (⟨column, descending⟩ : OrderKey)
      .ok { p with order := p.order ++ key?.toList }
  else .ok p

/-- What a step gives on top of those before it. -/
def step (options : Options) (rowType : TypeRef) (p : Progress) (s : Step) :
    Except CompileError Progress :=
  match QueryOperator.ofMethod? s.method with
  | some .filter => p.addFilter rowType s.argument
  | some .select => p.setProjection options rowType s.argument
  | some (.orderBy descending) =>
    { p with order := [] }.addOrder options rowType s.argument descending
  | some (.thenBy descending) => p.addOrder options rowType s.argument descending
  | none => .error (.unknownMethod s.method)

/-- The selected items: those of the projection, or else the properties of the row type. -/
def items (rowType : TypeRef) (p : Progress) : List Projection.Item :=
  match p.projection with
  | some (_, item :: items) => item :: items
  | _ => rowType.propertyNames.map Projection.Item.identity

/-- The statement, which must select something. -/
def finish (d : Descriptor) (p : Progress) : Except CompileError Statement :=
  match p.items d.element with
  | [] => .error (.noProperties d.element)
  | items => .ok ⟨d.dataset, items, p.filters, p.order, p.projection.map (·.1)⟩

end Progress

/-- Compiles a chain as a query of the given dataset. -/
def compileFor (options : Options) (chain : Expr) (d : Descriptor) :
    Except CompileError Statement := do
  let progress ← (← steps chain).foldlM (Progress.step options d.element) Progress.start
  progress.finish d

/-- Compiles a chain as a query of the dataset in which it is rooted. -/
def compile (options : Options) (chain : Expr) : Except CompileError Statement := do
  compileFor options chain (← chain.root)

end BoundSql.Query
