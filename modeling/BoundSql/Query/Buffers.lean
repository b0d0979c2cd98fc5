import BoundSql.Query.Compile
import BoundSql.Query.Gathered

set_option autoImplicit false

/-!
# Compiling chains into buffers

A chain can be compiled in one pass that keeps no clauses and no items, but only what is handed over
in the end: the texts of the clauses, the columns, the keys, and the values of the placeholders.
The steps are taken while the chain is searched, each after its source.  Filters share one list of
values and the projection fills another; the two lists meet when the text is put together.
-/

namespace BoundSql.Query

/-- A compiled query as it is handed over. -/
structure Written where
  sql : String
  params : List Value
  columns : List Column
  dataset : String
  projection : Option Lambda
  deriving Inhabited

/-- The buffers of a compilation. -/
structure Buffers where
  /-- The columns of the projection and the values of their placeholders. -/
  selected : Gathered
  projection : Option Lambda
  /-- The texts of the clauses. -/
  clauses : List String
  /-- The values that the clauses bind. -/
  bound : List Value
  order : List OrderKey
  deriving Inhabited

namespace Buffers

/-- Before the first step. -/
def start : Buffers := ⟨⟨[], []⟩, none, [], [], []⟩

/-- Writes a filter, which binds its values behind those of the filters before it. -/
def addFilter (rowType : TypeRef) (predicate : Expr) (b : Buffers) : Except CompileError Buffers :=
  let (w, result) := (Filter.Writer.start b.bound).compile rowType predicate
  (fun text? => { b with clauses := b.clauses ++ text?.toList, bound := w.params }) <$> result

/-- Records the projection, of which there may be one. -/
def setProjection (options : Options) (rowType : TypeRef) (projection : Expr) (b : Buffers) :
    Except CompileError Buffers :=
  if b.projection.isSome then .error .secondSelect
  else
    let (selected, result) := b.selected.project options rowType projection
    (fun f => { b with selected := selected, projection := some f }) <$> result

/-- Adds a key to the ordering, if it orders by a column. -/
def addOrder (options : Options) (rowType : TypeRef) (key : Expr) (descending : Bool)
    (b : Buffers) : Except CompileError Buffers :=
  if options.ordering then
    match key.asLambda? with
    | none => .error (.orderingNotLambda key)
    | some f =>
      match Progress.orderColumn? rowType f.body with
      | some column => .ok { b with order := b.order ++ [⟨column, descending⟩] }
      | none => .ok b
  else .ok b

/-- What a step adds to the buffers. -/
def step (options : Options) (rowType : TypeRef) (b : Buffers) (s : Step) :
    Except CompileError Buffers :=
  match QueryOperator.ofMethod? s.method with
  | some .filter => b.addFilter rowType s.argument
  | some .select => b.setProjection options rowType s.argument
  | some (.orderBy descending) =>
    { b with order := [] }.addOrder options rowType s.argument descending
  | some (.thenBy descending) => b.addOrder options rowType s.argument descending
  | none => .error (.unknownMethod s.method)

/-- Takes the steps of a chain, those of the source of a call before the call itself. -/
def visit (options : Options) (rowType : TypeRef) (b : Buffers) : Expr → Except CompileError Buffers
  | .call declaring method args =>
    if declaring.isQueryable then
      match args with
      | [source, argument] => do
        let before ← visit options rowType b source
        before.step options rowType ⟨method, argument⟩
      | _ => .error (.operatorArity method args.length)
    else .ok b
  | _ => .ok b
termination_by structural e => e

/-- The columns to select: those of the projection, or else the properties of the row type. -/
def columns (rowType : TypeRef) (b : Buffers) : List Column :=
  if b.selected.columns.isEmpty then rowType.propertyNames.map Column.identity
  else b.selected.columns

/-- The condition, empty without clauses. -/
def whereText (b : Buffers) : String :=
  if b.clauses.isEmpty then "" else " WHERE " ++ Text.joinWith " AND " b.clauses

/-- The ordering, empty without keys and where none is to be written. -/
def orderText (options : Options) (b : Buffers) : String :=
  if options.ordering && !b.order.isEmpty then
    " ORDER BY " ++ Text.joinWith ", " (b.order.map OrderKey.text)
  else ""

/-- What is handed over, for which something must be selected. -/
def finish (options : Options) (d : Descriptor) (b : Buffers) : Except CompileError Written :=
  let columns := b.columns d.element
  let select := "SELECT " ++ Text.joinWith ", " (columns.map Column.text) ++ " FROM " ++ d.dataset
  if columns.isEmpty then .error (.noProperties d.element)
  else
    .ok ⟨select ++ b.whereText ++ b.orderText options, b.selected.params ++ b.bound, columns,
      d.dataset, b.projection⟩

end Buffers

/-- Compiles a chain into buffers as a query of the given dataset. -/
def write (options : Options) (chain : Expr) (d : Descriptor) : Except CompileError Written := do
  let b ← Buffers.start.visit options d.element chain
  b.finish options d

end BoundSql.Query
