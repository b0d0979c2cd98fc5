import BoundSql.Projection.Collect

set_option autoImplicit false

/-!
# Recording projections

Projections are recorded in two lists that they share with everything compiled before: the selected
columns and the values of their placeholders.  Each field of a projection adds a column, and one
that shows a literal adds its value to the other list.  What was added before an error stays.
-/

namespace BoundSql

/-- The columns and parameters of everything compiled so far. -/
structure Gathered where
  columns : List Column
  params : List Value
  deriving Inhabited

namespace Projection

/-- Adds to the lists, or stops at an error.  What was added before a stop stays added. -/
abbrev Recording : Type := EStateM CompileError Gathered Unit

namespace Recording

/-- Adds a column. -/
def addColumn (column : Column) : Recording := fun g =>
  .ok () { g with columns := g.columns ++ [column] }

/-- Adds the value of a placeholder. -/
def addParam (value : Value) : Recording := fun g =>
  .ok () { g with params := g.params ++ [value] }

/-- Adds a column, unless another has its label already. -/
def addNewColumn (column : Column) : Recording := fun g =>
  if g.columns.any (·.label == column.label) then .ok () g else addColumn column g

/-- Goes on with what a result says, or stops at its error. -/
def ofResult {α : Type} (result : Except CompileError α) (next : α → Recording) : Recording :=
  match result with
  | .ok a => next a
  | .error e => throw e

/-- One after another. -/
def all : List Recording → Recording
  | [] => pure ()
  | r :: rs => do
    r
    all rs

end Recording

open Recording

/-- Records a field with a label. -/
def recordField (rowType : TypeRef) (label : String) (e : Expr) : Recording :=
  ofResult (source rowType e) fun source =>
    match source with
    | .column name => addColumn ⟨label, name⟩
    | .bound value => do
      addParam value
      addColumn ⟨label, "?"⟩
    | .null => addColumn ⟨label, Filter.nullText⟩

/-- Records a plain member of a container: the column that a text names, if it names one. -/
def recordPublicName (e : Expr) : Recording :=
  ofResult e.resolve fun value? =>
    match value? with
    | some (.text name) =>
      if (Text.trim name.toList).isEmpty then pure () else addNewColumn (.identity name)
    | _ => pure ()

/-- Records the pair of a container, unless a column has its public name already. -/
def recordPair (options : Options) (bindings : List (MemberRef × Expr)) : Recording :=
  ofResult (singleBinding bindings "Name") fun name =>
  ofResult (singleBinding bindings "Value") fun value =>
    match publicName? name with
    | none => pure ()
    | some name => fun g =>
      if g.columns.any (·.label == name) then .ok () g
      else addColumn (pairItem options name value).column g

/-- Records an expression if it is a container. -/
def recordContainer (options : Options) : Expr → Recording
  | .record type bindings =>
    if options.isContainer type then recordPair options bindings else pure ()
  | _ => pure ()

/-- Records all containers in a tree, the outermost first. -/
def recordDynamic (options : Options) (e : Expr) : Recording :=
  all (e.preorder.map (recordContainer options))

mutual

/-- Records the body of a projection. -/
def record (options : Options) (rowType : TypeRef) : Expr → Recording
  | .const _ | .param _ | .staticMember _ => pure ()
  | .member target _ => record options rowType target
  | .binary _ left right => do
    record options rowType left
    record options rowType right
  | .call _ _ args => recordAll options rowType args
  | .lambda _ _ body _ => record options rowType body
  | .construct type paramNames args =>
    if args.isEmpty then pure ()
    else if args.length = paramNames.length then
      all ((paramNames.zip args).map fun field => recordField rowType field.1 field.2)
    else throw (.constructorArity type paramNames.length args.length)
  | .record type bindings =>
    if options.isContainer type then recordDynamic options (.record type bindings)
    else recordBindings options rowType bindings
  | .cond test ifTrue ifFalse => do
    record options rowType test
    record options rowType ifTrue
    record options rowType ifFalse
termination_by structural e => e

/-- Records several expressions. -/
def recordAll (options : Options) (rowType : TypeRef) : List Expr → Recording
  | [] => pure ()
  | e :: es => do
    record options rowType e
    recordAll options rowType es
termination_by structural es => es

/-- Records the members of a record.  A member with members of its own is searched. -/
def recordBindings (options : Options) (rowType : TypeRef) : List (MemberRef × Expr) → Recording
  | [] => pure ()
  | (ref, e) :: bindings => do
    (if !ref.type.isBasic true then record options rowType e
      else if options.isContainer ref.declaring then recordPublicName e
      else recordField rowType ref.name e)
    recordBindings options rowType bindings
termination_by structural bs => bs

end

end Projection

end BoundSql
