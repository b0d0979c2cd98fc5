import BoundSql.Filter.Writer
import BoundSql.Projection.Recorder

set_option autoImplicit false

/-!
# Gathering columns and parameters

Filters and projections can be compiled one at a time into columns and parameters that are shared by
all of them.  A filter that fails adds nothing.  A projection that fails keeps what it had added.
-/

namespace BoundSql.Gathered

/-- Compiles a filter with a writer of its own.  Its text is none if it is no test of rows. -/
def filter (rowType : TypeRef) (g : Gathered) (predicate : Expr) :
    Gathered × Except CompileError (Option String) :=
  let (w, result) := (Filter.Writer.start g.params).compile rowType predicate
  ({ g with params := w.params }, result)

/-- Compiles several filters one after another with the same writer. -/
def filterAll (rowType : TypeRef) (g : Gathered) (predicates : List Expr) :
    Gathered × List (Except CompileError (Option String)) :=
  let (w, results) := (Filter.Writer.start g.params).compileAll rowType predicates
  ({ g with params := w.params }, results)

/-- Compiles a projection. -/
def project (options : Options) (rowType : TypeRef) (g : Gathered) (projection : Expr) :
    Gathered × Except CompileError Lambda :=
  match projection.asLambda? with
  | none => (g, .error (.projectionNotLambda projection))
  | some f =>
    match Projection.record options rowType f.body g with
    | .ok _ recorded => (recorded, .ok f)
    | .error e recorded => (recorded, .error e)

/-- Compiles several projections one after another. -/
def projectAll (options : Options) (rowType : TypeRef) (g : Gathered) :
    List Expr → Gathered × List (Except CompileError Lambda)
  | [] => (g, [])
  | projection :: projections =>
    let (next, result) := g.project options rowType projection
    let (last, results) := next.projectAll options rowType projections
    (last, result :: results)

end BoundSql.Gathered
