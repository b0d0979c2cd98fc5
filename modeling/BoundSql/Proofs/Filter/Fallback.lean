import BoundSql.Proofs.Expr.Parts
import BoundSql.Proofs.Filter.Groups

set_option autoImplicit false

/-!
# Fallbacks

A conditional on the left of an operator is written as the path of the expression that it falls back
to.  The path is made of all members that are read anywhere in that expression, so it is refused
only where no member is read at all, and an expression that is no chain of members is written as if
it were one.  The main statement is `compile_fallback`.
-/

namespace BoundSql.Filter

open Text Writer

variable {rowType : TypeRef} {op : BinaryOp} {test ifTrue ifFalse right : Expr}

theorem fallback_of_path_eq_nil (h : ifFalse.path = []) :
    Filter.fallback ifFalse = .error (.fallbackNotMember ifFalse) := by
  simp [Filter.fallback, Expr.dottedPath?, h]

theorem fallback_of_path_ne_nil (h : ifFalse.path ≠ []) :
    Filter.fallback ifFalse = .ok (.column (joinWith "." ifFalse.path)) := by
  simp [Filter.fallback, Expr.dottedPath?, h]

/-- The member of a row whose name is a path. -/
def pathColumn (rowType : TypeRef) (names : List String) : Expr :=
  .member (.param ⟨"", rowType⟩) ⟨joinWith "." names, rowType, .object⟩

/-- A conditional whose fallback reads a member is written like a column. -/
theorem operand_cond_of_path_ne_nil (h : ifFalse.path ≠ []) :
    operand rowType (.binary op (.cond test ifTrue ifFalse) right) =
      operand rowType (.binary op (pathColumn rowType ifFalse.path) right) := by
  have hown : rowType.sameType rowType = true := TypeRef.sameType_iff.mpr rfl
  have hcolumn : operand rowType (pathColumn rowType ifFalse.path) =
      .ok (.column (joinWith "." ifFalse.path)) := by
    simp [pathColumn, operand, hown]
  have hleft : leftOperand rowType (.cond test ifTrue ifFalse) =
      leftOperand rowType (pathColumn rowType ifFalse.path) :=
    (fallback_of_path_ne_nil h).trans hcolumn.symm
  rw [operand_binary_of_none rfl, operand_binary_of_none rfl, hleft]

/-- A conditional whose fallback reads no member is refused before anything else. -/
theorem operand_cond_of_path_eq_nil (h : ifFalse.path = []) :
    operand rowType (.binary op (.cond test ifTrue ifFalse) right) =
      .error (.fallbackNotMember ifFalse) := by
  rw [operand_binary_of_none rfl, show leftOperand rowType (.cond test ifTrue ifFalse) = _ from
    fallback_of_path_eq_nil h]
  rfl

/-- A group is written for a conditional on the left only if the fallback reads a member, and then
its path is on the left of the group. -/
theorem IsGroupOf.left_eq_path {b : BinaryParts} {g : GroupParts} (h : IsGroupOf rowType b g)
    (hleft : b.left = .cond test ifTrue ifFalse) :
    ifFalse.path ≠ [] ∧ g.left = .column (joinWith "." ifFalse.path) := by
  have hfallback := h.left (by rw [hleft]; rfl)
  rw [hleft, leftOperand] at hfallback
  by_cases hpath : ifFalse.path = []
  · rw [fallback_of_path_eq_nil hpath] at hfallback
    simp at hfallback
  · rw [fallback_of_path_ne_nil hpath] at hfallback
    exact ⟨hpath, (Except.ok.inj hfallback).symm⟩

/-- How a conditional on the left of an operator is compiled.

* In an accepted predicate every such conditional, at any depth, has a fallback with a path that is
  not empty, and the path is written on the left of its group.
* A predicate that is one operator behind a conditional is refused as malformed if the path of the
  fallback is empty, and the values stay as they are.  Otherwise it is compiled as the same
  operator behind a column with the path as its name.
* The path is empty exactly if no member is read anywhere in the fallback.  The path of a chain of
  members off a parameter is their names in order, and the path of a conditional is made of those of
  all its parts, the last part first. -/
theorem compile_fallback (rowType : TypeRef) (params : List Value) :
    (∀ predicate w text, (start params).compile rowType predicate = (w, .ok (some text)) →
      ∃ (f : Lambda) (o : Operand), predicate.asLambda? = some f ∧
        clause? rowType predicate = .ok (some o) ∧ o.text = text ∧
        List.Forall₂ (fun b g => ∀ test ifTrue ifFalse, b.left = .cond test ifTrue ifFalse →
          ifFalse.path ≠ [] ∧ g.left = .column (joinWith "." ifFalse.path))
          (writtenBinaries f.body) o.groups) ∧
    (∀ p shaper op test ifTrue ifFalse right,
      (ifFalse.path = [] →
        (start params).compile rowType
            (.lambda p .bool (.binary op (.cond test ifTrue ifFalse) right) shaper) =
          (start params, .error (.fallbackNotMember ifFalse)) ∧
        (CompileError.fallbackNotMember ifFalse).kind = .malformedQuery) ∧
      (ifFalse.path ≠ [] →
        (start params).compile rowType
            (.lambda p .bool (.binary op (.cond test ifTrue ifFalse) right) shaper) =
          (start params).compile rowType
            (.lambda p .bool (.binary op (pathColumn rowType ifFalse.path) right) shaper))) ∧
    ∀ ifFalse : Expr,
      (ifFalse.path = [] ↔ ∀ part ∈ ifFalse.preorder, part.asMember? = none) ∧
      (∀ q refs, ifFalse = (Expr.param q).readAll refs → ifFalse.path = refs.map (·.name)) ∧
      ∀ test ifTrue other, ifFalse = .cond test ifTrue other →
        ifFalse.path = other.path ++ (ifTrue.path ++ test.path) := by
  refine ⟨fun predicate w text h => ?_, fun p shaper op test ifTrue ifFalse right => ⟨?_, ?_⟩,
    fun ifFalse => ⟨Expr.path_eq_nil_iff, ?_, ?_⟩⟩
  · obtain ⟨f, o, hlambda, hclause, htext, hgroups⟩ := isGroupOf_of_compile h
    refine ⟨f, o, hlambda, hclause, htext, hgroups.imp fun b g hgroup => ?_⟩
    intro test ifTrue ifFalse hleft
    exact hgroup.left_eq_path hleft
  · intro hpath
    rw [compile_predicate, operand_cond_of_path_eq_nil hpath]
    exact ⟨rfl, rfl⟩
  · intro hpath
    rw [compile_predicate, compile_predicate, operand_cond_of_path_ne_nil hpath]
  · rintro q refs rfl
    simpa [Expr.path, Expr.preorder, Expr.asMember?] using Expr.path_readAll (.param q) refs
  · rintro test ifTrue other rfl
    rw [Expr.path_eq]
    simp [Expr.children, Expr.asMember?]

/-- Rows with a chain of three members. -/
def nestedType : TypeRef :=
  .record "Person" [("A", .record "A" [("B", .record "B" [("C", .string)] [])] [])] []

/-- A row with a chain of three members. -/
def nestedRow : Expr := .param ⟨"x", nestedType⟩

/-- The expression, or null if a path off the row leads to null. -/
def unlessNull (path : String) (e : Expr) : Expr :=
  .cond (.binary .equal (nestedRow.accessPath path) (.const .null)) (.const .null) e

/-- The test that an expression, reached through a member that may be null, is a given text. -/
def guardedTest (e : Expr) : Expr :=
  .predicateOver nestedRow (.binary .equal (unlessNull "A" e) (.const (.text "k")))

/-- A fallback that is guarded once more is accepted, with a path that goes twice through its
members, and a fallback without members is refused. -/
theorem compile_fallback_guardedTest :
    (∃ g : GroupParts,
      (start []).compile nestedType
          (guardedTest (unlessNull "A.B" (nestedRow.accessPath "A.B.C"))) =
        (start [.text "k"], .ok (some "(A.B.C.A.B =  ? )")) ∧
      g.left = .column "A.B.C.A.B") ∧
    (start []).compile nestedType (guardedTest (.const (.text "c"))) =
      (start [], .error (.fallbackNotMember (.const (.text "c")))) := by
  obtain ⟨haccepted, hbehind, -⟩ := compile_fallback nestedType []
  have hcompile : (start []).compile nestedType
      (guardedTest (unlessNull "A.B" (nestedRow.accessPath "A.B.C"))) =
        (start [.text "k"], .ok (some "(A.B.C.A.B =  ? )")) := rfl
  constructor
  · obtain ⟨f, o, hlambda, hclause, -, hall⟩ := haccepted _ _ _ hcompile
    obtain rfl := Option.some.inj hlambda
    obtain rfl := Option.some.inj (Except.ok.inj hclause)
    cases hall with
    | cons hfirst _ => exact ⟨_, hcompile, (hfirst _ _ _ rfl).2⟩
  · exact ((hbehind nestedRow.toParameter none .equal _ _ (.const (.text "c")) _).1 rfl).1

end BoundSql.Filter
