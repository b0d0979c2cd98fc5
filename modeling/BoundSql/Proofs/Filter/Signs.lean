import BoundSql.Proofs.Filter.Groups
import BoundSql.Proofs.Filter.Shape

set_option autoImplicit false

/-!
# Signs of equality tests

A test for equality is written with `IS` or `IS NOT` where its right side counts as absent, which is
decided before that side is written.  What counts as absent and what is written as `NULL` are the
same for columns and literals only: anything else counts as absent, whatever it is written as.  The
main statement is `testsEquality_of_compile`.
-/

namespace BoundSql.Filter

variable {rowType : TypeRef} {op : BinaryOp} {e left right : Expr} {o second : Operand}
  {sign : Connective}

/-! ## Absent operands -/

/-- A literal counts as absent exactly when it has no value. -/
theorem isAbsent_of_resolve {value? : Option Value} (foreign : e.isRowMember rowType = false)
    (resolved : e.resolve = .ok value?) : isAbsent rowType e = .ok value?.isNone := by
  simp [isAbsent, foreign, resolved, Functor.map, Except.map]

/-- What is neither a column nor a literal counts as absent. -/
theorem isAbsent_of_not_literal (form : isLiteralForm e = false) :
    isAbsent rowType e = .ok true := by
  cases e with
  | const _ | member _ _ | staticMember _ => simp [isLiteralForm] at form
  | _ => rfl

/-- The sign of an operator is known from what the right side counts as, which matters to tests for
equality only. -/
theorem connective_eq_ok_iff :
    connective rowType op right = .ok sign ↔ ∃ absent,
      (op.isEquality = true → isAbsent rowType right = .ok absent) ∧
        sign? op absent = some sign := by
  cases op with
  | equal | notEqual => simp [connective, sign?, BinaryOp.isEquality, map_eq_ok_iff]
  | _ => simp [connective, sign?, BinaryOp.isEquality]

/-- A column or a literal counts as absent exactly when it is written as null. -/
theorem isAbsent_iff_text_eq_null (form : isLiteralForm e = true) (h : Reads rowType e o)
    (named : ∀ ref, e.asMember? = some ref → ref.name ≠ nullText) :
    ∃ absent, isAbsent rowType e = .ok absent ∧ (absent = true ↔ o.text = nullText) := by
  cases h with
  | @column target ref own =>
      refine ⟨false, by simp [isAbsent, Expr.isRowMember, own], ?_⟩
      simpa [Operand.text] using named ref rfl
  | @literal e value? _ foreign resolved =>
      refine ⟨value?.isNone, isAbsent_of_resolve foreign resolved, ?_⟩
      cases value? <;> simp [Operand.ofValue?, Operand.text, nullText]
  | row | textCompare _ _ _ _ | fallback _ _ _ | binary _ _ _ _ | membership _ _ | lambda _ =>
      simp [isLiteralForm] at form

/-- Apart from lambdas, which are written as their bodies, what is neither a column nor a literal is
never written as null. -/
theorem text_ne_null_of_not_literal (form : isLiteralForm e = false)
    (plain : e.asLambda? = none) (h : Reads rowType e o) : o.text ≠ nullText := by
  have hgroup (inner : String) : "(" ++ inner ++ ")" ≠ nullText := by
    intro heq
    simpa [nullText] using congrArg String.toList heq
  cases h with
  | column _ => simp [isLiteralForm] at form
  | literal form' _ _ => simp [form] at form'
  | row => simp [Operand.text, nullText]
  | textCompare _ _ _ _ | fallback _ _ _ | binary _ _ _ _ =>
      intro heq
      simpa [Operand.text, nullText] using congrArg String.toList heq
  | membership _ _ => exact hgroup _
  | lambda _ => simp [Expr.asLambda?] at plain

/-! ## Tests for equality -/

/-- How a test for equality is written.

* Its right side is written on the right, after the sign for an absent side or the sign for one that
  is not.
* In front of a column or a literal, the first sign is chosen exactly if `NULL` is written.
* In front of anything else the first sign is chosen too, although only a lambda can be written as
  `NULL` there. -/
structure TestsEquality (rowType : TypeRef) (b : BinaryParts) (g : GroupParts) : Prop where
  reads : Reads rowType b.right g.right
  sign_eq : sign? b.op true = some g.sign ∨ sign? b.op false = some g.sign
  literal : isLiteralForm b.right = true →
    (∀ ref, b.right.asMember? = some ref → ref.name ≠ nullText) →
      (sign? b.op true = some g.sign ↔ g.right.text = nullText)
  other : isLiteralForm b.right = false → sign? b.op true = some g.sign ∧
    (b.right.asLambda? = none → g.right.text ≠ nullText)

/-- The two signs of a test for equality differ. -/
theorem eq_of_sign?_eq {absent absent' : Bool} (equality : op.isEquality = true)
    (h : sign? op absent = some sign) (h' : sign? op absent' = some sign) : absent = absent' := by
  cases op with
  | equal | notEqual =>
      cases absent <;> cases absent' <;> simp [sign?] at h h' ⊢ <;> simp [← h] at h'
  | _ => simp [BinaryOp.isEquality] at equality

theorem testsEquality_of_isGroupOf {b : BinaryParts} {g : GroupParts} (h : IsGroupOf rowType b g)
    (equality : b.op.isEquality = true) (plain : textCompareArgs? b.left = none) :
    TestsEquality rowType b g := by
  have hreads := h.reads plain
  obtain ⟨absent, habsent, hsign⟩ := connective_eq_ok_iff.mp h.signed
  replace habsent := habsent equality
  refine ⟨hreads, ?_, fun form named => ?_, fun form => ?_⟩
  · cases absent with
    | true => exact .inl hsign
    | false => exact .inr hsign
  · obtain ⟨absent', habsent', hnull⟩ := isAbsent_iff_text_eq_null form hreads named
    obtain rfl : absent = absent' := Except.ok.inj (habsent.symm.trans habsent')
    rw [← hnull]
    exact ⟨fun htrue => eq_of_sign?_eq equality hsign htrue, fun htrue => htrue ▸ hsign⟩
  · obtain rfl : absent = true :=
      Except.ok.inj (habsent.symm.trans (isAbsent_of_not_literal form))
    exact ⟨hsign, fun hlambda => text_ne_null_of_not_literal form hlambda hreads⟩

/-- In the text of a predicate each group is that of one binary expression, in order, and every test
for equality that compares no texts is written as `TestsEquality` says. -/
theorem testsEquality_of_compile {params : List Value} {predicate : Expr} {w : Writer}
    {text : String} (h : (Writer.start params).compile rowType predicate = (w, .ok (some text))) :
    ∃ (f : Lambda) (o : Operand), predicate.asLambda? = some f ∧
      clause? rowType predicate = .ok (some o) ∧ o.text = text ∧
      List.Forall₂ (fun b g => b.op.isEquality = true → textCompareArgs? b.left = none →
        TestsEquality rowType b g) (writtenBinaries f.body) o.groups := by
  obtain ⟨f, o, hlambda, hclause, htext, hgroups⟩ := isGroupOf_of_compile h
  exact ⟨f, o, hlambda, hclause, htext, hgroups.imp fun _ _ => testsEquality_of_isGroupOf⟩

/-- Rows with an age and a flag. -/
def flaggedType : TypeRef := .record "Person" [("Age", .scalar .int), ("Active", .bool)] []

/-- A row with an age and a flag. -/
def flaggedRow : Expr := .param ⟨"x", flaggedType⟩

/-- The age of a row is above 30. -/
def ageAbove30 : Expr := .binary .greaterThan (flaggedRow.access "Age") (.const (.integer 30))

/-- A flag that is compared with a group is tested with `IS`. -/
theorem testsEquality_of_compile_ageAbove30 :
    ∃ g : GroupParts,
      (Writer.start []).compile flaggedType
          (.predicateOver flaggedRow (.binary .equal (flaggedRow.access "Active") ageAbove30)) =
        (Writer.start [.integer 30], .ok (some "(Active IS (Age >  ? ))")) ∧
      TestsEquality flaggedType ⟨.equal, flaggedRow.access "Active", ageAbove30⟩ g ∧
      g.sign = .is ∧ g.right.text = "(Age >  ? )" := by
  have hcompile : (Writer.start []).compile flaggedType
      (.predicateOver flaggedRow (.binary .equal (flaggedRow.access "Active") ageAbove30)) =
        (Writer.start [.integer 30], .ok (some "(Active IS (Age >  ? ))")) := rfl
  obtain ⟨f, o, hlambda, hclause, -, hall⟩ := testsEquality_of_compile hcompile
  obtain rfl := Option.some.inj hlambda
  obtain rfl := Option.some.inj (Except.ok.inj hclause)
  cases hall with
  | cons hfirst _ => exact ⟨_, hcompile, hfirst rfl rfl, rfl, rfl⟩

end BoundSql.Filter
