import BoundSql.Proofs.Expr.Parts
import BoundSql.Proofs.Filter.Signs

set_option autoImplicit false

/-!
# Comparisons of texts

Texts are compared by a call that gives a number, and the number is compared with 0.  Such a test is
written as if the texts were compared by the operator itself, with the second text as a literal and
the sign chosen for the 0.  So it is written like the plain comparison where the second text is a
literal with a value, and otherwise it need not be.  The main statement is
`compile_textTest_eq_iff`.
-/

namespace BoundSql.Filter

/-- The operators that compare two operands. -/
def comparisons : List BinaryOp :=
  [.equal, .notEqual, .lessThan, .lessThanOrEqual, .greaterThan, .greaterThanOrEqual]

/-- The comparison of two texts by a call whose result is compared with 0. -/
def textTest (op : BinaryOp) (left right : Expr) : Expr :=
  .binary op (.textCompare left right) (.const (.integer 0))

variable {rowType : TypeRef} {op : BinaryOp} {c r : Expr} {ref : MemberRef} {sign : Connective}

theorem exists_sign_of_mem_comparisons (hop : op ∈ comparisons) (absent : Bool) :
    ∃ sign, sign? op absent = some sign := by
  simp only [comparisons, List.mem_cons, List.not_mem_nil, or_false] at hop
  rcases hop with rfl | rfl | rfl | rfl | rfl | rfl <;> exact ⟨_, rfl⟩

/-- Only the sign of a test for equality depends on whether the right side is absent. -/
theorem sign?_eq_iff (hop : op ∈ comparisons) :
    sign? op true = sign? op false ↔ op.isEquality = false := by
  simp only [comparisons, List.mem_cons, List.not_mem_nil, or_false] at hop
  rcases hop with rfl | rfl | rfl | rfl | rfl | rfl <;> decide

/-! ## Operands -/

/-- The second text of a text test is a literal, and the sign is chosen for the 0, which is never
absent. -/
theorem operand_textTest (member : c.asMember? = some ref) (signed : sign? op false = some sign) :
    operand rowType (textTest op c r) =
      (fun value? => .group (.column ref.name) sign (.ofValue? value?)) <$> r.resolve := by
  have hcompared : textCompareArgs? (.textCompare c r) = some (c, r) := by
    simp [Expr.textCompare, textCompareArgs?, TypeRef.isString]
  have hzero : isAbsent rowType (.const (.integer 0)) = .ok false := rfl
  have hsign : connective rowType op (.const (.integer 0)) = .ok sign :=
    connective_eq_ok_iff.mpr ⟨false, fun _ => hzero, signed⟩
  rw [textTest, operand_binary_of_some hcompared, hsign]
  cases hresolve : r.resolve <;>
    simp [comparedColumn, member, literal, hresolve, bind, Except.bind, Functor.map, Except.map,
      pure, Except.pure]

theorem reads_column (own : c.isRowMember rowType = true) (member : c.asMember? = some ref) :
    Reads rowType c (.column ref.name) := by
  cases c with
  | member target other =>
      obtain rfl : other = ref := Option.some.inj member
      exact .column own
  | _ => simp [Expr.isRowMember] at own

theorem textCompareArgs?_of_isRowMember (own : c.isRowMember rowType = true) :
    textCompareArgs? c = none := by
  cases c with
  | member target ref => rfl
  | _ => simp [Expr.isRowMember] at own

/-- A column is written on either side of a plain comparison. -/
theorem operand_columns {other : MemberRef} (own : c.isRowMember rowType = true)
    (member : c.asMember? = some ref) (ownRight : r.isRowMember rowType = true)
    (memberRight : r.asMember? = some other) (signed : sign? op false = some sign) :
    operand rowType (.binary op c r) =
      .ok (.group (.column ref.name) sign (.column other.name)) := by
  have hpresent : isAbsent rowType r = .ok false := by simp [isAbsent, ownRight]
  have hsign : connective rowType op r = .ok sign :=
    connective_eq_ok_iff.mpr ⟨false, fun _ => hpresent, signed⟩
  exact operand_of_reads (.binary (textCompareArgs?_of_isRowMember own) (reads_column own member)
    hsign (reads_column ownRight memberRight))

/-- The sign of a plain comparison with a literal is chosen for that literal. -/
theorem operand_columnAndLiteral {value? : Option Value} (own : c.isRowMember rowType = true)
    (member : c.asMember? = some ref) (form : isLiteralForm r = true)
    (foreign : r.isRowMember rowType = false) (resolved : r.resolve = .ok value?)
    (signed : sign? op value?.isNone = some sign) :
    operand rowType (.binary op c r) =
      .ok (.group (.column ref.name) sign (.ofValue? value?)) := by
  have habsent := isAbsent_of_resolve foreign resolved
  have hsign : connective rowType op r = .ok sign :=
    connective_eq_ok_iff.mpr ⟨_, fun _ => habsent, signed⟩
  exact operand_of_reads (.binary (textCompareArgs?_of_isRowMember own) (reads_column own member)
    hsign (.literal form foreign resolved))

/-! ## Texts -/

theorem Connective.text_inj {sign sign' : Connective} (h : sign.text = sign'.text) :
    sign = sign' := by
  cases sign <;> cases sign' <;> first | rfl | exact absurd h (by decide)

/-- Groups that differ on the right only are written alike when their right sides are. -/
theorem text_right_eq_of_text_group_eq {left right right' : Operand}
    (h : (Operand.group left sign right).text = (Operand.group left sign right').text) :
    right.text = right'.text := by
  simpa [Operand.text, ← String.toList_inj] using h

/-- Groups that differ in their signs are not written alike. -/
theorem sign_eq_of_text_group_eq {left right : Operand} {sign' : Connective}
    (h : (Operand.group left sign right).text = (Operand.group left sign' right).text) :
    sign = sign' := by
  apply Connective.text_inj
  simpa [Operand.text, ← String.toList_inj] using h

/-! ## Predicates -/

variable {params : List Value} {p : Parameter} {shaper : Option RowFunction}

open Writer

/-- A text test with a column is never compiled like the plain comparison of the two columns. -/
theorem compile_textTest_ne_of_column (hop : op ∈ comparisons) (own : c.isRowMember rowType = true)
    (ownRight : r.isRowMember rowType = true)
    (named : ∀ other, r.asMember? = some other → other.name ≠ nullText) :
    (start params).compile rowType (.lambda p .bool (textTest op c r) shaper) ≠
      (start params).compile rowType (.lambda p .bool (.binary op c r) shaper) := by
  obtain ⟨ref, member⟩ := Expr.exists_asMember?_of_isRowMember own
  obtain ⟨other, memberRight⟩ := Expr.exists_asMember?_of_isRowMember ownRight
  obtain ⟨sign, signed⟩ := exists_sign_of_mem_comparisons hop false
  rw [compile_predicate, compile_predicate, operand_textTest member signed,
    operand_columns own member ownRight memberRight signed]
  intro h
  cases hresolve : r.resolve with
  | error cause => simp [hresolve, Functor.map, Except.map] at h
  | ok value? =>
      simp only [hresolve, Functor.map, Except.map, Prod.mk.injEq, Except.ok.injEq,
        Option.some.injEq] at h
      obtain ⟨hwriter, htext⟩ := h
      cases value? with
      | some v => simp [start, Operand.values, Operand.ofValue?] at hwriter
      | none => exact named other memberRight (text_right_eq_of_text_group_eq htext).symm

/-- A text test with a literal is compiled like the plain comparison unless it tests for equality
with a literal that has no value. -/
theorem compile_textTest_eq_iff_of_literal {value? : Option Value} (hop : op ∈ comparisons)
    (own : c.isRowMember rowType = true) (form : isLiteralForm r = true)
    (foreign : r.isRowMember rowType = false) (resolved : r.resolve = .ok value?) :
    (start params).compile rowType (.lambda p .bool (textTest op c r) shaper) =
        (start params).compile rowType (.lambda p .bool (.binary op c r) shaper) ↔
      value? ≠ none ∨ op.isEquality = false := by
  obtain ⟨ref, member⟩ := Expr.exists_asMember?_of_isRowMember own
  obtain ⟨sign, signed⟩ := exists_sign_of_mem_comparisons hop false
  obtain ⟨sign', signed'⟩ := exists_sign_of_mem_comparisons hop value?.isNone
  rw [compile_predicate, compile_predicate, operand_textTest member signed, resolved,
    operand_columnAndLiteral own member form foreign resolved signed']
  cases value? with
  | some v =>
      obtain rfl : sign = sign' := Option.some.inj (signed.symm.trans signed')
      simp [Functor.map, Except.map]
  | none =>
      simp only [Functor.map, Except.map, Prod.mk.injEq, Except.ok.injEq, Option.some.injEq,
        ne_eq, not_true_eq_false, false_or, ← sign?_eq_iff hop]
      rw [signed, show sign? op true = some sign' from signed', Option.some.injEq]
      constructor
      · rintro ⟨-, htext⟩
        exact (sign_eq_of_text_group_eq htext).symm
      · rintro rfl
        exact ⟨rfl, rfl⟩

/-- A test of a column against a text by a comparison of texts.

* It is compiled like the plain comparison with that text exactly if the text is a literal with a
  value, or a literal without one and the test is none for equality.
* A second text that resolves to no value, be it a literal without one or a column, is written as
  `NULL` behind the sign of the operator. -/
theorem compile_textTest_eq_iff (hop : op ∈ comparisons) (own : c.isRowMember rowType = true)
    (form : isLiteralForm r = true)
    (resolves : r.isRowMember rowType = false → ∃ value?, r.resolve = .ok value?)
    (named : r.isRowMember rowType = true → ∀ other, r.asMember? = some other →
      other.name ≠ nullText) :
    ((start params).compile rowType (.lambda p .bool (textTest op c r) shaper) =
        (start params).compile rowType (.lambda p .bool (.binary op c r) shaper) ↔
      r.isRowMember rowType = false ∧ (r.resolve ≠ .ok none ∨ op.isEquality = false)) ∧
    (r.resolve = .ok none → ∃ ref sign, c.asMember? = some ref ∧ sign? op false = some sign ∧
      (start params).compile rowType (.lambda p .bool (textTest op c r) shaper) =
        (start params, .ok (some ("(" ++ ref.name ++ sign.text ++ "NULL" ++ ")")))) := by
  constructor
  · cases hrow : r.isRowMember rowType with
    | true => simpa using compile_textTest_ne_of_column hop own hrow (named hrow)
    | false =>
        obtain ⟨value?, resolved⟩ := resolves hrow
        rw [compile_textTest_eq_iff_of_literal hop own form hrow resolved, resolved]
        simp
  · intro resolved
    obtain ⟨ref, member⟩ := Expr.exists_asMember?_of_isRowMember own
    obtain ⟨sign, signed⟩ := exists_sign_of_mem_comparisons hop false
    refine ⟨ref, sign, member, signed, ?_⟩
    rw [compile_predicate, operand_textTest member signed, resolved]
    simp [Functor.map, Except.map, Operand.ofValue?, Operand.text, Operand.values, nullText]

/-- Rows with two names. -/
def nicknamedType : TypeRef := .record "Person" [("Name", .string), ("Nick", .string)] []

/-- A row with two names. -/
def nicknamedRow : Expr := .param ⟨"x", nicknamedType⟩

/-- What a new writer makes of a test of the name of a row. -/
def compileNameTest (body : Expr → Expr) : Writer × Except CompileError (Option String) :=
  (start []).compile nicknamedType (.predicateOver nicknamedRow (body (nicknamedRow.access "Name")))

/-- The name is compared with a text as it is plainly, with no text by another sign, and with the
other name not at all. -/
theorem compile_textTest_eq_iff_name :
    let other := nicknamedRow.access "Nick"
    compileNameTest (textTest .equal · (.const (.text "M"))) =
        compileNameTest (.binary .equal · (.const (.text "M"))) ∧
      compileNameTest (textTest .equal · (.const .null)) ≠
        compileNameTest (.binary .equal · (.const .null)) ∧
      compileNameTest (textTest .equal · other) ≠ compileNameTest (.binary .equal · other) ∧
      (compileNameTest (textTest .equal · other)).2 = .ok (some "(Name = NULL)") ∧
      (compileNameTest (.binary .equal · other)).2 = .ok (some "(Name = Nick)") := by
  have hiff {r : Expr} (form : isLiteralForm r = true) (resolves : ∃ value?, r.resolve = .ok value?)
      (named : ∀ ref, r.asMember? = some ref → ref.name ≠ nullText) :
      compileNameTest (textTest .equal · r) = compileNameTest (.binary .equal · r) ↔
        r.isRowMember nicknamedType = false ∧
          (r.resolve ≠ .ok none ∨ BinaryOp.equal.isEquality = false) :=
    (compile_textTest_eq_iff (by decide) rfl form (fun _ => resolves) (fun _ => named)).1
  have hvalue : (Expr.const (.text "M")).resolve = .ok (some (.text "M")) := rfl
  have hnick : ∀ ref, (nicknamedRow.access "Nick").asMember? = some ref → ref.name ≠ nullText := by
    rintro ref ⟨⟩
    decide
  refine ⟨?_, ?_, ?_, rfl, rfl⟩
  · exact (hiff rfl ⟨_, hvalue⟩ (by simp [Expr.asMember?])).mpr ⟨rfl, .inl (by simp [hvalue])⟩
  · intro h
    rcases (hiff rfl ⟨none, rfl⟩ (by simp [Expr.asMember?])).mp h with ⟨-, hnone | hequality⟩
    · exact hnone rfl
    · exact absurd hequality (by decide)
  · intro h
    have hrow := ((hiff rfl ⟨none, rfl⟩ hnick).mp h).1
    exact absurd hrow (by decide)

end BoundSql.Filter
