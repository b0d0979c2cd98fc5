import BoundSql.Proofs.Filter.History
import BoundSql.Proofs.Filter.Placeholders

set_option autoImplicit false

/-!
# Operators that no filter can say

A filter has no sign for the arithmetic operators and for the one that stands in for null.  A
predicate made of operators over columns and constants is refused exactly when one of them stands
somewhere in it.  The parts are judged from left to right and each operator between its two sides,
so the cause names the first of them in that reading, and no value that was bound before is kept
(`compile_unsupported`).
-/

namespace BoundSql.Filter

/-- The operators that filters do not understand. -/
def unsupportedOperators : List BinaryOp :=
  [.add, .subtract, .multiply, .divide, .modulo, .coalesce]

/-- The expression is made of operators over columns of the row and constants. -/
inductive IsOperation (rowType : TypeRef) : Expr → Prop where
  | column {e : Expr} (own : e.isRowMember rowType = true) : IsOperation rowType e
  | const (value : Value) : IsOperation rowType (.const value)
  | binary {op : BinaryOp} {left right : Expr} (isLeft : IsOperation rowType left)
      (isRight : IsOperation rowType right) : IsOperation rowType (.binary op left right)

/-- The operators of an expression from left to right, each between those of its two sides. -/
def operatorsOf : Expr → List BinaryOp
  | .binary op left right => operatorsOf left ++ op :: operatorsOf right
  | _ => []

/-- The constants of an expression from left to right. -/
def constantsOf : Expr → List Value
  | .const value => [value]
  | .binary _ left right => constantsOf left ++ constantsOf right
  | _ => []

/-- The first operator of an expression that filters do not understand. -/
def firstUnsupported? (e : Expr) : Option BinaryOp :=
  (operatorsOf e).find? (· ∈ unsupportedOperators)

theorem firstUnsupported?_eq_none_iff {e : Expr} :
    firstUnsupported? e = none ↔ ∀ op ∈ operatorsOf e, op ∉ unsupportedOperators := by
  simp [firstUnsupported?]

theorem firstUnsupported?_binary (op : BinaryOp) (left right : Expr) :
    firstUnsupported? (.binary op left right) =
      (firstUnsupported? left).or
        (if op ∈ unsupportedOperators then some op else firstUnsupported? right) := by
  simp only [firstUnsupported?, operatorsOf, List.find?_append, List.find?_cons]
  by_cases hop : op ∈ unsupportedOperators <;> simp [hop]

/-! ## Signs -/

variable {rowType : TypeRef} {e left right : Expr} {op : BinaryOp}

/-- An operator that filters do not understand has no sign in front of any operand. -/
theorem connective_of_unsupported (h : op ∈ unsupportedOperators) (right : Expr) :
    connective rowType op right = .error (.unsupportedOperator op) := by
  cases op <;> simp [unsupportedOperators] at h <;> rfl

/-- It is always known whether an operation is absent. -/
theorem exists_isAbsent_of_isOperation (h : IsOperation rowType e) :
    ∃ absent, isAbsent rowType e = .ok absent := by
  cases h with
  | column own => exact ⟨false, by simp [isAbsent, own]⟩
  | const value => exact ⟨_, rfl⟩
  | binary isLeft isRight => exact ⟨true, rfl⟩

/-- Every other operator has a sign in front of an operation. -/
theorem exists_connective_of_supported (h : op ∉ unsupportedOperators)
    (hright : IsOperation rowType right) : ∃ sign, connective rowType op right = .ok sign := by
  obtain ⟨absent, habsent⟩ := exists_isAbsent_of_isOperation hright
  cases op <;> simp [unsupportedOperators] at h <;>
    simp [connective, habsent, Functor.map, Except.map]

/-! ## Operations as operands -/

/-- An operation is judged on its left side, then on its operator, then on its right side. -/
theorem operand_binary_of_isOperation (h : IsOperation rowType left) (op : BinaryOp)
    (right : Expr) :
    operand rowType (.binary op left right) = (do
      let first ← operand rowType left
      let sign ← connective rowType op right
      return .group first sign (← operand rowType right)) := by
  cases h with
  | const value => rfl
  | binary isLeft isRight => rfl
  | column own =>
      cases left with
      | member target ref => rfl
      | _ => simp [Expr.isRowMember] at own

/-- An operation whose operators are all understood has an operand, whose values are its constants
from left to right. -/
theorem exists_operand_of_supported (h : IsOperation rowType e)
    (supported : firstUnsupported? e = none) :
    ∃ o, operand rowType e = .ok o ∧ o.values = (constantsOf e).filter (!·.isNull) := by
  induction h with
  | @column e own =>
      cases e with
      | member target ref => exact ⟨.column ref.name, if_pos own, rfl⟩
      | _ => simp [Expr.isRowMember] at own
  | const value =>
      refine ⟨.ofValue? ((some value).filter (!·.isNull)), rfl, ?_⟩
      rw [Operand.values_ofValue?]
      cases hnull : value.isNull <;> simp [constantsOf, hnull]
  | @binary op left right isLeft isRight ihLeft ihRight =>
      rw [firstUnsupported?_binary, Option.or_eq_none_iff] at supported
      obtain ⟨supportedLeft, supportedRest⟩ := supported
      split at supportedRest
      · cases supportedRest
      · rename_i hop
        obtain ⟨first, hfirst, valuesFirst⟩ := ihLeft supportedLeft
        obtain ⟨sign, hsign⟩ := exists_connective_of_supported hop isRight
        obtain ⟨second, hsecond, valuesSecond⟩ := ihRight supportedRest
        refine ⟨.group first sign second, ?_, ?_⟩
        · simp [operand_binary_of_isOperation isLeft, hfirst, hsign, hsecond, bind, Except.bind,
            pure, Except.pure]
        · simp [Operand.values, constantsOf, valuesFirst, valuesSecond]

/-- Any other operation is refused, and the cause names the first operator that is not understood:
what stands to the left of it has an operand, and what stands to the right is not looked at. -/
theorem operand_of_unsupported (h : IsOperation rowType e) :
    ∀ {op : BinaryOp}, firstUnsupported? e = some op →
      operand rowType e = .error (.unsupportedOperator op) := by
  induction h with
  | @column e own =>
      intro op hop
      cases e with
      | member target ref => simp [firstUnsupported?, operatorsOf] at hop
      | _ => simp [Expr.isRowMember] at own
  | const value =>
      intro op hop
      simp [firstUnsupported?, operatorsOf] at hop
  | @binary here left right isLeft isRight ihLeft ihRight =>
      intro op hop
      rw [firstUnsupported?_binary] at hop
      rw [operand_binary_of_isOperation isLeft]
      cases hleft : firstUnsupported? left with
      | some earlier =>
          obtain rfl : earlier = op := by simpa [hleft] using hop
          simp [ihLeft hleft, bind, Except.bind]
      | none =>
          obtain ⟨first, hfirst, -⟩ := exists_operand_of_supported isLeft hleft
          rw [hleft, Option.none_or] at hop
          split at hop
          · rename_i hhere
            obtain rfl := Option.some.inj hop
            simp [hfirst, connective_of_unsupported hhere, bind, Except.bind]
          · rename_i hhere
            obtain ⟨sign, hsign⟩ := exists_connective_of_supported hhere isRight
            simp [hfirst, hsign, ihRight hop, bind, Except.bind]

/-! ## Predicates -/

namespace Writer

/-- A writer over values that are there already compiles a predicate whose body is made of operators
over columns and constants.

* It is refused exactly when an operator that filters do not understand stands somewhere in it.
* Then the cause names the first of these from left to right, and the values are what they were.
* Otherwise it has a text, and the constants that are not null are added from left to right. -/
theorem compile_unsupported {predicate : Expr} {f : Lambda} (params : List Value)
    (lambda : predicate.asLambda? = some f) (tests : f.returns.isBool = true)
    (operation : IsOperation rowType f.body) :
    ((∃ cause, ((start params).compile rowType predicate).2 = .error cause) ↔
        ∃ op ∈ operatorsOf f.body, op ∈ unsupportedOperators) ∧
      (∀ op, firstUnsupported? f.body = some op →
        (start params).compile rowType predicate =
          (start params, .error (.unsupportedOperator op))) ∧
      ((∀ op ∈ operatorsOf f.body, op ∉ unsupportedOperators) →
        ∃ text, (start params).compile rowType predicate =
          (start (params ++ (constantsOf f.body).filter (!·.isNull)), .ok (some text))) := by
  have hclause : clause? rowType predicate = some <$> operand rowType f.body := by
    simp [clause?, lambda, tests]
  have hrefused (op : BinaryOp) (hop : firstUnsupported? f.body = some op) :
      (start params).compile rowType predicate =
        (start params, .error (.unsupportedOperator op)) := by
    rw [compile_start, hclause, operand_of_unsupported operation hop]
    rfl
  have haccepted (hnone : firstUnsupported? f.body = none) :
      ∃ text, (start params).compile rowType predicate =
        (start (params ++ (constantsOf f.body).filter (!·.isNull)), .ok (some text)) := by
    obtain ⟨o, ho, hvalues⟩ := exists_operand_of_supported operation hnone
    refine ⟨o.text, ?_⟩
    rw [compile_start, hclause, ho, ← hvalues]
    rfl
  refine ⟨⟨?_, ?_⟩, hrefused, fun h => haccepted (firstUnsupported?_eq_none_iff.mpr h)⟩
  · rintro ⟨cause, hcause⟩
    by_contra hnot
    obtain ⟨text, htext⟩ := haccepted (firstUnsupported?_eq_none_iff.mpr (by simpa using hnot))
    simp [htext] at hcause
  · rintro ⟨op, hmem, hop⟩
    cases hfirst : firstUnsupported? f.body with
    | some first => exact ⟨_, by rw [hrefused first hfirst]⟩
    | none => exact absurd hop (firstUnsupported?_eq_none_iff.mp hfirst op hmem)

section

/-- The number of a row. -/
def number : Expr := numberedRow.access "Id"

/-- A test of an operation on the number of a row, behind one that binds a value. -/
def testAfter7 (op : BinaryOp) (second : Expr) : Expr :=
  .binary .andAlso numberTest
    (.binary .notEqual (.binary op number (.const (.integer 2)))
      (.binary .or second (.const .null)))

theorem isOperation_number : IsOperation numberedType number := .column rfl

theorem isOperation_testAfter7 (op : BinaryOp) {second : Expr}
    (h : IsOperation numberedType second) : IsOperation numberedType (testAfter7 op second) :=
  .binary (.binary isOperation_number (.const _))
    (.binary (.binary isOperation_number (.const _)) (.binary h (.const _)))

/-- The first of two operators is named, which stands to the right of an operand that has bound a
value, and with others in their places all values are bound but null. -/
theorem compile_unsupported_testAfter7 :
    (start [.text "k"]).compile numberedType
        (numberedRow.predicateOver
          (testAfter7 .modulo (.binary .add number (.const (.integer 1))))) =
      (start [.text "k"], .error (.unsupportedOperator .modulo)) ∧
    ∃ text, (start [.text "k"]).compile numberedType
        (numberedRow.predicateOver
          (testAfter7 .lessThan (.binary .and number (.const (.integer 1))))) =
      (start [.text "k", .integer 7, .integer 2, .integer 1], .ok (some text)) := by
  have hlambda (body : Expr) : (numberedRow.predicateOver body).asLambda? =
      some ⟨⟨"x", numberedType⟩, .bool, body, none⟩ := rfl
  obtain ⟨-, hrefused, -⟩ := compile_unsupported [.text "k"] (hlambda _) rfl
    (isOperation_testAfter7 .modulo (.binary isOperation_number (.const (.integer 1))))
  obtain ⟨-, -, haccepted⟩ := compile_unsupported [.text "k"] (hlambda _) rfl
    (isOperation_testAfter7 .lessThan (.binary isOperation_number (.const (.integer 1))))
  exact ⟨hrefused .modulo rfl, haccepted (by decide)⟩

end

end Writer

end BoundSql.Filter
