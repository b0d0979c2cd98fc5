import BoundSql.Proofs.Filter.Legible
import BoundSql.Proofs.Filter.Rules

set_option autoImplicit false

/-!
# Shapes of predicates

The shape of a predicate is its tree with columns by name and literals by value.  `Erases rowType e
t` says that `t` is the shape of `e`, for predicates made of columns, literals, operators that
filters understand and memberships.  Such a predicate is accepted, its operand depends on its shape
alone, and the operand says which shape it was.
-/

namespace BoundSql.Filter

open Text

/-- The tree of a predicate, with columns by name and literals by value. -/
inductive Shape where
  | col (name : String)
  | lit (value : Value)
  /-- A literal that is null. -/
  | null
  | bin (op : BinaryOp) (left right : Shape)
  | isIn (name : String) (values : List Value)

/-- The operators that filters understand. -/
def testOperators : List BinaryOp :=
  [.equal, .notEqual, .lessThan, .lessThanOrEqual, .greaterThan, .greaterThanOrEqual, .and, .or,
    .andAlso, .orElse]

/-- How an expression over rows of a type is erased. -/
inductive Erases (rowType : TypeRef) : Expr → Shape → Prop where
  | column {target : Expr} {ref : MemberRef} (own : ref.declaring.sameType rowType = true)
      (word : IsWord ref.name) (named : ref.name ≠ nullText) :
      Erases rowType (.member target ref) (.col ref.name)
  | value {e : Expr} {v : Value} (form : isLiteralForm e = true)
      (foreign : e.isRowMember rowType = false) (resolved : e.resolve = .ok (some v)) :
      Erases rowType e (.lit v)
  | null {e : Expr} (form : isLiteralForm e = true) (foreign : e.isRowMember rowType = false)
      (resolved : e.resolve = .ok none) : Erases rowType e .null
  | binary {op : BinaryOp} {left right : Expr} {t u : Shape} (known : op ∈ testOperators)
      (erasesLeft : Erases rowType left t) (erasesRight : Erases rowType right u) :
      Erases rowType (.binary op left right) (.bin op t u)
  | membership {declaring : TypeRef} {list item : Expr} {values : List Value} {ref : MemberRef}
      (listed : list.resolve = .ok (some (.array values))) (nonempty : values ≠ [])
      (member : item.asMember? = some ref) (word : IsWord ref.name)
      (named : ref.name ≠ nullText) :
      Erases rowType (.call declaring Expr.containsMethod [list, item]) (.isIn ref.name values)

/-! ## From shapes to operands -/

/-- The sign of an operator in front of an operand that is absent or not. -/
def sign? (op : BinaryOp) (absent : Bool) : Option Connective :=
  match op with
  | .equal => some (if absent then .is else .equal)
  | .notEqual => some (if absent then .isNot else .notEqual)
  | .lessThan => some .lessThan
  | .lessThanOrEqual => some .lessThanOrEqual
  | .greaterThan => some .greaterThan
  | .greaterThanOrEqual => some .greaterThanOrEqual
  | .and => some .bitAnd
  | .or => some .bitOr
  | .andAlso => some .and
  | .orElse => some .or
  | .add | .subtract | .multiply | .divide | .modulo | .coalesce => none

namespace Shape

/-- Is it neither a column nor a value? -/
def isAbsent : Shape → Bool
  | .col _ | .lit _ => false
  | _ => true

/-- The operand of a shape whose operators are all understood. -/
def operand? : Shape → Option Operand
  | .col name => some (.column name)
  | .lit value => some (.bound value)
  | .null => some .null
  | .bin op left right => do
    let first ← left.operand?
    let sign ← sign? op right.isAbsent
    return .group first sign (← right.operand?)
  | .isIn name values => some (.membership name values)

theorem operand?_bin_eq_some_iff {op : BinaryOp} {left right : Shape} {o : Operand} :
    (bin op left right).operand? = some o ↔ ∃ first sign second, left.operand? = some first ∧
      sign? op right.isAbsent = some sign ∧ right.operand? = some second ∧
      o = .group first sign second := by
  simp only [operand?, Option.bind_eq_bind, Option.bind_eq_some_iff, pure, Option.some.injEq]
  constructor
  · rintro ⟨first, hfirst, sign, hsign, second, hsecond, rfl⟩
    exact ⟨first, sign, second, hfirst, hsign, hsecond, rfl⟩
  · rintro ⟨first, sign, second, hfirst, hsign, hsecond, rfl⟩
    exact ⟨first, hfirst, sign, hsign, second, hsecond, rfl⟩

end Shape

theorem sign?_inj {op op' : BinaryOp} {absent : Bool} {sign : Connective}
    (h : sign? op absent = some sign) (h' : sign? op' absent = some sign) : op = op' := by
  cases absent <;> cases op <;> cases op' <;> simp [sign?] at h h' ⊢ <;> simp [← h] at h'

/-- The operand of a shape says which shape it is. -/
theorem Shape.operand?_inj {t u : Shape} {o : Operand} (ht : t.operand? = some o)
    (hu : u.operand? = some o) : t = u := by
  induction t generalizing u o with
  | bin op left right ihLeft ihRight =>
      obtain ⟨first, sign, second, hfirst, hsign, hsecond, rfl⟩ := operand?_bin_eq_some_iff.mp ht
      cases u with
      | bin op' left' right' =>
          obtain ⟨first', sign', second', hfirst', hsign', hsecond', heq⟩ :=
            operand?_bin_eq_some_iff.mp hu
          obtain ⟨rfl, rfl, rfl⟩ := Operand.group.inj heq
          obtain rfl := ihLeft hfirst hfirst'
          obtain rfl := ihRight hsecond hsecond'
          rw [sign?_inj hsign hsign']
      | col name => simp [operand?] at hu
      | lit value => simp [operand?] at hu
      | null => simp [operand?] at hu
      | isIn name values => simp [operand?] at hu
  | col name | lit value | null | isIn name values =>
      obtain rfl := Option.some.inj ht
      cases u with
      | bin op' left' right' =>
          obtain ⟨_, _, _, _, _, _, heq⟩ := operand?_bin_eq_some_iff.mp hu
          simp at heq
      | col _ | lit _ | null | isIn _ _ => simp_all [operand?]

/-- The sign that an operator has in front of a shape fits its operand. -/
theorem fits_of_sign? {op : BinaryOp} {sign : Connective} {u : Shape} {o : Operand}
    (hsign : sign? op u.isAbsent = some sign) (ho : u.operand? = some o) : sign.Fits o := by
  have hgroup (a b : Operand) (c : Connective) : sign.Fits (.group a c b) := by
    cases sign <;> trivial
  have hmembership (name : String) (items : List Value) : sign.Fits (.membership name items) := by
    cases sign <;> trivial
  cases u with
  | bin op' left right =>
      obtain ⟨first, sign', second, -, -, -, rfl⟩ := Shape.operand?_bin_eq_some_iff.mp ho
      exact hgroup first second sign'
  | isIn name values =>
      obtain rfl := Option.some.inj ho
      exact hmembership name values
  | col _ | lit _ | null =>
      obtain rfl := Option.some.inj ho
      cases op <;> simp [sign?, Shape.isAbsent] at hsign <;> subst hsign <;> trivial

/-! ## Erased expressions -/

variable {rowType : TypeRef} {e : Expr} {t : Shape}

/-- A shape is absent exactly when the compiler takes the expression for absent. -/
theorem isAbsent_of_erases (h : Erases rowType e t) : isAbsent rowType e = .ok t.isAbsent := by
  unfold isAbsent
  cases h with
  | column own _ _ => simp [Expr.isRowMember, own, Shape.isAbsent]
  | value form foreign resolved => simp [foreign, resolved, Shape.isAbsent, Functor.map, Except.map]
  | null form foreign resolved => simp [foreign, resolved, Shape.isAbsent, Functor.map, Except.map]
  | binary _ _ _ => rfl
  | membership _ _ _ _ _ => rfl

theorem connective_of_erases {op : BinaryOp} (known : op ∈ testOperators) (h : Erases rowType e t) :
    ∃ sign, sign? op t.isAbsent = some sign ∧ connective rowType op e = .ok sign := by
  have habsent := isAbsent_of_erases h
  cases op <;> simp [testOperators] at known <;>
    simp [sign?, connective, habsent, Functor.map, Except.map]

/-- An erased expression compares no texts. -/
theorem textCompareArgs?_of_erases (h : Erases rowType e t) : textCompareArgs? e = none := by
  cases h with
  | column _ _ _ => rfl
  | value form _ _ => cases e <;> first | rfl | simp [isLiteralForm] at form
  | null form _ _ => cases e <;> first | rfl | simp [isLiteralForm] at form
  | binary _ _ _ => rfl
  | membership _ _ _ _ _ => rfl

/-- An erased expression is accepted, with the operand of its shape, which is legible. -/
theorem exists_operand_of_erases (h : Erases rowType e t) :
    ∃ o, t.operand? = some o ∧ Reads rowType e o ∧ o.Legible := by
  induction h with
  | column own word named => exact ⟨_, rfl, .column own, .column word named⟩
  | @value e v form foreign resolved => exact ⟨_, rfl, .literal form foreign resolved, .bound v⟩
  | null form foreign resolved => exact ⟨_, rfl, .literal form foreign resolved, .null⟩
  | membership listed nonempty member word named =>
      exact ⟨_, rfl, .membership (listItems_eq_ok_iff.mpr ⟨listed, nonempty⟩) member,
        .membership word named nonempty⟩
  | binary known erasesLeft erasesRight ihLeft ihRight =>
      obtain ⟨first, hfirst, readsLeft, legibleLeft⟩ := ihLeft
      obtain ⟨second, hsecond, readsRight, legibleRight⟩ := ihRight
      obtain ⟨sign, hsign, signed⟩ := connective_of_erases known erasesRight
      refine ⟨.group first sign second, ?_, ?_, ?_⟩
      · exact Shape.operand?_bin_eq_some_iff.mpr ⟨_, _, _, hfirst, hsign, hsecond, rfl⟩
      · exact .binary (textCompareArgs?_of_erases erasesLeft) readsLeft signed readsRight
      · exact .group legibleLeft (fits_of_sign? hsign hsecond) legibleRight

/-- The predicate is a lambda that returns a truth value, and the shape is that of its body. -/
def ErasesPredicate (rowType : TypeRef) (predicate : Expr) (t : Shape) : Prop :=
  ∃ f, predicate.asLambda? = some f ∧ f.returns.isBool = true ∧ Erases rowType f.body t

theorem exists_clause_of_erases {predicate : Expr} (h : ErasesPredicate rowType predicate t) :
    ∃ o, t.operand? = some o ∧ clause? rowType predicate = .ok (some o) ∧ o.Legible := by
  obtain ⟨f, hlambda, tests, herases⟩ := h
  obtain ⟨o, ho, reads, legible⟩ := exists_operand_of_erases herases
  exact ⟨o, ho, clause?_eq_some_iff.mpr ⟨f, hlambda, tests, reads⟩, legible⟩

end BoundSql.Filter
