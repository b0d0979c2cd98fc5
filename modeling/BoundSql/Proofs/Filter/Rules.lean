import BoundSql.Filter.Predicate
import BoundSql.Proofs.Outcome

set_option autoImplicit false

/-!
# The rules of operands

`Reads rowType e o` says by rules, one for each kind of expression, that `e` is written as the
operand `o` in a filter over rows of a type.  The main statement is `operand_eq_ok_iff`: the
compiler accepts exactly the expressions that have a reading, and gives that reading.  A proof
about accepted expressions is an induction over the rules.
-/

namespace BoundSql.Filter

/-- Can the expression be a literal: a constant, or a member of any kind? -/
def isLiteralForm : Expr → Bool
  | .const _ | .member _ _ | .staticMember _ => true
  | _ => false

/-- How an expression over rows of a type reads as an operand. -/
inductive Reads (rowType : TypeRef) : Expr → Operand → Prop where
  | column {target : Expr} {ref : MemberRef} (own : ref.declaring.sameType rowType = true) :
      Reads rowType (.member target ref) (.column ref.name)
  | literal {e : Expr} {value? : Option Value} (form : isLiteralForm e = true)
      (foreign : e.isRowMember rowType = false) (resolved : e.resolve = .ok value?) :
      Reads rowType e (.ofValue? value?)
  /-- The row itself is not written at all. -/
  | row {p : Parameter} : Reads rowType (.param p) .blank
  /-- A comparison of two texts is written as the comparison of a column with a literal.  The side
  on the right only decides the sign. -/
  | textCompare {op : BinaryOp} {left right item value : Expr} {ref : MemberRef}
      {sign : Connective} {value? : Option Value}
      (compared : textCompareArgs? left = some (item, value))
      (member : item.asMember? = some ref) (signed : connective rowType op right = .ok sign)
      (resolved : value.resolve = .ok value?) :
      Reads rowType (.binary op left right) (.group (.column ref.name) sign (.ofValue? value?))
  /-- A conditional on the left is written as the path that it falls back to. -/
  | fallback {op : BinaryOp} {test ifTrue ifFalse right : Expr} {path : String}
      {sign : Connective} {second : Operand} (dotted : ifFalse.dottedPath? = some path)
      (signed : connective rowType op right = .ok sign) (reads : Reads rowType right second) :
      Reads rowType (.binary op (.cond test ifTrue ifFalse) right)
        (.group (.column path) sign second)
  | binary {op : BinaryOp} {left right : Expr} {first second : Operand} {sign : Connective}
      (plain : textCompareArgs? left = none) (readsLeft : Reads rowType left first)
      (signed : connective rowType op right = .ok sign) (readsRight : Reads rowType right second) :
      Reads rowType (.binary op left right) (.group first sign second)
  | membership {declaring : TypeRef} {list item : Expr} {items : List Value} {ref : MemberRef}
      (listed : listItems list = .ok items) (member : item.asMember? = some ref) :
      Reads rowType (.call declaring Expr.containsMethod [list, item])
        (.membership ref.name items)
  | lambda {p : Parameter} {returns : TypeRef} {body : Expr} {shaper : Option RowFunction}
      {o : Operand} (reads : Reads rowType body o) :
      Reads rowType (.lambda p returns body shaper) o

/-! ## The parts of an operand -/

theorem literal_eq_ok_iff {e : Expr} {o : Operand} :
    literal e = .ok o ↔ ∃ value?, e.resolve = .ok value? ∧ Operand.ofValue? value? = o :=
  map_eq_ok_iff

theorem membership_eq_ok_iff {args : List Expr} {o : Operand} :
    membership args = .ok o ↔ ∃ list item items ref, args = [list, item] ∧
      listItems list = .ok items ∧ item.asMember? = some ref ∧
      o = .membership ref.name items := by
  constructor
  · intro h
    unfold membership at h
    split at h
    · rename_i list item
      obtain ⟨items, hitems, h⟩ := bind_eq_ok_iff.mp h
      cases href : item.asMember? with
      | none => simp [href] at h
      | some ref =>
          simp only [href, Except.ok.injEq] at h
          exact ⟨list, item, items, ref, rfl, hitems, href, h.symm⟩
    · simp at h
  · rintro ⟨list, item, items, ref, rfl, hitems, href, rfl⟩
    exact bind_eq_ok_iff.mpr ⟨items, hitems, by simp only [href]⟩

/-- A list that can be searched has an item. -/
theorem listItems_eq_ok_iff {list : Expr} {items : List Value} :
    listItems list = .ok items ↔ list.resolve = .ok (some (.array items)) ∧ items ≠ [] := by
  constructor
  · intro h
    obtain ⟨value?, hvalue, h⟩ := bind_eq_ok_iff.mp h
    split at h
    · simp at h
    · rename_i found hne
      simp only [Except.ok.injEq] at h
      subst h
      exact ⟨hvalue, fun hnil => hne (by rw [hnil])⟩
    · simp at h
    · simp at h
  · rintro ⟨hvalue, hne⟩
    refine bind_eq_ok_iff.mpr ⟨_, hvalue, ?_⟩
    cases items with
    | nil => exact absurd rfl hne
    | cons item items => rfl

theorem comparedColumn_eq_ok_iff {e : Expr} {o : Operand} :
    comparedColumn e = .ok o ↔ ∃ ref, e.asMember? = some ref ∧ o = .column ref.name := by
  unfold comparedColumn
  cases e.asMember? <;> simp [eq_comm]

theorem fallback_eq_ok_iff {e : Expr} {o : Operand} :
    Filter.fallback e = .ok o ↔ ∃ path, e.dottedPath? = some path ∧ o = .column path := by
  unfold Filter.fallback
  cases e.dottedPath? <;> simp [eq_comm]

theorem comparedItem_mem_children {left item value : Expr}
    (h : textCompareArgs? left = some (item, value)) : item ∈ left.children := by
  unfold textCompareArgs? at h
  split at h
  · split at h
    · obtain ⟨rfl, rfl⟩ := Prod.mk.inj (Option.some.inj h)
      exact List.mem_cons_self
    · simp at h
  · simp at h

/-- The operand on the left of an operator, where a conditional has one too. -/
def leftOperand (rowType : TypeRef) : Expr → Except CompileError Operand
  | .cond _ _ ifFalse => fallback ifFalse
  | e => operand rowType e

theorem operand_binary_of_none {rowType : TypeRef} {op : BinaryOp} {left right : Expr}
    (h : textCompareArgs? left = none) :
    operand rowType (.binary op left right) = (do
      let first ← leftOperand rowType left
      let sign ← connective rowType op right
      return .group first sign (← operand rowType right)) := by
  simp only [operand, h]
  cases left <;> rfl

theorem operand_binary_of_some {rowType : TypeRef} {op : BinaryOp} {left right item value : Expr}
    (h : textCompareArgs? left = some (item, value)) :
    operand rowType (.binary op left right) = (do
      let column ← comparedColumn item
      let sign ← connective rowType op right
      return .group column sign (← literal value)) := by
  simp only [operand, h]

/-! ## Acceptance -/

/-- Whatever the compiler gives for an expression is a reading of it. -/
theorem reads_of_operand {rowType : TypeRef} :
    ∀ {e : Expr} {o : Operand}, operand rowType e = .ok o → Reads rowType e o
  | .const value, o, h => by
      obtain ⟨value?, hvalue, rfl⟩ := literal_eq_ok_iff.mp h
      exact .literal rfl rfl hvalue
  | .param p, o, h => by
      obtain rfl : Operand.blank = o := by simpa [operand] using h
      exact .row
  | .member target ref, o, h => by
      simp only [operand] at h
      split at h
      · rename_i own
        obtain rfl : Operand.column ref.name = o := by simpa using h
        exact .column own
      · rename_i own
        obtain ⟨value?, hvalue, rfl⟩ := literal_eq_ok_iff.mp h
        exact .literal rfl (by simpa [Expr.isRowMember] using own) hvalue
  | .staticMember ref, o, h => by
      obtain ⟨value?, hvalue, rfl⟩ := literal_eq_ok_iff.mp h
      exact .literal rfl rfl hvalue
  | .binary op left right, o, h => by
      simp only [operand] at h
      split at h
      · rename_i item value hcompare
        obtain ⟨column, hcolumn, h⟩ := bind_eq_ok_iff.mp h
        obtain ⟨ref, href, rfl⟩ := comparedColumn_eq_ok_iff.mp hcolumn
        obtain ⟨sign, hsign, h⟩ := bind_eq_ok_iff.mp h
        obtain ⟨second, hsecond, h⟩ := bind_eq_ok_iff.mp h
        obtain ⟨value?, hvalue, rfl⟩ := literal_eq_ok_iff.mp hsecond
        obtain rfl := Except.ok.inj h
        exact .textCompare hcompare href hsign hvalue
      · rename_i hplain
        split at h
        · obtain ⟨first, hfirst, h⟩ := bind_eq_ok_iff.mp h
          obtain ⟨path, hpath, rfl⟩ := fallback_eq_ok_iff.mp hfirst
          obtain ⟨sign, hsign, h⟩ := bind_eq_ok_iff.mp h
          obtain ⟨second, hsecond, h⟩ := bind_eq_ok_iff.mp h
          obtain rfl := Except.ok.inj h
          exact .fallback hpath hsign (reads_of_operand hsecond)
        · obtain ⟨first, hfirst, h⟩ := bind_eq_ok_iff.mp h
          obtain ⟨sign, hsign, h⟩ := bind_eq_ok_iff.mp h
          obtain ⟨second, hsecond, h⟩ := bind_eq_ok_iff.mp h
          obtain rfl := Except.ok.inj h
          exact .binary hplain (reads_of_operand hfirst) hsign (reads_of_operand hsecond)
  | .call declaring method args, o, h => by
      simp only [operand] at h
      split at h
      · rename_i hmethod
        obtain ⟨list, item, items, ref, rfl, hitems, href, rfl⟩ := membership_eq_ok_iff.mp h
        exact hmethod ▸ .membership hitems href
      · simp at h
  | .lambda p returns body shaper, o, h => .lambda (reads_of_operand (by simpa [operand] using h))
  | .record _ _, o, h => by simp [operand] at h
  | .construct _ _ _, o, h => by simp [operand] at h
  | .cond _ _ _, o, h => by simp [operand] at h

theorem operand_of_literal {rowType : TypeRef} {e : Expr} (form : isLiteralForm e = true)
    (foreign : e.isRowMember rowType = false) : operand rowType e = literal e := by
  cases e with
  | const value => rfl
  | staticMember ref => rfl
  | member target ref =>
      have own : ref.declaring.sameType rowType = false := foreign
      simp [operand, own]
  | param p => simp [isLiteralForm] at form
  | binary op left right => simp [isLiteralForm] at form
  | call declaring method args => simp [isLiteralForm] at form
  | lambda p returns body shaper => simp [isLiteralForm] at form
  | record type bindings => simp [isLiteralForm] at form
  | construct type names args => simp [isLiteralForm] at form
  | cond test ifTrue ifFalse => simp [isLiteralForm] at form

/-- A conditional has no reading of its own. -/
theorem not_reads_cond {rowType : TypeRef} {test ifTrue ifFalse : Expr} {o : Operand} :
    ¬ Reads rowType (.cond test ifTrue ifFalse) o := by
  intro h
  cases h with
  | literal form _ _ => simp [isLiteralForm] at form

/-- The compiler gives every reading of an expression. -/
theorem operand_of_reads {rowType : TypeRef} {e : Expr} {o : Operand}
    (h : Reads rowType e o) : operand rowType e = .ok o := by
  induction h with
  | column own => simp [operand, own]
  | literal form foreign resolved =>
      rw [operand_of_literal form foreign]
      exact literal_eq_ok_iff.mpr ⟨_, resolved, rfl⟩
  | row => rfl
  | textCompare compared member signed resolved =>
      simp only [operand, compared]
      refine bind_eq_ok_iff.mpr ⟨_, comparedColumn_eq_ok_iff.mpr ⟨_, member, rfl⟩, ?_⟩
      refine bind_eq_ok_iff.mpr ⟨_, signed, ?_⟩
      exact bind_eq_ok_iff.mpr ⟨_, literal_eq_ok_iff.mpr ⟨_, resolved, rfl⟩, rfl⟩
  | fallback dotted signed _ ih =>
      simp only [operand, textCompareArgs?]
      refine bind_eq_ok_iff.mpr ⟨_, fallback_eq_ok_iff.mpr ⟨_, dotted, rfl⟩, ?_⟩
      exact bind_eq_ok_iff.mpr ⟨_, signed, bind_eq_ok_iff.mpr ⟨_, ih, rfl⟩⟩
  | @binary op left right first second sign plain readsLeft signed _ ihLeft ihRight =>
      simp only [operand, plain]
      split
      · exact absurd readsLeft not_reads_cond
      · refine bind_eq_ok_iff.mpr ⟨_, ihLeft, ?_⟩
        exact bind_eq_ok_iff.mpr ⟨_, signed, bind_eq_ok_iff.mpr ⟨_, ihRight, rfl⟩⟩
  | membership listed member =>
      simp only [operand, if_true]
      exact membership_eq_ok_iff.mpr ⟨_, _, _, _, rfl, listed, member, rfl⟩
  | lambda _ ih => simpa [operand] using ih

/-- The compiler accepts exactly what has a reading, and gives the reading. -/
theorem operand_eq_ok_iff {rowType : TypeRef} {e : Expr} {o : Operand} :
    operand rowType e = .ok o ↔ Reads rowType e o :=
  ⟨reads_of_operand, operand_of_reads⟩

/-- A predicate has a clause exactly when it is a lambda that returns a truth value, and the clause
is then the reading of its body. -/
theorem clause?_eq_some_iff {rowType : TypeRef} {predicate : Expr} {o : Operand} :
    clause? rowType predicate = .ok (some o) ↔
      ∃ f, predicate.asLambda? = some f ∧ f.returns.isBool = true ∧ Reads rowType f.body o := by
  unfold clause?
  cases predicate.asLambda? with
  | none => simp
  | some f =>
      cases hbool : f.returns.isBool with
      | false => simp [hbool]
      | true => simp [hbool, map_eq_ok_iff, operand_eq_ok_iff]

/-- A lambda that does not return a truth value is passed over, and nothing else is. -/
theorem clause?_eq_none_iff {rowType : TypeRef} {predicate : Expr} :
    clause? rowType predicate = .ok none ↔
      ∃ f, predicate.asLambda? = some f ∧ f.returns.isBool = false := by
  unfold clause?
  cases predicate.asLambda? with
  | none => simp
  | some f =>
      cases hbool : f.returns.isBool with
      | false => simp [hbool]
      | true => simp [hbool, map_eq_ok_iff]

end BoundSql.Filter
