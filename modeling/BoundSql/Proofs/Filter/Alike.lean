import BoundSql.Proofs.Expr.Alike
import BoundSql.Proofs.Filter.Rules

set_option autoImplicit false

/-!
# Filters of alike expressions

The compiler refuses two alike predicates together, or turns them into operands that differ only in
the values of their placeholders.
-/

namespace BoundSql.Filter

/-- The operands are the same but for the values that they bind, which are alike. -/
inductive Operand.Alike : Operand → Operand → Prop where
  | column (name : String) : Alike (.column name) (.column name)
  | bound {v w : Value} (alike : v.Alike w) : Alike (.bound v) (.bound w)
  | null : Alike .null .null
  | blank : Alike .blank .blank
  | group {left right left' right' : Operand} (sign : Connective) (alikeLeft : Alike left left')
      (alikeRight : Alike right right') : Alike (.group left sign right) (.group left' sign right')
  | membership {items others : List Value} (column : String)
      (alike : List.Forall₂ Value.Alike items others) :
      Alike (.membership column items) (.membership column others)

namespace Operand.Alike

/-- What is written does not depend on the values. -/
theorem text_eq {a b : Operand} (h : Operand.Alike a b) : a.text = b.text := by
  induction h with
  | column name => rfl
  | bound alike => rfl
  | null => rfl
  | blank => rfl
  | group sign _ _ ihLeft ihRight => rw [Operand.text, Operand.text, ihLeft, ihRight]
  | @membership items others column alike =>
      have hitems : items.map (itemText column) = others.map (itemText column) := by
        induction alike with
        | nil => rfl
        | cons hvw _ ih => rw [List.map_cons, List.map_cons, ih, itemText, itemText, hvw.isNull_eq]
      rw [Operand.text, Operand.text, hitems]

theorem values {a b : Operand} (h : Operand.Alike a b) :
    List.Forall₂ Value.Alike a.values b.values := by
  induction h with
  | column name => exact .nil
  | bound alike => exact .cons alike .nil
  | null => exact .nil
  | blank => exact .nil
  | group sign _ _ ihLeft ihRight => exact List.rel_append ihLeft ihRight
  | membership column alike => exact Value.forall₂_alike_filter alike

end Operand.Alike

/-! ## The parts of an operand -/

variable {rowType : TypeRef} {e f : Expr}

theorem agree_literal (h : e.Alike f) : Agree Operand.Alike (literal e) (literal f) :=
  (Expr.agree_resolve h).map fun _ _ hvalue =>
    match hvalue with
    | .some alike => .bound alike
    | .none => .null

theorem agree_isAbsent (h : e.Alike f) :
    Agree Eq (isAbsent rowType e) (isAbsent rowType f) := by
  unfold isAbsent
  rw [h.isRowMember_eq rowType]
  cases f.isRowMember rowType with
  | true => exact .ok rfl
  | false =>
      refine (Expr.agree_resolve h).map fun _ _ hvalue => ?_
      cases hvalue <;> rfl

theorem agree_connective (rowType : TypeRef) (h : e.Alike f) (op : BinaryOp) :
    Agree Eq (connective rowType op e) (connective rowType op f) := by
  have habsent (sign : Bool → Connective) :
      Agree Eq (sign <$> isAbsent rowType e) (sign <$> isAbsent rowType f) :=
    (agree_isAbsent h).map fun _ _ => congrArg sign
  cases op with
  | equal => exact habsent _
  | notEqual => exact habsent _
  | lessThan | lessThanOrEqual | greaterThan | greaterThanOrEqual | and | or | andAlso | orElse =>
      exact .ok rfl
  | add | subtract | multiply | divide | modulo | coalesce => exact .error _ _

theorem agree_listItems (h : e.Alike f) :
    Agree (List.Forall₂ Value.Alike) (listItems e) (listItems f) := by
  refine (Expr.agree_resolve h).bind fun _ _ hvalue => ?_
  cases hvalue with
  | none => exact .error _ _
  | @some v w alike =>
      cases alike with
      | null => exact .error _ _
      | object keys alike => exact .error _ _
      | array length alike =>
          have hitems := Value.forall₂_alike_iff.mpr ⟨length, alike⟩
          cases hitems with
          | nil => exact .error _ _
          | cons hvw hrest => exact .ok (.cons hvw hrest)
      | plain left right =>
          cases v <;> cases w <;> first
            | exact .error _ _
            | simp [Value.isPlain] at left right

theorem agree_membership {args others : List Expr} (h : List.Forall₂ Expr.Alike args others) :
    Agree Operand.Alike (membership args) (membership others) := by
  cases h with
  | nil => exact .error _ _
  | cons hlist hrest =>
      cases hrest with
      | nil => exact .error _ _
      | cons hitem hrest =>
          cases hrest with
          | cons _ _ => exact .error _ _
          | nil =>
              refine (agree_listItems hlist).bind fun items others hitems => ?_
              rw [hitem.asMember?_eq]
              cases Expr.asMember? _ with
              | none => exact .error _ _
              | some ref => exact .ok (.membership ref.name hitems)

theorem textCompareArgs?_alike (h : e.Alike f) :
    Option.Rel (fun a b => a.1.Alike b.1 ∧ a.2.Alike b.2) (textCompareArgs? e)
      (textCompareArgs? f) := by
  cases h with
  | call declaring method length alike =>
      have hargs := Expr.forall₂_of_zip length alike
      cases hargs with
      | nil => exact .none
      | cons hleft hrest =>
          cases hrest with
          | nil => exact .none
          | cons hright hrest =>
              cases hrest with
              | cons _ _ => exact .none
              | nil =>
                  simp only [textCompareArgs?]
                  split
                  · exact .some ⟨hleft, hright⟩
                  · exact .none
  | const _ | param _ | member _ _ | staticMember _ | binary _ _ _ | lambda _ _ _ _
  | record _ _ _ _ | construct _ _ _ _ | cond _ _ _ => exact .none

theorem agree_comparedColumn (h : e.Alike f) :
    Agree Operand.Alike (comparedColumn e) (comparedColumn f) := by
  unfold comparedColumn
  rw [h.asMember?_eq]
  cases f.asMember? with
  | none => exact .error _ _
  | some ref => exact .ok (.column ref.name)

theorem agree_fallback (h : e.Alike f) :
    Agree Operand.Alike (fallback e) (fallback f) := by
  unfold fallback
  rw [h.dottedPath?_eq]
  cases f.dottedPath? with
  | none => exact .error _ _
  | some path => exact .ok (.column path)

/-! ## Operands -/

/-- A group comes out alike when its sides do. -/
theorem agree_group {first first' second second' : Except CompileError Operand}
    {sign sign' : Except CompileError Connective} (hfirst : Agree Operand.Alike first first')
    (hsign : Agree Eq sign sign') (hsecond : Agree Operand.Alike second second') :
    Agree Operand.Alike (do return .group (← first) (← sign) (← second))
      (do return .group (← first') (← sign') (← second')) := by
  refine hfirst.bind fun _ _ alikeLeft => hsign.bind fun _ _ hsign => ?_
  subst hsign
  exact hsecond.bind fun _ _ alikeRight => .ok (.group _ alikeLeft alikeRight)

/-- Alike expressions are refused together or have alike operands. -/
theorem agree_operand (rowType : TypeRef) (h : e.Alike f) :
    Agree Operand.Alike (operand rowType e) (operand rowType f) := by
  induction h with
  | const alike => exact agree_literal (.const alike)
  | param p => exact .ok .blank
  | member ref alike =>
      simp only [operand]
      split
      · exact .ok (.column ref.name)
      · exact agree_literal (.member ref alike)
  | staticMember ref => exact agree_literal (.staticMember ref)
  | @binary left right left' right' op alikeLeft alikeRight ihLeft ihRight =>
      have hsign := agree_connective rowType alikeRight op
      have hargs := textCompareArgs?_alike alikeLeft
      rcases eq_none_or_exists_of_rel hargs with
        ⟨hleft, hleft'⟩ | ⟨args, args', hleft, hleft', hitem, hvalue⟩
      · rw [operand_binary_of_none hleft, operand_binary_of_none hleft']
        refine agree_group ?_ hsign ihRight
        cases alikeLeft with
        | cond _ _ alikeFalse => exact agree_fallback alikeFalse
        | const _ | param _ | member _ _ | staticMember _ | binary _ _ _ | call _ _ _ _
        | lambda _ _ _ _ | record _ _ _ _ | construct _ _ _ _ => exact ihLeft
      · rw [operand_binary_of_some hleft, operand_binary_of_some hleft']
        exact agree_group (agree_comparedColumn hitem) hsign (agree_literal hvalue)
  | call declaring method length alike _ =>
      simp only [operand]
      split
      · exact agree_membership (Expr.forall₂_of_zip length alike)
      · exact .error _ _
  | lambda p returns shaper _ ih => exact ih
  | record type length refs _ _ => exact .error _ _
  | construct type paramNames length _ _ => exact .error _ _
  | cond _ _ _ _ _ _ => exact .error _ _

/-- Alike predicates are refused together, passed over together, or have alike clauses. -/
theorem agree_clause? (rowType : TypeRef) (h : e.Alike f) :
    Agree (Option.Rel Operand.Alike) (clause? rowType e) (clause? rowType f) := by
  unfold clause?
  rcases eq_none_or_exists_of_rel h.asLambda?_rel with
    ⟨he, hf⟩ | ⟨a, b, he, hf, hreturns, hbody⟩
  · rw [he, hf]
    exact .error _ _
  · rw [he, hf]
    dsimp only
    rw [hreturns]
    cases b.returns.isBool with
    | false => exact .ok .none
    | true => exact (agree_operand rowType hbody).map fun _ _ alike => .some alike

end BoundSql.Filter
