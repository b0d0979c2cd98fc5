import BoundSql.Proofs.Expr.Renaming
import BoundSql.Proofs.Filter.Rules

set_option autoImplicit false

/-!
# Filters with renamed parameters

No rule for an operand looks at the name of a parameter, so a renamed predicate has the same clause.
-/

namespace BoundSql.Filter

variable {rowType : TypeRef} {e f : Expr}

theorem isLiteralForm_eq_of_renamed (h : e.Renamed f) : isLiteralForm e = isLiteralForm f := by
  cases h <;> rfl

theorem connective_eq_of_renamed (op : BinaryOp) (h : e.Renamed f) :
    connective rowType op e = connective rowType op f := by
  unfold connective isAbsent
  rw [h.isRowMember_eq, h.resolve_eq]

theorem listItems_eq_of_renamed (h : e.Renamed f) : listItems e = listItems f := by
  unfold listItems
  rw [h.resolve_eq]

theorem textCompareArgs?_renamed (h : e.Renamed f) :
    Option.Rel (fun a b => a.1.Renamed b.1 ∧ a.2.Renamed b.2) (textCompareArgs? e)
      (textCompareArgs? f) := by
  cases h with
  | call declaring method length renamed =>
      rcases Expr.forall₂_of_zip length renamed with _ | ⟨hleft, _ | ⟨hright, _ | _⟩⟩
      · exact .none
      · exact .none
      · simp only [textCompareArgs?]
        split
        · exact .some ⟨hleft, hright⟩
        · exact .none
      · exact .none
  | const _ | param _ _ _ | member _ _ | staticMember _ | binary _ _ _ | lambda _ _ _ _ _ _
  | record _ _ _ _ | construct _ _ _ _ | cond _ _ _ => exact .none

/-- A renamed expression reads as the same operand. -/
theorem Reads.renamed {o : Operand} (h : Reads rowType e o) :
    ∀ {f : Expr}, e.Renamed f → Reads rowType f o := by
  induction h with
  | column own =>
      intro f hf
      cases hf with
      | member _ _ => exact .column own
  | literal form foreign resolved =>
      intro f hf
      rw [isLiteralForm_eq_of_renamed hf] at form
      rw [hf.isRowMember_eq] at foreign
      rw [hf.resolve_eq] at resolved
      exact .literal form foreign resolved
  | row =>
      intro f hf
      cases hf with
      | param _ _ _ => exact .row
  | textCompare compared member signed resolved =>
      intro f hf
      cases hf with
      | binary op renamedLeft renamedRight =>
          rw [connective_eq_of_renamed _ renamedRight] at signed
          rcases eq_none_or_exists_of_rel (textCompareArgs?_renamed renamedLeft) with
            ⟨hnone, -⟩ | ⟨⟨item, value⟩, ⟨item', value'⟩, hargs, hargs', hitem, hvalue⟩
          · exact absurd (compared.symm.trans hnone) (by simp)
          · obtain ⟨rfl, rfl⟩ := Prod.mk.inj (Option.some.inj (compared.symm.trans hargs))
            rw [hitem.asMember?_eq] at member
            rw [hvalue.resolve_eq] at resolved
            exact .textCompare hargs' member signed resolved
  | fallback dotted signed _ ih =>
      intro f hf
      cases hf with
      | binary op renamedLeft renamedRight =>
          rw [connective_eq_of_renamed _ renamedRight] at signed
          cases renamedLeft with
          | cond _ _ renamedFalse =>
              rw [renamedFalse.dottedPath?_eq] at dotted
              exact .fallback dotted signed (ih renamedRight)
  | binary plain _ signed _ ihLeft ihRight =>
      intro f hf
      cases hf with
      | binary op renamedLeft renamedRight =>
          rw [connective_eq_of_renamed _ renamedRight] at signed
          rcases eq_none_or_exists_of_rel (textCompareArgs?_renamed renamedLeft) with
            ⟨-, hnone⟩ | ⟨_, _, hargs, -, -⟩
          · exact .binary hnone (ihLeft renamedLeft) signed (ihRight renamedRight)
          · exact absurd (plain.symm.trans hargs) (by simp)
  | membership listed member =>
      intro f hf
      cases hf with
      | call declaring method length renamed =>
          rcases Expr.forall₂_of_zip length renamed with _ | ⟨hlist, _ | ⟨hitem, _ | _⟩⟩
          rw [listItems_eq_of_renamed hlist] at listed
          rw [hitem.asMember?_eq] at member
          exact .membership listed member
  | lambda _ ih =>
      intro f hf
      cases hf with
      | lambda _ _ _ _ _ renamed => exact .lambda (ih renamed)

end BoundSql.Filter
