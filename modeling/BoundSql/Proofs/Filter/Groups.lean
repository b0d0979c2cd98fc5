import BoundSql.Proofs.Filter.History

set_option autoImplicit false

/-!
# Groups of predicates

Every binary expression that is written in a filter is written as a group of its own.  So the groups
of a text are those of the binary expressions, in order (`isGroupOf_of_compile`), and what is said
of one binary expression holds at every depth of a filter.
-/

namespace BoundSql.Filter

variable {rowType : TypeRef} {e : Expr} {o : Operand}

/-- The parts of a binary expression. -/
structure BinaryParts where
  op : BinaryOp
  left : Expr
  right : Expr

/-- The parts of a group. -/
structure GroupParts where
  left : Operand
  sign : Connective
  right : Operand

/-- The binary expressions that are written in a filter, each before those in its sides.  Those in
the arguments of a comparison of texts are not written. -/
def writtenBinaries : Expr → List BinaryParts
  | .binary op left right =>
    ⟨op, left, right⟩ ::
      if (textCompareArgs? left).isSome then [] else writtenBinaries left ++ writtenBinaries right
  | .lambda _ _ body _ => writtenBinaries body
  | _ => []

/-- The groups of an operand, each before those in its sides. -/
def Operand.groups : Operand → List GroupParts
  | .group left sign right => ⟨left, sign, right⟩ :: (left.groups ++ right.groups)
  | _ => []

/-- A group has the sign of the operator in front of the right side.  Unless texts are compared, its
sides are the operand on the left and what the right side reads as. -/
structure IsGroupOf (rowType : TypeRef) (b : BinaryParts) (g : GroupParts) : Prop where
  signed : connective rowType b.op b.right = .ok g.sign
  left : textCompareArgs? b.left = none → leftOperand rowType b.left = .ok g.left
  reads : textCompareArgs? b.left = none → Reads rowType b.right g.right

/-- The groups of a reading are those of the binary expressions, in order. -/
theorem forall₂_groups_of_reads (h : Reads rowType e o) :
    List.Forall₂ (IsGroupOf rowType) (writtenBinaries e) o.groups := by
  induction h with
  | column own => exact .nil
  | @literal e value? form foreign resolved =>
      cases e with
      | const _ | member _ _ | staticMember _ => cases value? <;> exact .nil
      | _ => simp [isLiteralForm] at form
  | row => exact .nil
  | @textCompare op left right item value ref sign value? compared member signed resolved =>
      have hnone : (Operand.ofValue? value?).groups = [] := by cases value? <;> rfl
      have hgroup : IsGroupOf rowType ⟨op, left, right⟩
          ⟨.column ref.name, sign, .ofValue? value?⟩ :=
        ⟨signed, fun plain => by simp [compared] at plain, fun plain => by simp [compared] at plain⟩
      simpa [writtenBinaries, compared, Operand.groups, hnone] using hgroup
  | fallback dotted signed reads ih =>
      exact .cons ⟨signed, fun _ => fallback_eq_ok_iff.mpr ⟨_, dotted, rfl⟩, fun _ => reads⟩ ih
  | @binary op left right first second sign plain readsLeft signed readsRight ihLeft ihRight =>
      have hleft : leftOperand rowType left = .ok first := by
        unfold leftOperand
        split
        · exact absurd readsLeft not_reads_cond
        · exact operand_of_reads readsLeft
      simp only [writtenBinaries, plain, Option.isSome_none, Bool.false_eq_true, if_false]
      exact .cons ⟨signed, fun _ => hleft, fun _ => readsRight⟩ (List.rel_append ihLeft ihRight)
  | membership listed member => exact .nil
  | lambda _ ih => exact ih

/-- In the text of a predicate each group is that of one binary expression, in order. -/
theorem isGroupOf_of_compile {params : List Value} {predicate : Expr} {w : Writer} {text : String}
    (h : (Writer.start params).compile rowType predicate = (w, .ok (some text))) :
    ∃ (f : Lambda) (o : Operand), predicate.asLambda? = some f ∧
      clause? rowType predicate = .ok (some o) ∧ o.text = text ∧
      List.Forall₂ (IsGroupOf rowType) (writtenBinaries f.body) o.groups := by
  obtain ⟨o, hclause, -, rfl⟩ := Writer.compile_eq_some_iff.mp h
  obtain ⟨f, hlambda, -, hreads⟩ := clause?_eq_some_iff.mp hclause
  exact ⟨f, o, hlambda, hclause, rfl, forall₂_groups_of_reads hreads⟩

end BoundSql.Filter
