import BoundSql.Projection.Collect
import BoundSql.Proofs.Expr.Alike

set_option autoImplicit false

/-!
# Projections of alike expressions

Where no type is a dynamic container, the compiler refuses two alike projections together, or
collects items from both that differ only in the values that they bind.
-/

namespace BoundSql.Projection

/-- The sources are the same but for the values that they bind, which are alike. -/
inductive Source.Alike : Source → Source → Prop where
  | column (name : String) : Alike (.column name) (.column name)
  | bound {v w : Value} (alike : v.Alike w) : Alike (.bound v) (.bound w)
  | null : Alike .null .null

/-- The items have one label and alike sources. -/
structure Item.Alike (a b : Item) : Prop where
  label : a.label = b.label
  source : a.source.Alike b.source

theorem Source.Alike.text_eq {a b : Source} (h : a.Alike b) : a.text = b.text := by
  cases h <;> rfl

theorem Item.Alike.column_eq {a b : Item} (h : a.Alike b) : a.column = b.column := by
  unfold Item.column
  rw [h.label, h.source.text_eq]

theorem Item.Alike.refl_identity (name : String) : (identity name).Alike (identity name) :=
  ⟨rfl, .column name⟩

theorem columns_eq_of_alike {items others : List Item} (h : List.Forall₂ Item.Alike items others) :
    columns items = columns others := by
  induction h with
  | nil => rfl
  | cons hitem _ ih => exact congrArg₂ List.cons hitem.column_eq ih

theorem labels_eq_of_alike {items others : List Item} (h : List.Forall₂ Item.Alike items others) :
    items.map (·.label) = others.map (·.label) := by
  induction h with
  | nil => rfl
  | cons hitem _ ih => exact congrArg₂ List.cons hitem.label ih

theorem values_alike {items others : List Item} (h : List.Forall₂ Item.Alike items others) :
    List.Forall₂ Value.Alike (values items) (values others) := by
  induction h with
  | nil => exact .nil
  | @cons item other items others hitem _ ih =>
      obtain ⟨label, source⟩ := item
      obtain ⟨label', source'⟩ := other
      obtain ⟨_, hsource⟩ := hitem
      dsimp only at hsource
      cases hsource with
      | column name => exact ih
      | bound alike => exact .cons alike ih
      | null => exact ih

/-! ## Collectors -/

/-- Both stopped at an error, or both went through with alike items. -/
inductive Collected.Alike : Collected → Collected → Prop where
  | stopped (items others : List Item) (e e' : CompileError) :
      Alike ⟨items, some e⟩ ⟨others, some e'⟩
  | through {items others : List Item} (alike : List.Forall₂ Item.Alike items others) :
      Alike ⟨items, none⟩ ⟨others, none⟩

/-- The collectors give alike results, whichever labels are taken. -/
def Collector.Alike (c d : Collector) : Prop := ∀ taken, (c taken).Alike (d taken)

namespace Collector.Alike

theorem done : Collector.Alike Collector.done Collector.done := fun _ => .through .nil

theorem fail (e e' : CompileError) : Collector.Alike (Collector.fail e) (Collector.fail e') :=
  fun _ => .stopped [] [] e e'

theorem item {a b : Item} (h : a.Alike b) : Collector.Alike (Collector.item a) (Collector.item b) :=
  fun _ => .through (.cons h .nil)

theorem ofResult {α β : Type} {R : α → β → Prop} {x : Except CompileError α}
    {y : Except CompileError β} {next : α → Collector} {next' : β → Collector} (h : Agree R x y)
    (hnext : ∀ a b, R a b → Collector.Alike (next a) (next' b)) :
    Collector.Alike (Collector.ofResult x next) (Collector.ofResult y next') := by
  cases h with
  | ok related => exact hnext _ _ related
  | error e e' => exact fail e e'

theorem andThen {c c' d d' : Collector} (hc : Collector.Alike c c') (hd : Collector.Alike d d') :
    Collector.Alike (c.andThen d) (c'.andThen d') := by
  intro taken
  have hbefore := hc taken
  cases hcd : c taken with
  | mk items error =>
      cases hcd' : c' taken with
      | mk others error' =>
          rw [hcd, hcd'] at hbefore
          cases hbefore with
          | stopped _ _ e e' => simpa only [Collector.andThen, hcd, hcd'] using .stopped _ _ e e'
          | through alike =>
              -- The labels that the second finds taken are the same on both sides.
              have hafter := hd (taken ++ items.map (·.label))
              simp only [Collector.andThen, hcd, hcd', ← labels_eq_of_alike alike]
              revert hafter
              generalize d (taken ++ items.map (·.label)) = after
              generalize d' (taken ++ items.map (·.label)) = after'
              intro hafter
              cases hafter with
              | stopped _ _ e e' => exact .stopped _ _ e e'
              | through alikeAfter => exact .through (List.rel_append alike alikeAfter)

theorem all {cs ds : List Collector} (h : List.Forall₂ Collector.Alike cs ds) :
    Collector.Alike (Collector.all cs) (Collector.all ds) := by
  induction h with
  | nil => exact done
  | cons hc _ ih => exact hc.andThen ih

end Collector.Alike

/-! ## Projections -/

variable {options : Options} {rowType : TypeRef} {e f : Expr}

theorem agree_source (h : e.Alike f) :
    Agree Source.Alike (source rowType e) (source rowType f) := by
  have hliteral : Agree Source.Alike (source.ofLiteral e) (source.ofLiteral f) :=
    (Expr.agree_resolve h).map fun _ _ hvalue =>
      match hvalue with
      | .some alike => .bound alike
      | .none => .null
  unfold source
  rw [h.asMember?_eq, h.isRowMember_eq rowType]
  split
  · split
    · exact .ok (.column _)
    · exact hliteral
  · exact hliteral

theorem collectField_alike (label : String) (h : e.Alike f) :
    Collector.Alike (collectField rowType label e) (collectField rowType label f) :=
  .ofResult (agree_source h) fun _ _ hsource => .item ⟨rfl, hsource⟩

/-- The items of one member of a record that is no container. -/
def collectBinding (options : Options) (rowType : TypeRef) (binding : MemberRef × Expr) :
    Collector :=
  if !binding.1.type.isBasic true then collect options rowType binding.2
  else if options.isContainer binding.1.declaring then collectPublicName binding.2
  else collectField rowType binding.1.name binding.2

theorem collectAll_eq (es : List Expr) :
    collectAll options rowType es = Collector.all (es.map (collect options rowType)) := by
  induction es with
  | nil => rfl
  | cons e es ih => rw [collectAll, ih, List.map_cons, Collector.all]

theorem collectBindings_eq (bindings : List (MemberRef × Expr)) :
    collectBindings options rowType bindings
      = Collector.all (bindings.map (collectBinding options rowType)) := by
  induction bindings with
  | nil => rfl
  | cons binding bindings ih =>
      rw [collectBindings, ih, List.map_cons, Collector.all, collectBinding]

/-- The fields of two constructors of the same parameters have alike items. -/
theorem collectFields_alike {names : List String} {args others : List Expr}
    (h : List.Forall₂ Expr.Alike args others) :
    List.Forall₂ Collector.Alike
      ((names.zip args).map fun field => collectField rowType field.1 field.2)
      ((names.zip others).map fun field => collectField rowType field.1 field.2) := by
  induction h generalizing names with
  | nil => simp
  | cons harg _ ih =>
      cases names with
      | nil => exact .nil
      | cons name names => exact .cons (collectField_alike name harg) ih

/-- Alike projections are refused together or have alike items. -/
theorem collect_alike (rowType : TypeRef) (plain : ∀ t, options.isContainer t = false)
    (h : e.Alike f) :
    Collector.Alike (collect options rowType e) (collect options rowType f) := by
  induction h with
  | const alike => exact .done
  | param p => exact .done
  | staticMember ref => exact .done
  | member ref _ ih => exact ih
  | binary op _ _ ihLeft ihRight => exact ihLeft.andThen ihRight
  | call declaring method length _ ih =>
      simp only [collect, collectAll_eq]
      refine .all ?_
      rw [List.forall₂_map_left_iff, List.forall₂_map_right_iff]
      exact Expr.forall₂_of_zip length ih
  | lambda p returns shaper _ ih => exact ih
  | @construct args others type paramNames length alike _ =>
      have hargs := Expr.forall₂_of_zip length alike
      have hempty : args.isEmpty = others.isEmpty := by cases hargs <;> rfl
      simp only [collect, hempty, length]
      split
      · exact .done
      · split
        · exact .all (collectFields_alike hargs)
        · exact .fail _ _
  | record type length refs alike ih =>
      simp only [collect, plain, Bool.false_eq_true, if_false, collectBindings_eq]
      refine .all ?_
      rw [List.forall₂_map_left_iff, List.forall₂_map_right_iff]
      refine Expr.forall₂_of_zip length fun a b hmem => ?_
      simp only [collectBinding, plain, refs a b hmem]
      split
      · exact ih a b hmem
      · exact collectField_alike b.1.name (alike a b hmem)
  | cond _ _ _ ihTest ihTrue ihFalse => exact ihTest.andThen (ihTrue.andThen ihFalse)

end BoundSql.Projection
