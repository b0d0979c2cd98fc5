import BoundSql.Proofs.Filter.Alike
import BoundSql.Proofs.Projection.Alike
import BoundSql.Proofs.Query.Placeholders

set_option autoImplicit false

/-!
# Values are not written

Two chains that differ only in their constants, and there by alike values, are compiled to the same
text: what a literal holds gets into the parameters only.  The relation between the two compilations
is carried through the steps of the chain, and is looked at when both are finished.
-/

namespace BoundSql

/-- The statements have one text and the same columns, and their parameters are alike one by one. -/
structure Statement.Alike (s t : Statement) : Prop where
  sql : s.sql = t.sql
  columns : s.columns = t.columns
  params : List.Forall₂ Value.Alike s.params t.params

namespace Query

variable {options : Options} {rowType : TypeRef}

/-! ## Steps -/

/-- The steps are calls of one operator with alike arguments. -/
structure Step.Alike (s t : Step) : Prop where
  method : s.method = t.method
  argument : s.argument.Alike t.argument

theorem agree_stepsBefore {later later' : List Step} {e f : Expr} (h : e.Alike f)
    (hlater : List.Forall₂ Step.Alike later later') :
    Agree (List.Forall₂ Step.Alike) (stepsBefore later e) (stepsBefore later' f) := by
  induction h generalizing later later' with
  | @call args others declaring method length alike ih =>
      have hargs := Expr.forall₂_of_zip length alike
      have hsources := Expr.forall₂_of_zip length ih
      rw [stepsBefore.eq_def, stepsBefore.eq_def _ (.call declaring method others)]
      dsimp only
      cases declaring.isQueryable with
      | false => exact .ok hlater
      | true =>
          cases hargs with
          | nil => exact .error _ _
          | cons hsource hrest =>
              cases hrest with
              | nil => exact .error _ _
              | cons hargument hrest =>
                  cases hrest with
                  | cons _ _ => exact .error _ _
                  | nil =>
                      cases hsources with
                      | cons ihSource _ => exact ihSource (.cons ⟨rfl, hargument⟩ hlater)
  | const _ | param _ | member _ _ _ | staticMember _ | binary _ _ _ _ _ | lambda _ _ _ _ _
  | record _ _ _ _ _ | construct _ _ _ _ _ | cond _ _ _ _ _ _ => exact .ok hlater

/-! ## Progress -/

/-- The same has been gathered, but for alike values. -/
structure Progress.Alike (p q : Progress) : Prop where
  projection : Option.Rel (fun a b => List.Forall₂ Projection.Item.Alike a.2 b.2) p.projection
    q.projection
  filters : List.Forall₂ Filter.Operand.Alike p.filters q.filters
  order : p.order = q.order

namespace Progress

variable {p q : Progress} {e f : Expr}

theorem agree_addFilter (hp : p.Alike q) (h : e.Alike f) :
    Agree Progress.Alike (p.addFilter rowType e) (q.addFilter rowType f) := by
  refine (Filter.agree_clause? rowType h).bind fun _ _ hclause => .ok ?_
  refine ⟨hp.projection, List.rel_append hp.filters ?_, hp.order⟩
  cases hclause with
  | none => exact .nil
  | some alike => exact .cons alike .nil

theorem agree_setProjection (plain : ∀ t, options.isContainer t = false) (hp : p.Alike q)
    (h : e.Alike f) :
    Agree Progress.Alike (p.setProjection options rowType e)
      (q.setProjection options rowType f) := by
  obtain ⟨projection, filters, order⟩ := p
  obtain ⟨projection', filters', order'⟩ := q
  obtain ⟨hprojection, hfilters, horder⟩ := hp
  dsimp only at hprojection
  cases hprojection with
  | some _ => exact .error _ _
  | none =>
      unfold setProjection
      rcases eq_none_or_exists_of_rel h.asLambda?_rel with
        ⟨he, hf⟩ | ⟨a, b, he, hf, -, hbody⟩
      · rw [he, hf]
        exact .error _ _
      · have hcollected := Projection.collect_alike rowType plain hbody []
        rw [he, hf]
        dsimp only
        revert hcollected
        generalize Projection.collect options rowType a.body [] = collected
        generalize Projection.collect options rowType b.body [] = collected'
        intro hcollected
        cases hcollected with
        | stopped _ _ e e' => exact .error e e'
        | through alike => exact .ok ⟨.some alike, hfilters, horder⟩

theorem orderColumn?_eq_of_alike (h : e.Alike f) :
    orderColumn? rowType e = orderColumn? rowType f := by
  cases h with
  | cond _ _ alikeFalse => exact alikeFalse.dottedPath?_eq
  | const _ | param _ | member _ _ | staticMember _ | binary _ _ _ | call _ _ _ _ | lambda _ _ _ _
  | record _ _ _ _ | construct _ _ _ _ => rfl

theorem agree_addOrder (descending : Bool) (hp : p.Alike q) (h : e.Alike f) :
    Agree Progress.Alike (p.addOrder options rowType e descending)
      (q.addOrder options rowType f descending) := by
  unfold addOrder
  cases options.ordering with
  | false => exact .ok hp
  | true =>
      rcases eq_none_or_exists_of_rel h.asLambda?_rel with
        ⟨he, hf⟩ | ⟨a, b, he, hf, -, hbody⟩
      · rw [he, hf]
        exact .error _ _
      · rw [he, hf]
        refine .ok ⟨hp.projection, hp.filters, ?_⟩
        simp only [hp.order, orderColumn?_eq_of_alike hbody]

/-- Alike steps keep alike progress alike. -/
theorem agree_step (plain : ∀ t, options.isContainer t = false) {s t : Step} (hp : p.Alike q)
    (h : s.Alike t) :
    Agree Progress.Alike (step options rowType p s) (step options rowType q t) := by
  unfold step
  rw [h.method]
  split
  · exact agree_addFilter hp h.argument
  · exact agree_setProjection plain hp h.argument
  · exact agree_addOrder _ ⟨hp.projection, hp.filters, rfl⟩ h.argument
  · exact agree_addOrder _ hp h.argument
  · exact .error _ _

/-- Runs over alike steps keep alike progress alike. -/
theorem agree_run (plain : ∀ t, options.isContainer t = false) {ss ts : List Step}
    (hp : p.Alike q) (h : List.Forall₂ Step.Alike ss ts) :
    Agree Progress.Alike (run options rowType p ss) (run options rowType q ts) := by
  induction h generalizing p q with
  | nil => exact .ok hp
  | cons hstep _ ih =>
      simp only [run, List.foldlM_cons]
      exact (agree_step plain hp hstep).bind fun _ _ hmid => ih hmid

theorem alike_start : start.Alike start := ⟨.none, .nil, rfl⟩

theorem items_alike (rowType : TypeRef) (hp : p.Alike q) :
    List.Forall₂ Projection.Item.Alike (p.items rowType) (q.items rowType) := by
  have hproperties : List.Forall₂ Projection.Item.Alike
      (rowType.propertyNames.map Projection.Item.identity)
      (rowType.propertyNames.map Projection.Item.identity) := by
    rw [List.forall₂_map_left_iff, List.forall₂_map_right_iff]
    exact List.forall₂_same.mpr fun name _ => .refl_identity name
  obtain ⟨projection, filters, order⟩ := p
  obtain ⟨projection', filters', order'⟩ := q
  obtain ⟨hprojection, -, -⟩ := hp
  dsimp only at hprojection
  cases hprojection with
  | none => exact hproperties
  | @some a b hitems =>
      obtain ⟨f, items⟩ := a
      obtain ⟨f', items'⟩ := b
      dsimp only at hitems
      cases hitems with
      | nil => exact hproperties
      | cons hitem hrest => exact .cons hitem hrest

end Progress

/-! ## Statements -/

theorem texts_eq_of_alike {filters others : List Filter.Operand}
    (h : List.Forall₂ Filter.Operand.Alike filters others) :
    filters.map Filter.Operand.text = others.map Filter.Operand.text := by
  induction h with
  | nil => rfl
  | cons hclause _ ih => exact congrArg₂ List.cons hclause.text_eq ih

theorem filtered_alike {filters others : List Filter.Operand}
    (h : List.Forall₂ Filter.Operand.Alike filters others) :
    List.Forall₂ Value.Alike (filters.flatMap Filter.Operand.values)
      (others.flatMap Filter.Operand.values) := by
  induction h with
  | nil => exact .nil
  | cons hclause _ ih =>
      rw [List.flatMap_cons, List.flatMap_cons]
      exact List.rel_append hclause.values ih

theorem isEmpty_eq_of_forall₂ {filters others : List Filter.Operand}
    (h : List.Forall₂ Filter.Operand.Alike filters others) : filters.isEmpty = others.isEmpty := by
  cases h <;> rfl

theorem Progress.agree_finish {p q : Progress} (hp : p.Alike q) (d : Descriptor) :
    Agree Statement.Alike (p.finish d) (q.finish d) := by
  have hitems := items_alike d.element hp
  have hfilters := hp.filters
  unfold finish
  rw [hp.order]
  revert hitems hfilters
  generalize p.items d.element = items
  generalize q.items d.element = items'
  generalize p.filters = filters
  generalize q.filters = filters'
  intro hitems hfilters
  cases hitems with
  | nil => exact .error _ _
  | cons hitem hrest =>
      have hcolumns := Projection.columns_eq_of_alike (.cons hitem hrest)
      refine .ok ⟨?_, hcolumns, ?_⟩
      · simp only [Statement.sql, Statement.selectText, Statement.columns, hcolumns,
          Statement.whereText, texts_eq_of_alike hfilters, isEmpty_eq_of_forall₂ hfilters,
          Statement.orderText]
      · exact List.rel_append (Projection.values_alike (.cons hitem hrest))
          (filtered_alike hfilters)

/-- What a literal holds is not written: alike chains are refused together, or compile to statements
of one text with the same columns and alike parameters. -/
theorem agree_compileFor (plain : ∀ t, options.isContainer t = false) {e f : Expr} (h : e.Alike f)
    (d : Descriptor) : Agree Statement.Alike (compileFor options e d) (compileFor options f d) := by
  unfold compileFor
  refine (agree_stepsBefore h .nil).bind fun _ _ hsteps => ?_
  exact (Progress.agree_run plain Progress.alike_start hsteps).bind fun _ _ hp =>
    Progress.agree_finish hp d

/-- People with a number and one of two names, of which the second is null. -/
def peopleWith (number name : Value) : Expr :=
  let row : Expr := .param ⟨"x", peopleDescriptor.element⟩
  (Expr.ofDescriptor peopleDescriptor).applyAll
    [(.filter, .predicateOver row (.binary .andAlso
      (.binary .equal (row.access "Id") (.const number))
      (.contains (.const (.array [name, .null])) (row.access "Name"))))]

theorem peopleWith_alike {number name number' name' : Value} (hnumber : number.Alike number')
    (hname : name.Alike name') : (peopleWith number name).Alike (peopleWith number' name') := by
  have hnames : List.Forall₂ Value.Alike [name, .null] [name', .null] :=
    .cons hname (.cons .null .nil)
  obtain ⟨length, alike⟩ := Value.forall₂_alike_iff.mp hnames
  refine .call_pair _ _ (.const (.refl _)) (.lambda _ _ _ (.binary _ ?_ (.call_pair _ _ ?_ ?_)))
  · exact .binary _ (.member _ (.param _)) (.const hnumber)
  · exact .const (.array length alike)
  · exact .member _ (.param _)

theorem agree_compileFor_peopleWith :
    Agree Statement.Alike
        (compileFor Options.default (peopleWith (.integer 7) (.text "a")) peopleDescriptor)
        (compileFor Options.default (peopleWith (.text "7) OR (1 = 1") (.boolean true))
          peopleDescriptor) ∧
      ∃ s,
        compileFor Options.default (peopleWith (.integer 7) (.text "a")) peopleDescriptor = .ok s ∧
        s.params = [.integer 7, .text "a"] :=
  ⟨agree_compileFor (fun _ => rfl) (peopleWith_alike (.plain rfl rfl) (.plain rfl rfl)) _,
    _, rfl, rfl⟩

end Query

end BoundSql
