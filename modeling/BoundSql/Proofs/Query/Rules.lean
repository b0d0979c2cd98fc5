import BoundSql.Proofs.Filter.Rules
import BoundSql.Query.Compile
import Mathlib.Data.List.ReduceOption

set_option autoImplicit false

/-!
# The rules of steps

`Takes options rowType p s q` says by rules, one for each effect that a step can have, that the step
`s` leads from the progress `p` to the progress `q`.  The main statements are `step_eq_ok_iff`, that
these are all effects of a step, and `compileFor_eq_ok_iff`, that a compiled statement is what a run
of steps from the start has gathered.
-/

namespace BoundSql.Query

open Progress

/-- The keys that a lambda orders by: one or none. -/
def orderKeys (rowType : TypeRef) (key : Lambda) (descending : Bool) : List OrderKey :=
  ((orderColumn? rowType key.body).map fun column => ⟨column, descending⟩).toList

/-- What a step can do. -/
inductive Takes (options : Options) (rowType : TypeRef) (p : Progress) (s : Step) :
    Progress → Prop where
  | filter {f : Lambda} {o : Filter.Operand}
      (named : QueryOperator.ofMethod? s.method = some .filter)
      (argument : s.argument.asLambda? = some f) (tests : f.returns.isBool = true)
      (reads : Filter.Reads rowType f.body o) :
      Takes options rowType p s { p with filters := p.filters ++ [o] }
  /-- A filter that tests nothing is passed over. -/
  | skip {f : Lambda} (named : QueryOperator.ofMethod? s.method = some .filter)
      (argument : s.argument.asLambda? = some f) (tests : f.returns.isBool = false) :
      Takes options rowType p s p
  | select {f : Lambda} {items : List Projection.Item}
      (named : QueryOperator.ofMethod? s.method = some .select) (first : p.projection = none)
      (argument : s.argument.asLambda? = some f)
      (collected : Projection.collect options rowType f.body [] = ⟨items, none⟩) :
      Takes options rowType p s { p with projection := some (f, items) }
  | orderBy {f : Lambda} {descending : Bool}
      (named : QueryOperator.ofMethod? s.method = some (.orderBy descending))
      (on : options.ordering = true) (argument : s.argument.asLambda? = some f) :
      Takes options rowType p s { p with order := orderKeys rowType f descending }
  | thenBy {f : Lambda} {descending : Bool}
      (named : QueryOperator.ofMethod? s.method = some (.thenBy descending))
      (on : options.ordering = true) (argument : s.argument.asLambda? = some f) :
      Takes options rowType p s { p with order := p.order ++ orderKeys rowType f descending }
  | orderByOff {descending : Bool}
      (named : QueryOperator.ofMethod? s.method = some (.orderBy descending))
      (off : options.ordering = false) : Takes options rowType p s { p with order := [] }
  | thenByOff {descending : Bool}
      (named : QueryOperator.ofMethod? s.method = some (.thenBy descending))
      (off : options.ordering = false) : Takes options rowType p s p

variable {options : Options} {rowType : TypeRef} {p q : Progress} {s : Step}

theorem addFilter_eq_ok_iff {predicate : Expr} :
    p.addFilter rowType predicate = .ok q ↔
      ∃ clause?, Filter.clause? rowType predicate = .ok clause? ∧
        q = { p with filters := p.filters ++ clause?.toList } := by
  unfold addFilter
  simp only [bind_eq_ok_iff, pure, Except.pure, Except.ok.injEq]
  exact exists_congr fun clause? => and_congr_right fun _ => eq_comm

theorem setProjection_eq_ok_iff {projection : Expr} :
    p.setProjection options rowType projection = .ok q ↔
      ∃ f items, p.projection = none ∧ projection.asLambda? = some f ∧
        Projection.collect options rowType f.body [] = ⟨items, none⟩ ∧
        q = { p with projection := some (f, items) } := by
  unfold setProjection
  constructor
  · intro h
    split at h
    · simp at h
    · simp at h
    · rename_i f hfirst hlambda
      dsimp only at h
      split at h
      · simp at h
      · rename_i herror
        refine ⟨f, _, hfirst, hlambda, ?_, (Except.ok.inj h).symm⟩
        exact congrArg (Projection.Collected.mk _) herror
  · rintro ⟨f, items, hfirst, hlambda, hcollect, rfl⟩
    simp only [hfirst, hlambda, hcollect]

theorem addOrder_eq_ok_iff {key : Expr} {descending : Bool} :
    p.addOrder options rowType key descending = .ok q ↔
      (options.ordering = false ∧ q = p) ∨
      ∃ f, options.ordering = true ∧ key.asLambda? = some f ∧
        q = { p with order := p.order ++ orderKeys rowType f descending } := by
  unfold addOrder
  cases options.ordering with
  | false => simp [eq_comm]
  | true =>
      cases key.asLambda? with
      | none => simp
      | some f => simp [orderKeys, eq_comm]

/-- A step does what the rules say, and nothing else. -/
theorem step_eq_ok_iff : step options rowType p s = .ok q ↔ Takes options rowType p s q := by
  unfold step
  constructor
  · intro h
    split at h
    · rename_i named
      obtain ⟨clause?, hclause, rfl⟩ := addFilter_eq_ok_iff.mp h
      cases clause? with
      | none =>
          obtain ⟨f, hlambda, tests⟩ := Filter.clause?_eq_none_iff.mp hclause
          simpa using Takes.skip named hlambda tests
      | some o =>
          obtain ⟨f, hlambda, tests, reads⟩ := Filter.clause?_eq_some_iff.mp hclause
          exact .filter named hlambda tests reads
    · rename_i named
      obtain ⟨f, items, hfirst, hlambda, hcollect, rfl⟩ := setProjection_eq_ok_iff.mp h
      exact .select named hfirst hlambda hcollect
    · rename_i descending named
      rcases addOrder_eq_ok_iff.mp h with ⟨off, rfl⟩ | ⟨f, on, hlambda, rfl⟩
      · exact .orderByOff named off
      · exact .orderBy named on hlambda
    · rename_i descending named
      rcases addOrder_eq_ok_iff.mp h with ⟨off, rfl⟩ | ⟨f, on, hlambda, rfl⟩
      · exact .thenByOff named off
      · exact .thenBy named on hlambda
    · simp at h
  · intro h
    cases h with
    | filter named argument tests reads =>
        simp only [named]
        exact addFilter_eq_ok_iff.mpr
          ⟨_, Filter.clause?_eq_some_iff.mpr ⟨_, argument, tests, reads⟩, rfl⟩
    | skip named argument tests =>
        simp only [named]
        exact addFilter_eq_ok_iff.mpr
          ⟨_, Filter.clause?_eq_none_iff.mpr ⟨_, argument, tests⟩, by simp⟩
    | select named first argument collected =>
        simp only [named]
        exact setProjection_eq_ok_iff.mpr ⟨_, _, first, argument, collected, rfl⟩
    | orderBy named on argument =>
        simp only [named]
        exact addOrder_eq_ok_iff.mpr (.inr ⟨_, on, argument, rfl⟩)
    | thenBy named on argument =>
        simp only [named]
        exact addOrder_eq_ok_iff.mpr (.inr ⟨_, on, argument, rfl⟩)
    | orderByOff named off =>
        simp only [named]
        exact addOrder_eq_ok_iff.mpr (.inl ⟨off, rfl⟩)
    | thenByOff named off =>
        simp only [named]
        exact addOrder_eq_ok_iff.mpr (.inl ⟨off, rfl⟩)

/-! ## Runs -/

/-- The progress after a run of steps. -/
def run (options : Options) (rowType : TypeRef) (p : Progress) (ss : List Step) :
    Except CompileError Progress :=
  ss.foldlM (step options rowType) p

theorem run_cons_eq_ok_iff {ss : List Step} :
    run options rowType p (s :: ss) = .ok q ↔
      ∃ mid, Takes options rowType p s mid ∧ run options rowType mid ss = .ok q := by
  simp only [run, List.foldlM_cons, bind_eq_ok_iff, step_eq_ok_iff]

theorem run_append_eq_ok_iff {ss ts : List Step} :
    run options rowType p (ss ++ ts) = .ok q ↔
      ∃ mid, run options rowType p ss = .ok mid ∧ run options rowType mid ts = .ok q := by
  simp only [run, List.foldlM_append, bind_eq_ok_iff]

/-- A projection sets the items that are collected from its body. -/
theorem exists_items_of_run {projection : Expr}
    (h : run options rowType p [⟨QueryOperator.select.method, projection⟩] = .ok q) :
    ∃ f items, projection.asLambda? = some f ∧
      Projection.collect options rowType f.body [] = ⟨items, none⟩ ∧
      q = { p with projection := some (f, items) } := by
  obtain ⟨mid, htakes, hrun⟩ := run_cons_eq_ok_iff.mp h
  obtain ⟨f, items, -, hlambda, hcollect, rfl⟩ :=
    setProjection_eq_ok_iff.mp (step_eq_ok_iff.mpr htakes)
  exact ⟨f, items, hlambda, hcollect, (Except.ok.inj hrun).symm⟩

/-- A run of filters adds the clauses of those that have one. -/
theorem exists_clauses_of_run {predicates : List Expr} : ∀ {p : Progress},
    run options rowType p (predicates.map (Step.mk QueryOperator.filter.method)) = .ok q →
      ∃ clauses, List.Forall₂ (fun predicate clause? =>
          Filter.clause? rowType predicate = .ok clause?) predicates clauses ∧
        q = { p with filters := p.filters ++ clauses.reduceOption } := by
  induction predicates with
  | nil =>
      intro p h
      obtain rfl := Except.ok.inj h
      exact ⟨[], .nil, by simp⟩
  | cons predicate predicates ih =>
      intro p h
      obtain ⟨mid, htakes, hrun⟩ := run_cons_eq_ok_iff.mp h
      obtain ⟨clause?, hclause, rfl⟩ := addFilter_eq_ok_iff.mp (step_eq_ok_iff.mpr htakes)
      obtain ⟨clauses, hclauses, rfl⟩ := ih hrun
      refine ⟨clause? :: clauses, .cons hclause hclauses, ?_⟩
      cases clause? <;> simp

theorem finish_eq_ok_iff {d : Descriptor} {statement : Statement} :
    p.finish d = .ok statement ↔
      p.items d.element ≠ [] ∧
      statement = ⟨d.dataset, p.items d.element, p.filters, p.order, p.projection.map (·.1)⟩ := by
  unfold finish
  cases p.items d.element with
  | nil => simp
  | cons item items => simp [eq_comm]

/-- A compiled statement is what a run over the steps of the chain has gathered. -/
theorem compileFor_eq_ok_iff {chain : Expr} {d : Descriptor} {statement : Statement} :
    compileFor options chain d = .ok statement ↔
      ∃ ss p, steps chain = .ok ss ∧ run options d.element start ss = .ok p ∧
        p.items d.element ≠ [] ∧
        statement = ⟨d.dataset, p.items d.element, p.filters, p.order,
          p.projection.map (·.1)⟩ := by
  simp only [compileFor, bind_eq_ok_iff, finish_eq_ok_iff, run]
  constructor
  · rintro ⟨ss, hsteps, p, hrun, hitems, hstatement⟩
    exact ⟨ss, p, hsteps, hrun, hitems, hstatement⟩
  · rintro ⟨ss, p, hsteps, hrun, hitems, hstatement⟩
    exact ⟨ss, hsteps, p, hrun, hitems, hstatement⟩

end BoundSql.Query
