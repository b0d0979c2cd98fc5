import BoundSql.Proofs.Filter.Shape
import BoundSql.Proofs.Query.Placeholders
import Mathlib.Data.List.Forall2

set_option autoImplicit false

/-!
# Conditions are readable

A chain can be filtered further by predicates that are made of columns, literals, operators and
memberships.  The condition that is written for them and the values that it binds say exactly which
predicates these were, up to their shapes: nothing is regrouped, dropped or run together.
-/

namespace BoundSql

/-- The values that the filters of a statement bind, in order. -/
def Statement.filterParams (s : Statement) : List Value := s.filters.flatMap Filter.Operand.values

namespace Query

open Text

variable {options : Options} {rowType : TypeRef}

/-- The chain filtered by one predicate after another. -/
def filteredBy (chain : Expr) (predicates : List Expr) : Expr :=
  chain.applyAll (predicates.map fun predicate => (.filter, predicate))

/-! ## More filters -/

/-- Steps that are known to come later do not change how a chain is read. -/
theorem stepsBefore_append (later : List Step) : ∀ (chain : Expr) (earlier : List Step),
    stepsBefore (earlier ++ later) chain = (· ++ later) <$> stepsBefore earlier chain
  | .call declaring method [source, argument], earlier => by
      have hsource := stepsBefore_append later source (⟨method, argument⟩ :: earlier)
      cases hqueryable : declaring.isQueryable with
      | true => simpa [stepsBefore, hqueryable] using hsource
      | false => simp [stepsBefore, hqueryable]
  | .call declaring method [], earlier | .call declaring method [_], earlier
  | .call declaring method (_ :: _ :: _ :: _), earlier => by
      cases hqueryable : declaring.isQueryable with
      | true => simp [stepsBefore, hqueryable]
      | false => simp [stepsBefore, hqueryable]
  | .const _, _ | .param _, _ | .member _ _, _ | .staticMember _, _ | .binary _ _ _, _
  | .lambda _ _ _ _, _ | .record _ _, _ | .construct _ _ _, _ | .cond _ _ _, _ => rfl
termination_by chain => sizeOf chain

theorem steps_filteredBy {chain : Expr} {ss : List Step} (h : steps chain = .ok ss)
    (predicates : List Expr) :
    steps (filteredBy chain predicates) =
      .ok (ss ++ predicates.map (Step.mk QueryOperator.filter.method)) := by
  have happend := stepsBefore_append (predicates.map (Step.mk QueryOperator.filter.method)) chain []
  rw [List.nil_append, show stepsBefore [] chain = .ok ss from h] at happend
  rw [steps, filteredBy, stepsBefore_applyAll, List.append_nil, List.map_map]
  exact happend

/-- Filters add their clauses, whatever was gathered before. -/
theorem run_filters (p : Progress) {predicates : List Expr} {clauses : List Filter.Operand}
    (h : List.Forall₂ (fun predicate clause => Filter.clause? rowType predicate = .ok (some clause))
      predicates clauses) :
    run options rowType p (predicates.map (Step.mk QueryOperator.filter.method)) =
      .ok { p with filters := p.filters ++ clauses } := by
  induction h generalizing p with
  | nil => simp [run]; rfl
  | @cons predicate clause predicates clauses hclause _ ih =>
      obtain ⟨f, argument, tests, reads⟩ := Filter.clause?_eq_some_iff.mp hclause
      refine run_cons_eq_ok_iff.mpr ⟨_, .filter rfl argument tests reads, ?_⟩
      rw [ih, List.append_assoc, List.singleton_append]

/-- A filtered chain compiles to the statement of the chain with the further clauses. -/
theorem compileFor_filteredBy {chain : Expr} {d : Descriptor} {s : Statement}
    (h : compileFor options chain d = .ok s) {predicates : List Expr}
    {clauses : List Filter.Operand}
    (hclauses : List.Forall₂ (fun predicate clause =>
      Filter.clause? d.element predicate = .ok (some clause)) predicates clauses) :
    compileFor options (filteredBy chain predicates) d =
      .ok { s with filters := s.filters ++ clauses } := by
  obtain ⟨ss, p, hsteps, hrun, hitems, rfl⟩ := compileFor_eq_ok_iff.mp h
  have hmore : run options d.element Progress.start
      (ss ++ predicates.map (Step.mk QueryOperator.filter.method)) =
        .ok { p with filters := p.filters ++ clauses } :=
    run_append_eq_ok_iff.mpr ⟨p, hrun, run_filters p hclauses⟩
  exact compileFor_eq_ok_iff.mpr
    ⟨_, _, steps_filteredBy hsteps predicates, hmore, hitems, rfl⟩

/-! ## Conditions -/

/-- The text of the clauses, each behind an `AND`. -/
def conjoined (clauses : List Filter.Operand) : List Char :=
  clauses.flatMap fun clause => " AND ".toList ++ clause.text.toList

theorem toList_whereText (s : Statement) :
    s.whereText.toList =
      match s.filters with
      | [] => []
      | clause :: clauses => " WHERE ".toList ++ (clause.text.toList ++ conjoined clauses) := by
  unfold Statement.whereText
  cases s.filters with
  | nil => rfl
  | cons clause clauses =>
      simp [toList_joinWith_cons, conjoined, List.flatMap_map]

/-- What follows the same clauses in two conditions of one text is the same. -/
theorem conjoined_eq_of_whereText_eq {s : Statement} {clauses others : List Filter.Operand}
    (h : Statement.whereText { s with filters := s.filters ++ clauses } =
      Statement.whereText { s with filters := s.filters ++ others }) :
    conjoined clauses = conjoined others := by
  have htext := congrArg String.toList h
  rw [toList_whereText, toList_whereText] at htext
  dsimp only at htext
  cases hfilters : s.filters with
  | cons first rest =>
      simp only [hfilters, List.cons_append, conjoined, List.flatMap_append] at htext
      exact List.append_cancel_left (List.append_cancel_left (List.append_cancel_left htext))
  | nil =>
      rw [hfilters, List.nil_append, List.nil_append] at htext
      cases clauses with
      | nil =>
          cases others with
          | nil => rfl
          | cons other others => simp at htext
      | cons clause clauses =>
          cases others with
          | nil => simp at htext
          | cons other others =>
              have hrest := List.append_cancel_left htext
              unfold conjoined at hrest ⊢
              rw [List.flatMap_cons, List.flatMap_cons, List.append_assoc, List.append_assoc, hrest]

/-- Predicates have legible clauses, which their shapes decide. -/
theorem exists_clauses_of_erases {predicates : List Expr} {shapes : List Filter.Shape}
    (h : List.Forall₂ (Filter.ErasesPredicate rowType) predicates shapes) :
    ∃ clauses, List.Forall₂ (fun predicate clause =>
        Filter.clause? rowType predicate = .ok (some clause)) predicates clauses ∧
      (∀ clause ∈ clauses, clause.Legible) ∧
      shapes.map Filter.Shape.operand? = clauses.map some := by
  induction h with
  | nil => exact ⟨[], .nil, by simp, rfl⟩
  | @cons predicate shape predicates shapes herases _ ih =>
      obtain ⟨clauses, hclauses, legible, hshapes⟩ := ih
      obtain ⟨clause, hshape, hclause, legibleClause⟩ := Filter.exists_clause_of_erases herases
      refine ⟨clause :: clauses, .cons hclause hclauses, ?_, ?_⟩
      · exact List.forall_mem_cons.mpr ⟨legibleClause, legible⟩
      · rw [List.map_cons, List.map_cons, hshape, hshapes]

/-- Shapes are known from their operands. -/
theorem shapes_eq_of_operands {shapes others : List Filter.Shape} {clauses : List Filter.Operand}
    (h : shapes.map Filter.Shape.operand? = clauses.map some)
    (h' : others.map Filter.Shape.operand? = clauses.map some) : shapes = others := by
  induction clauses generalizing shapes others with
  | nil =>
      rw [List.map_nil, List.map_eq_nil_iff] at h h'
      rw [h, h']
  | cons clause clauses ih =>
      obtain ⟨shape, shapes, rfl, hshape, hshapes⟩ := List.map_eq_cons_iff.mp h
      obtain ⟨other, others, rfl, hother, hothers⟩ := List.map_eq_cons_iff.mp h'
      rw [Filter.Shape.operand?_inj hshape hother, ih hshapes hothers]

/-- The condition and its values say exactly which predicates a chain was filtered by: for two lists
of predicates they are the same if and only if the predicates have the same shapes in order. -/
theorem condition_eq_iff_shapes_eq {chain : Expr} {d : Descriptor} {s : Statement}
    (h : compileFor options chain d = .ok s) {ps qs : List Expr} {ts us : List Filter.Shape}
    (hp : List.Forall₂ (Filter.ErasesPredicate d.element) ps ts)
    (hq : List.Forall₂ (Filter.ErasesPredicate d.element) qs us) :
    ∃ s₁ s₂, compileFor options (filteredBy chain ps) d = .ok s₁ ∧
      compileFor options (filteredBy chain qs) d = .ok s₂ ∧
      (s₁.whereText = s₂.whereText ∧ s₁.filterParams = s₂.filterParams ↔ ts = us) := by
  obtain ⟨clauses, hclauses, legible, hts⟩ := exists_clauses_of_erases hp
  obtain ⟨others, hothers, legibleOthers, hus⟩ := exists_clauses_of_erases hq
  refine ⟨_, _, compileFor_filteredBy h hclauses, compileFor_filteredBy h hothers, ?_⟩
  constructor
  · rintro ⟨htext, hvalues⟩
    simp only [Statement.filterParams, List.flatMap_append] at hvalues
    obtain rfl := Filter.clauses_append_inj legible legibleOthers
      (conjoined_eq_of_whereText_eq htext) (List.append_cancel_left hvalues)
    exact shapes_eq_of_operands hts hus
  · rintro rfl
    obtain rfl : clauses = others :=
      (List.map_inj_right fun _ _ => Option.some.inj).mp (hts.symm.trans hus)
    exact ⟨rfl, rfl⟩

/-- A row of people. -/
def personRow : Expr := .param ⟨"x", peopleDescriptor.element⟩

/-- The test that the number of a person is not 7. -/
def numberTest : Expr := .binary .notEqual (personRow.access "Id") (.const (.integer 7))

/-- The test that a person has no name. -/
def nameTest : Expr := .binary .equal (personRow.access "Name") (.const .null)

theorem erases_numberTest : Filter.Erases peopleDescriptor.element numberTest
    (.bin .notEqual (.col "Id") (.lit (.integer 7))) := by
  have hname : IsIdentifier "Id" := by simp [IsIdentifier]
  exact .binary (by decide) (.column rfl hname.isWord (by decide)) (.value rfl rfl rfl)

theorem erases_nameTest : Filter.Erases peopleDescriptor.element nameTest
    (.bin .equal (.col "Name") .null) := by
  have hname : IsIdentifier "Name" := by simp [IsIdentifier]
  exact .binary (by decide) (.column rfl hname.isWord (by decide)) (.null rfl rfl rfl)

theorem erasesPredicate_predicateOver {body : Expr} {t : Filter.Shape} (row : Expr)
    (h : Filter.Erases rowType body t) :
    Filter.ErasesPredicate rowType (.predicateOver row body) t :=
  ⟨⟨row.toParameter, .bool, body, none⟩, rfl, rfl, h⟩

/-- Two tests in one predicate are not confused with two predicates of one test each. -/
theorem condition_ne_of_joined_tests :
    ∃ s₁ s₂,
      compileFor Options.default (filteredBy peopleQuery
        [.predicateOver personRow (.binary .andAlso numberTest nameTest)]) peopleDescriptor =
          .ok s₁ ∧
      compileFor Options.default (filteredBy peopleQuery
        [.predicateOver personRow numberTest, .predicateOver personRow nameTest])
          peopleDescriptor = .ok s₂ ∧
      ¬ (s₁.whereText = s₂.whereText ∧ s₁.filterParams = s₂.filterParams) := by
  have hboth : Filter.Erases peopleDescriptor.element (.binary .andAlso numberTest nameTest) _ :=
    .binary (by decide) erases_numberTest erases_nameTest
  obtain ⟨s₁, s₂, h₁, h₂, hiff⟩ := condition_eq_iff_shapes_eq
    (show compileFor Options.default peopleQuery peopleDescriptor = .ok _ from rfl)
    (.cons (erasesPredicate_predicateOver personRow hboth) .nil)
    (.cons (erasesPredicate_predicateOver personRow erases_numberTest)
      (.cons (erasesPredicate_predicateOver personRow erases_nameTest) .nil))
  exact ⟨s₁, s₂, h₁, h₂, fun h => by simpa using hiff.mp h⟩

end Query

end BoundSql
