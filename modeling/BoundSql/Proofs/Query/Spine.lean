import BoundSql.Proofs.Query.Interleaving
import Mathlib.Data.List.Induction

set_option autoImplicit false

/-!
# The spine of a chain

The operators of a chain are collected along the first arguments of its calls, down to a base that
is no call of an operator.  The dataset is looked for on its own, as the first constant of the whole
tree.  So an expression compiles to what its operators compile to over the dataset that is found,
whatever the base is (`compile_eq_ok_iff_spine`); the base is the dataset itself exactly in the
chains that are rooted in it.
-/

namespace BoundSql

theorem QueryOperator.method_of_ofMethod? {method : String} {op : QueryOperator}
    (h : ofMethod? method = some op) : op.method = method := by
  unfold ofMethod? at h
  split at h <;> cases h <;> rfl

theorem TypeRef.eq_queryable {t : TypeRef} (h : t.isQueryable = true) : t = .queryable := by
  cases t with
  | named name => rw [show name = "Queryable" by simpa [isQueryable] using h]
  | scalar _ | nullable _ | list _ | record _ _ _ => simp [isQueryable] at h

namespace Expr

/-- Is the expression a call on the type that declares the query operators? -/
def isOperatorCall : Expr → Bool
  | .call declaring _ _ => declaring.isQueryable
  | _ => false

/-- The expression is a chain of operators over a dataset. -/
def IsRooted (e : Expr) : Prop := ∃ d ops, e = (ofDescriptor d).applyAll ops

theorem applyAll_concat (base : Expr) (ops : List (QueryOperator × Expr))
    (o : QueryOperator × Expr) :
    base.applyAll (ops ++ [o]) = (base.applyAll ops).apply o.1 o.2 := by
  simp [applyAll]

theorem firstConst?_apply_eq (source argument : Expr) (op : QueryOperator) :
    (source.apply op argument).firstConst? = source.firstConst?.or argument.firstConst? := by
  simp only [firstConst?, apply, preorder, preorderAll, List.findSome?_cons, List.findSome?_append,
    asConst?, List.append_nil]

/-- The first constant of a chain is looked for in the base and then in the arguments, in the order
in which the operators apply. -/
theorem firstConst?_applyAll_eq (base : Expr) (ops : List (QueryOperator × Expr)) :
    (base.applyAll ops).firstConst? = (base :: ops.map (·.2)).findSome? firstConst? := by
  induction ops using List.reverseRecOn with
  | nil => simp [applyAll]
  | append_singleton ops o ih =>
      rw [applyAll_concat, firstConst?_apply_eq, ih, List.map_append, ← List.cons_append,
        List.findSome?_append]
      simp

theorem root_eq_ok_iff {e : Expr} {d : Descriptor} :
    e.root = .ok d ↔ e.firstConst? = some (.query d.dataset d.element) := by
  unfold root
  split
  · rename_i dataset element h
    obtain ⟨dataset', element'⟩ := d
    simp [h]
  · rename_i v hne h
    simpa [h] using hne d.dataset d.element
  · rename_i h
    simp [h]

/-- An expression has one base: what is left when all operators are taken away. -/
theorem base_eq_of_applyAll_eq {base other : Expr} (hbase : base.isOperatorCall = false)
    (hother : other.isOperatorCall = false) {ops others : List (QueryOperator × Expr)}
    (h : base.applyAll ops = other.applyAll others) : base = other := by
  induction ops using List.reverseRecOn generalizing others with
  | nil =>
      cases others using List.reverseRecOn with
      | nil => exact h
      | append_singleton others o =>
          rw [applyAll_concat] at h
          rw [show base = _ from h] at hbase
          simp [apply, isOperatorCall, TypeRef.isQueryable] at hbase
  | append_singleton ops o ih =>
      rw [applyAll_concat] at h
      cases others using List.reverseRecOn with
      | nil =>
          rw [show other = _ from h.symm] at hother
          simp [apply, isOperatorCall, TypeRef.isQueryable] at hother
      | append_singleton others o' =>
          rw [applyAll_concat] at h
          simp only [apply, call.injEq, List.cons.injEq] at h
          exact ih h.2.2.1

/-- A chain is rooted exactly when its base is the constant of a dataset. -/
theorem isRooted_applyAll_iff {base : Expr} (hbase : base.isOperatorCall = false)
    (ops : List (QueryOperator × Expr)) :
    (base.applyAll ops).IsRooted ↔ ∃ d, base = ofDescriptor d := by
  constructor
  · rintro ⟨d, others, h⟩
    exact ⟨d, base_eq_of_applyAll_eq hbase rfl h⟩
  · rintro ⟨d, rfl⟩
    exact ⟨d, ops, rfl⟩

end Expr

namespace Query

variable {options : Options} {rowType : TypeRef} {p q : Progress} {s : Step}

/-- Every step that is taken is one of the operators. -/
theorem Takes.exists_operator (h : Takes options rowType p s q) :
    ∃ op, QueryOperator.ofMethod? s.method = some op := by
  cases h with
  | filter named _ _ _ | skip named _ _ | select named _ _ _ | orderBy named _ _
  | thenBy named _ _ | orderByOff named _ | thenByOff named _ => exact ⟨_, named⟩

theorem exists_operator_of_run {ss : List Step} :
    ∀ {p : Progress}, run options rowType p ss = .ok q →
      ∀ s ∈ ss, ∃ op, QueryOperator.ofMethod? s.method = some op := by
  induction ss with
  | nil => simp
  | cons s ss ih =>
      intro p h
      obtain ⟨mid, htakes, hrun⟩ := run_cons_eq_ok_iff.mp h
      exact List.forall_mem_cons.mpr ⟨htakes.exists_operator, ih hrun⟩

theorem stepsBefore_of_not_isOperatorCall {base : Expr} (h : base.isOperatorCall = false)
    (later : List Step) : stepsBefore later base = .ok later := by
  cases base with
  | call declaring method args =>
      unfold stepsBefore
      simp [show declaring.isQueryable = false from h]
  | _ => rfl

/-- Where all steps are operators, an expression is a base with these operators applied to it. -/
theorem exists_applyAll_of_stepsBefore {ss : List Step}
    (operators : ∀ s ∈ ss, ∃ op, QueryOperator.ofMethod? s.method = some op) :
    ∀ {e : Expr} {later : List Step}, stepsBefore later e = .ok ss →
      ∃ (base : Expr) (ops : List (QueryOperator × Expr)), base.isOperatorCall = false ∧
        e = base.applyAll ops ∧ ss = ops.map Step.ofOperator ++ later
  | .call declaring method [source, argument], later, h => by
      cases hqueryable : declaring.isQueryable with
      | false => exact alone hqueryable h
      | true =>
          simp only [stepsBefore, hqueryable, if_true] at h
          obtain ⟨base, ops, hbase, rfl, hss⟩ := exists_applyAll_of_stepsBefore operators h
          obtain ⟨op, hop⟩ := operators ⟨method, argument⟩ (by simp [hss])
          refine ⟨base, ops ++ [(op, argument)], hbase, ?_, ?_⟩
          · rw [Expr.applyAll_concat, Expr.apply, QueryOperator.method_of_ofMethod? hop,
              TypeRef.eq_queryable hqueryable]
          · simp [hss, Step.ofOperator, QueryOperator.method_of_ofMethod? hop]
  | .call declaring method [], later, h | .call declaring method [_], later, h
  | .call declaring method (_ :: _ :: _ :: _), later, h => by
      cases hqueryable : declaring.isQueryable with
      | false => exact alone hqueryable h
      | true => simp [stepsBefore, hqueryable] at h
  | .const _, _, h | .param _, _, h | .member _ _, _, h | .staticMember _, _, h
  | .binary _ _ _, _, h | .lambda _ _ _ _, _, h | .record _ _, _, h | .construct _ _ _, _, h
  | .cond _ _ _, _, h => alone rfl h
termination_by e => sizeOf e
where
  alone {base : Expr} {later : List Step} (hbase : base.isOperatorCall = false)
      (h : stepsBefore later base = .ok ss) :
      ∃ (b : Expr) (ops : List (QueryOperator × Expr)), b.isOperatorCall = false ∧
        base = b.applyAll ops ∧ ss = ops.map Step.ofOperator ++ later := by
    rw [stepsBefore_of_not_isOperatorCall hbase] at h
    exact ⟨base, [], hbase, rfl, (Except.ok.inj h).symm⟩

/-- The steps of a chain are its operators, whatever its base is. -/
theorem steps_applyAll_of_base {base : Expr} (h : base.isOperatorCall = false)
    (ops : List (QueryOperator × Expr)) :
    steps (base.applyAll ops) = .ok (ops.map Step.ofOperator) := by
  rw [steps, stepsBefore_applyAll, stepsBefore_of_not_isOperatorCall h, List.append_nil]

/-- Operators compile over a base as they do over the dataset that is found in the tree. -/
theorem compile_applyAll_eq {base : Expr} (hbase : base.isOperatorCall = false)
    {ops : List (QueryOperator × Expr)} {d : Descriptor}
    (hroot : (base.applyAll ops).root = .ok d) :
    compile options (base.applyAll ops) = compile options ((Expr.ofDescriptor d).applyAll ops) := by
  simp only [compile, compileFor, hroot, Expr.root_applyAll, steps_applyAll_of_base hbase,
    steps_applyAll_of_base (show (Expr.ofDescriptor d).isOperatorCall = false from rfl)]

theorem dataset_of_compile_applyAll {d : Descriptor} {ops : List (QueryOperator × Expr)}
    {s : Statement} (h : compile options ((Expr.ofDescriptor d).applyAll ops) = .ok s) :
    s.dataset = d.dataset := by
  obtain ⟨p, -, -, rfl⟩ := compile_applyAll_eq_ok_iff.mp h
  rfl

/-- A compiled expression is a base with operators applied to it: none of its calls on the type of
the operators is left out, and each of them has two arguments. -/
theorem exists_applyAll_of_compile {e : Expr} {s : Statement} (h : compile options e = .ok s) :
    ∃ (base : Expr) (ops : List (QueryOperator × Expr)), base.isOperatorCall = false ∧
      e = base.applyAll ops := by
  obtain ⟨d, -, hcompile⟩ := bind_eq_ok_iff.mp h
  obtain ⟨ss, p, hsteps, hrun, -, -⟩ := compileFor_eq_ok_iff.mp hcompile
  obtain ⟨base, ops, hbase, he, -⟩ :=
    exists_applyAll_of_stepsBefore (exists_operator_of_run hrun) hsteps
  exact ⟨base, ops, hbase, he⟩

/-- An expression compiles exactly when it is a base with operators applied to it, the first
constant in the base and then in the arguments is a dataset, and these operators compile over that
dataset.  It compiles to their statement over the dataset, and is rooted only where the base is the
dataset itself: of any other base nothing but a constant is ever looked at. -/
theorem compile_eq_ok_iff_spine {e : Expr} {s : Statement} :
    compile options e = .ok s ↔
      ∃ (base : Expr) (ops : List (QueryOperator × Expr)) (d : Descriptor),
        base.isOperatorCall = false ∧ e = base.applyAll ops ∧
        (base :: ops.map (·.2)).findSome? Expr.firstConst? = some (.query d.dataset d.element) ∧
        compile options ((Expr.ofDescriptor d).applyAll ops) = .ok s ∧ s.dataset = d.dataset ∧
        (e.IsRooted ↔ base = Expr.ofDescriptor d) := by
  constructor
  · intro h
    obtain ⟨base, ops, hbase, rfl⟩ := exists_applyAll_of_compile h
    obtain ⟨d, hroot, -⟩ := bind_eq_ok_iff.mp h
    have hfirst := Expr.root_eq_ok_iff.mp hroot
    rw [Expr.firstConst?_applyAll_eq] at hfirst
    have hover := h
    rw [compile_applyAll_eq hbase hroot] at hover
    refine ⟨base, ops, d, hbase, rfl, hfirst, hover, dataset_of_compile_applyAll hover, ?_⟩
    rw [Expr.isRooted_applyAll_iff hbase]
    constructor
    · -- A base that is a dataset is itself the first constant of the tree.
      rintro ⟨d', rfl⟩
      rw [Except.ok.inj ((Expr.root_applyAll d' ops).symm.trans hroot)]
    · rintro rfl
      exact ⟨d, rfl⟩
  · rintro ⟨base, ops, d, hbase, rfl, hfirst, hover, -, -⟩
    rw [← Expr.firstConst?_applyAll_eq] at hfirst
    rw [compile_applyAll_eq hbase (Expr.root_eq_ok_iff.mpr hfirst)]
    exact hover

/-- A filter that stands behind a call on another type is not in the statement. -/
theorem compile_eq_ok_iff_spine_distinct :
    let distinct : Expr := .call (.named "Enumerable") "Distinct"
      [(Expr.ofDescriptor peopleDescriptor).applyAll [highId]]
    ¬ (distinct.applyAll [onlyName]).IsRooted ∧
      ∃ s, compile Options.default (distinct.applyAll [onlyName]) = .ok s ∧
        s.sql = "SELECT Name AS Name FROM people" := by
  intro distinct
  have hbase : distinct.isOperatorCall = false := rfl
  have hover : compile Options.default ((Expr.ofDescriptor peopleDescriptor).applyAll [onlyName]) =
      .ok _ := rfl
  have hne (d : Descriptor) : distinct ≠ Expr.ofDescriptor d := by
    simp [distinct, Expr.ofDescriptor]
  have hnot : ¬ (distinct.applyAll [onlyName]).IsRooted := by
    rw [Expr.isRooted_applyAll_iff hbase]
    rintro ⟨d, hd⟩
    exact hne d hd
  refine ⟨hnot, _, compile_eq_ok_iff_spine.mpr
    ⟨distinct, [onlyName], peopleDescriptor, hbase, rfl, rfl, hover, rfl, ?_⟩, rfl⟩
  exact iff_of_false hnot (hne peopleDescriptor)

end Query

end BoundSql
