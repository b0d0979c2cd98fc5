import BoundSql.Proofs.Filter.History
import BoundSql.Proofs.Projection.SharedLists
import BoundSql.Proofs.Query.Rules
import BoundSql.Query.Buffers

set_option autoImplicit false

/-!
# Buffers of chains

Compiling a chain into buffers hands over what the statement of the chain says: its text, its
parameters, its columns and its projection, and it is refused with the same error
(`write_eq`).  The buffers are the views of the progress after every step (`step_buffers`), so texts
and values that are written by different steps into different lists never come apart
(`exists_buffers_of_compileFor`).
-/

namespace BoundSql

/-- What a statement hands over. -/
def Statement.written (s : Statement) : Query.Written :=
  ⟨s.sql, s.params, s.columns, s.dataset, s.projection⟩

namespace Query

open Progress

variable {options : Options} {rowType : TypeRef} {p q : Progress} {ss : List Step}

/-! ## Steps -/

/-- The buffers after the steps so far. -/
def Progress.buffers (p : Progress) : Buffers :=
  ⟨Gathered.extend ⟨[], []⟩ (p.projection.elim [] (·.2)), p.projection.map (·.1),
    p.filters.map Filter.Operand.text, p.filters.flatMap Filter.Operand.values, p.order⟩

theorem addFilter_buffers (p : Progress) (predicate : Expr) :
    p.buffers.addFilter rowType predicate = buffers <$> p.addFilter rowType predicate := by
  unfold Buffers.addFilter addFilter
  rw [Filter.Writer.compile_start]
  cases Filter.clause? rowType predicate with
  | error cause => rfl
  | ok clause? =>
      cases clause? with
      | none =>
          simp [buffers, Filter.Writer.start, bind, Except.bind, pure, Except.pure]
      | some clause =>
          simp [buffers, Filter.Writer.start, bind, Except.bind, pure, Except.pure]

theorem setProjection_buffers (p : Progress) (projection : Expr) :
    p.buffers.setProjection options rowType projection =
      buffers <$> p.setProjection options rowType projection := by
  unfold Buffers.setProjection setProjection
  cases hfirst : p.projection with
  | some first => simp [buffers, hfirst]
  | none =>
      have hselected : p.buffers.selected = ⟨[], []⟩ := by
        simp [buffers, hfirst, Gathered.extend_nil]
      rw [hselected, Gathered.project_eq]
      unfold Gathered.ending Projection.visitsOf
      cases projection.asLambda? with
      | none => simp [buffers, hfirst]
      | some f =>
          simp only [Projection.collect_eq, Projection.Collector.ofVisits_apply]
          -- Both are stopped by the same place, and record the same items up to it.
          cases Projection.stop? (Projection.visits options rowType f.body) with
          | some cause => simp [buffers, hfirst]
          | none => simp [buffers, hfirst, Gathered.labels]

theorem addOrder_buffers (p : Progress) (key : Expr) (descending : Bool) :
    p.buffers.addOrder options rowType key descending =
      buffers <$> p.addOrder options rowType key descending := by
  unfold Buffers.addOrder addOrder
  cases options.ordering with
  | false => rfl
  | true =>
      cases key.asLambda? with
      | none => rfl
      | some f => cases hcolumn : orderColumn? rowType f.body <;> simp [hcolumn, buffers]

/-- A step does to the buffers what it does to the progress. -/
theorem step_buffers (p : Progress) (s : Step) :
    p.buffers.step options rowType s = buffers <$> p.step options rowType s := by
  unfold Buffers.step Progress.step
  cases QueryOperator.ofMethod? s.method with
  | none => rfl
  | some op =>
      cases op with
      | filter => exact addFilter_buffers p s.argument
      | select => exact setProjection_buffers p s.argument
      | orderBy descending => exact addOrder_buffers { p with order := [] } s.argument descending
      | thenBy descending => exact addOrder_buffers p s.argument descending

/-! ## Runs -/

/-- A run of steps does to the buffers what it does to the progress. -/
theorem run_buffers (ss : List Step) : ∀ p : Progress,
    ss.foldlM (Buffers.step options rowType) p.buffers =
      buffers <$> run options rowType p ss := by
  induction ss with
  | nil => exact fun _ => rfl
  | cons s ss ih =>
      intro p
      rw [List.foldlM_cons, step_buffers, run, List.foldlM_cons]
      cases hstep : p.step options rowType s with
      | error cause => rfl
      | ok mid => exact ih mid

/-- Visiting a chain takes its steps in order, and finds a call that is no step before any of
them. -/
theorem visit_bind_foldlM (b : Buffers) : ∀ (e : Expr) (later : List Step),
    (b.visit options rowType e >>= later.foldlM (Buffers.step options rowType)) =
      stepsBefore later e >>= (·.foldlM (Buffers.step options rowType) b)
  | .call declaring method [source, argument], later => by
      unfold Buffers.visit stepsBefore
      split
      · -- The step waits in front of the later ones until its source has been visited.
        rw [← visit_bind_foldlM b source (⟨method, argument⟩ :: later), bind_assoc]
        simp only [List.foldlM_cons]
      · rfl
  | .call declaring method [], later => by
      unfold Buffers.visit stepsBefore
      split <;> rfl
  | .call declaring method [_], later => by
      unfold Buffers.visit stepsBefore
      split <;> rfl
  | .call declaring method (_ :: _ :: _ :: _), later => by
      unfold Buffers.visit stepsBefore
      split <;> rfl
  | .const _, _ | .param _, _ | .member _ _, _ | .staticMember _, _ | .binary _ _ _, _
  | .lambda _ _ _ _, _ | .construct _ _ _, _ | .record _ _, _ | .cond _ _ _, _ => rfl

/-- The buffers that a chain fills are those of its run. -/
theorem visit_start (chain : Expr) :
    Buffers.start.visit options rowType chain = (do
      let ss ← steps chain
      buffers <$> run options rowType start ss) := by
  have hvisit : Buffers.start.visit options rowType chain =
      steps chain >>= (·.foldlM (Buffers.step options rowType) start.buffers) := by
    rw [steps, ← visit_bind_foldlM start.buffers chain []]
    exact (bind_pure _).symm
  rw [hvisit]
  exact bind_congr fun ss => run_buffers ss start

/-! ## Statements -/

/-- Where no ordering is written, no keys are kept. -/
theorem order_of_run (off : options.ordering = false) : ∀ {p : Progress}, p.order = [] →
    run options rowType p ss = .ok q → q.order = [] := by
  induction ss with
  | nil =>
      intro p hp h
      obtain rfl := Except.ok.inj h
      exact hp
  | cons s ss ih =>
      intro p hp h
      obtain ⟨mid, htakes, hrest⟩ := run_cons_eq_ok_iff.mp h
      refine ih ?_ hrest
      cases htakes with
      | filter named argument tests reads => exact hp
      | skip named argument tests => exact hp
      | select named first argument collected => exact hp
      | orderBy named on argument => simp [off] at on
      | thenBy named on argument => simp [off] at on
      | orderByOff named off => rfl
      | thenByOff named off => exact hp

theorem columns_buffers (p : Progress) (rowType : TypeRef) :
    p.buffers.columns rowType = Projection.columns (p.items rowType) := by
  have hproperties : rowType.propertyNames.map Column.identity =
      Projection.columns (rowType.propertyNames.map Projection.Item.identity) := by
    rw [Projection.columns, List.map_map]
    rfl
  unfold Buffers.columns items buffers
  cases p.projection with
  | none => exact hproperties
  | some projected =>
      obtain ⟨f, items⟩ := projected
      cases items with
      | nil => exact hproperties
      | cons item items => rfl

/-- The values of the selected items are those of the projection; the properties of the row type
that stand in for a missing projection have none. -/
theorem params_buffers (p : Progress) (rowType : TypeRef) :
    p.buffers.selected.params = Projection.values (p.items rowType) := by
  have hproperties : [] =
      Projection.values (rowType.propertyNames.map Projection.Item.identity) := by
    rw [Projection.values, List.filterMap_map]
    exact (List.filterMap_eq_nil_iff.mpr fun name _ => rfl).symm
  unfold items buffers
  cases p.projection with
  | none => exact hproperties
  | some projected =>
      obtain ⟨f, items⟩ := projected
      cases items with
      | nil => exact hproperties
      | cons item items => rfl

theorem whereText_buffers (p : Progress) (s : Statement) (h : s.filters = p.filters) :
    p.buffers.whereText = s.whereText := by
  simp [Buffers.whereText, Statement.whereText, buffers, h]

theorem orderText_buffers (s : Statement) (h : s.order = p.order)
    (horder : options.ordering = false → p.order = []) :
    p.buffers.orderText options = s.orderText := by
  unfold Buffers.orderText Statement.orderText
  rw [h]
  cases hoptions : options.ordering with
  | false => simp [horder hoptions]
  | true => cases hempty : p.order.isEmpty <;> simp [buffers, hempty]

/-- The buffers of the last step give what the statement says, or nothing where there is none. -/
theorem finish_buffers {d : Descriptor} (horder : options.ordering = false → p.order = []) :
    p.buffers.finish options d = Statement.written <$> p.finish d := by
  unfold Buffers.finish finish
  rw [columns_buffers, params_buffers p d.element]
  cases p.items d.element with
  | nil => rfl
  | cons item items =>
      let s : Statement :=
        ⟨d.dataset, item :: items, p.filters, p.order, p.projection.map (·.1)⟩
      rw [whereText_buffers p s rfl, orderText_buffers s rfl horder]
      rfl

/-- Compiling a chain into buffers hands over what the compiled statement says, and is refused as
the statement is. -/
theorem write_eq (options : Options) (chain : Expr) (d : Descriptor) :
    write options chain d = Statement.written <$> compileFor options chain d := by
  unfold write compileFor
  rw [visit_start]
  cases steps chain with
  | error cause => rfl
  | ok ss =>
      simp only [bind, Except.bind]
      rw [← run]
      cases hrun : run options d.element start ss with
      | error cause => rfl
      | ok p =>
          have horder (off : options.ordering = false) : p.order = [] := order_of_run off rfl hrun
          exact finish_buffers horder

/-- The parts of a compiled statement are what the buffers hold after the last step of its chain:
the texts and the values of its clauses as the writers left them, its columns and the values of its
items as the recorder left them. -/
theorem exists_buffers_of_compileFor {chain : Expr} {d : Descriptor} {s : Statement}
    (h : compileFor options chain d = .ok s) :
    ∃ b, Buffers.start.visit options d.element chain = .ok b ∧
      (b.clauses = s.filters.map Filter.Operand.text ∧
        b.bound = s.filters.flatMap Filter.Operand.values) ∧
      (b.columns d.element = s.columns ∧ b.selected.params = Projection.values s.items) ∧
      b.finish options d = .ok s.written := by
  have hwrite : write options chain d = .ok s.written := by
    rw [write_eq, h]
    rfl
  obtain ⟨b, hvisit, hfinish⟩ := bind_eq_ok_iff.mp hwrite
  obtain ⟨ss, p, hsteps, hrun, -, rfl⟩ := compileFor_eq_ok_iff.mp h
  have hbuffers : Buffers.start.visit options d.element chain = .ok p.buffers := by
    rw [visit_start, hsteps, ← map_eq_ok_iff.mpr ⟨p, hrun, rfl⟩]
    rfl
  obtain rfl : b = p.buffers := Except.ok.inj (hvisit.symm.trans hbuffers)
  exact ⟨_, hvisit, ⟨rfl, rfl⟩, ⟨columns_buffers p d.element, params_buffers p d.element⟩, hfinish⟩

end Query

end BoundSql
