import BoundSql.Proofs.Query.Buffers
import BoundSql.Proofs.Query.Names

set_option autoImplicit false

/-!
# Placeholders of statements

The parameters of a statement belong to the placeholders of its text, the first to the first.  They
are the literals of the selected fields and then those of the filters, in the order in which they
are written (`params_fill_placeholders`).
-/

namespace BoundSql

open Text

/-! ## Values in place -/

namespace Statement

/-- The text of a statement with every value in place of its placeholder. -/
def inlined (mark : Value → String) (s : Statement) : String :=
  ("SELECT " ++ joinWith ", " (s.items.map (Projection.Item.inlined mark)) ++ " FROM " ++ s.dataset)
    ++ (if s.filters.isEmpty then ""
      else " WHERE " ++ joinWith " AND " (s.filters.map (Filter.Operand.inlined mark)))
    ++ s.orderText

variable {mark : Value → String} {s : Statement}

theorem aligned_selectText (mark : Value → String) (h : ∀ name ∈ s.names, '?' ∉ name.toList) :
    Aligned mark s.selectText (Projection.values s.items)
      ("SELECT " ++ joinWith ", " (s.items.map (Projection.Item.inlined mark)) ++ " FROM " ++
        s.dataset) := by
  have hdataset : '?' ∉ s.dataset.toList := h _ List.mem_cons_self
  have hitems : Aligned mark (joinWith ", " (s.items.map fun item => item.column.text))
      (s.items.flatMap fun item => item.source.value?.toList) _ :=
    aligned_joinWith (by simp) fun item hitem => Projection.aligned_item fun name hname =>
      h name (List.mem_cons_of_mem _ (List.mem_append_left _ (List.mem_append_left _
        (List.mem_flatMap.mpr ⟨item, hitem, hname⟩))))
  have hselect : Aligned mark "SELECT " [] "SELECT " := aligned_of_not_mem (by simp)
  have hfrom : Aligned mark (" FROM " ++ s.dataset) [] (" FROM " ++ s.dataset) :=
    aligned_of_not_mem (by simp [hdataset])
  have haligned := (hselect.append hitems).append hfrom
  rw [← Projection.values_eq_flatMap] at haligned
  simpa [selectText, columns, Projection.columns, List.map_map, Function.comp_def,
    String.append_assoc] using haligned

theorem aligned_whereText (h : ∀ name ∈ s.names, '?' ∉ name.toList) :
    Aligned mark s.whereText (s.filters.flatMap Filter.Operand.values)
      (if s.filters.isEmpty then ""
        else " WHERE " ++ joinWith " AND " (s.filters.map (Filter.Operand.inlined mark))) := by
  unfold whereText
  split
  · rename_i hempty
    rw [List.isEmpty_iff.mp hempty]
    exact aligned_of_not_mem (by simp)
  · have hwhere : Aligned mark " WHERE " [] " WHERE " := aligned_of_not_mem (by simp)
    refine hwhere.append (aligned_joinWith (by simp) fun o ho => Filter.aligned_operand ?_)
    intro name hname
    exact h name (List.mem_cons_of_mem _ (List.mem_append_left _ (List.mem_append_right _
      (List.mem_flatMap.mpr ⟨o, ho, hname⟩))))

theorem aligned_orderText (h : ∀ name ∈ s.names, '?' ∉ name.toList) :
    Aligned mark s.orderText [] s.orderText := by
  refine aligned_of_not_mem ?_
  unfold orderText
  split
  · simp
  · intro hmem
    rw [String.toList_append] at hmem
    rcases List.mem_append.mp hmem with hmem | hmem
    · simp at hmem
    · rcases mem_toList_joinWith hmem with hmem | ⟨text, htext, hmem⟩
      · simp at hmem
      · obtain ⟨key, hkey, rfl⟩ := List.mem_map.mp htext
        have hcolumn : '?' ∉ key.column.toList :=
          h _ (List.mem_cons_of_mem _ (List.mem_append_right _ (List.mem_map.mpr ⟨key, hkey, rfl⟩)))
        unfold OrderKey.text at hmem
        split at hmem
        · simp [hcolumn] at hmem
        · exact hcolumn hmem

/-- The parameters of a statement belong to its placeholders. -/
theorem aligned_sql (mark : Value → String) (h : ∀ name ∈ s.names, '?' ∉ name.toList) :
    Aligned mark s.sql s.params (s.inlined mark) := by
  have hselect := aligned_selectText mark h
  have haligned := (hselect.append (aligned_whereText h)).append (aligned_orderText h)
  simpa [sql, params, inlined] using haligned

end Statement

/-! ## Values of steps -/

namespace Query

/-- The literals of the predicate of a step that filters. -/
def filteredValues (rowType : TypeRef) (s : Step) : List Value :=
  match QueryOperator.ofMethod? s.method, s.argument.asLambda? with
  | some .filter, some f => if f.returns.isBool then Filter.predicateValues rowType f.body else []
  | _, _ => []

/-- The literals of the fields of a step that selects. -/
def selectedValues (options : Options) (rowType : TypeRef) (s : Step) : List Value :=
  match QueryOperator.ofMethod? s.method, s.argument.asLambda? with
  | some .select, some f => Projection.projectedValues options rowType f.body
  | _, _ => []

/-- The values of the items selected so far. -/
def Progress.selected (p : Progress) : List Value :=
  match p.projection with
  | some (_, items) => Projection.values items
  | none => []

/-- The values of the filters so far. -/
def Progress.filtered (p : Progress) : List Value := p.filters.flatMap Filter.Operand.values

variable {options : Options} {rowType : TypeRef} {p q : Progress} {s : Step}

/-- A step adds the literals of its argument. -/
theorem values_of_takes (h : Takes options rowType p s q) :
    q.selected = p.selected ++ selectedValues options rowType s ∧
      q.filtered = p.filtered ++ filteredValues rowType s := by
  cases h with
  | filter named argument tests reads =>
      simp [Progress.selected, Progress.filtered, selectedValues, filteredValues, named, argument,
        tests, reads.values_eq]
  | skip named argument tests =>
      simp [selectedValues, filteredValues, named, argument, tests]
  | select named first argument collected =>
      simp [Progress.selected, Progress.filtered, selectedValues, filteredValues, named, argument,
        first, Projection.values_of_collect collected]
  | orderBy named on argument =>
      simp [Progress.selected, Progress.filtered, selectedValues, filteredValues, named]
  | thenBy named on argument =>
      simp [Progress.selected, Progress.filtered, selectedValues, filteredValues, named]
  | orderByOff named off =>
      simp [Progress.selected, Progress.filtered, selectedValues, filteredValues, named]
  | thenByOff named off => simp [selectedValues, filteredValues, named]

/-- A run adds the literals of its steps in order. -/
theorem values_of_run {ss : List Step} :
    ∀ {p : Progress}, run options rowType p ss = .ok q →
      q.selected = p.selected ++ ss.flatMap (selectedValues options rowType) ∧
        q.filtered = p.filtered ++ ss.flatMap (filteredValues rowType) := by
  induction ss with
  | nil =>
      intro p h
      obtain rfl := Except.ok.inj h
      simp
  | cons s ss ih =>
      intro p h
      obtain ⟨mid, htakes, hrest⟩ := run_cons_eq_ok_iff.mp h
      obtain ⟨hselected, hfiltered⟩ := values_of_takes htakes
      obtain ⟨hselected', hfiltered'⟩ := ih hrest
      rw [hselected', hselected, hfiltered', hfiltered]
      simp

theorem values_items (p : Progress) (rowType : TypeRef) :
    Projection.values (p.items rowType) = p.selected := by
  rw [← params_buffers]
  unfold Progress.selected Progress.buffers
  cases p.projection <;> rfl

/-! ## Null -/

/-- Null is not bound by any step. -/
theorem not_null_of_takes (h : Takes options rowType p s q)
    (hselected : Value.null ∉ p.selected) (hfiltered : Value.null ∉ p.filtered) :
    Value.null ∉ q.selected ∧ Value.null ∉ q.filtered := by
  cases h with
  | filter named argument tests reads =>
      refine ⟨hselected, ?_⟩
      intro hmem
      simp only [Progress.filtered, List.flatMap_append, List.flatMap_singleton] at hmem
      rcases List.mem_append.mp hmem with hmem | hmem
      · exact hfiltered hmem
      · exact reads.not_null_mem_values hmem
  | skip named argument tests => exact ⟨hselected, hfiltered⟩
  | @select f items named first argument collected =>
      refine ⟨?_, hfiltered⟩
      intro hmem
      obtain ⟨item, hitem, hnull⟩ := List.mem_filterMap.mp hmem
      have hshows : Projection.Shows options rowType f.body item := by
        have hmem : item ∈ (Projection.collect options rowType f.body []).items := by
          rw [collected]
          exact hitem
        exact Projection.shows_of_mem_collect hmem
      exact hshows.value?_ne_null hnull
  | orderBy named on argument => exact ⟨hselected, hfiltered⟩
  | thenBy named on argument => exact ⟨hselected, hfiltered⟩
  | orderByOff named off => exact ⟨hselected, hfiltered⟩
  | thenByOff named off => exact ⟨hselected, hfiltered⟩

theorem not_null_of_run {ss : List Step} :
    ∀ {p : Progress}, run options rowType p ss = .ok q → Value.null ∉ p.selected →
      Value.null ∉ p.filtered → Value.null ∉ q.selected ∧ Value.null ∉ q.filtered := by
  induction ss with
  | nil =>
      intro p h hselected hfiltered
      obtain rfl := Except.ok.inj h
      exact ⟨hselected, hfiltered⟩
  | cons s ss ih =>
      intro p h hselected hfiltered
      obtain ⟨mid, htakes, hrest⟩ := run_cons_eq_ok_iff.mp h
      obtain ⟨hselected', hfiltered'⟩ := not_null_of_takes htakes hselected hfiltered
      exact ih hrest hselected' hfiltered'

/-! ## Statements -/

/-- The parameters of a compiled statement are the literals that the steps of the chain bind, those
of the selected fields first, and none of them is null. -/
theorem params_of_compileFor {chain : Expr} {d : Descriptor} {s : Statement}
    (h : compileFor options chain d = .ok s) :
    Value.null ∉ s.params ∧
    ∃ ss, steps chain = .ok ss ∧
      s.params = ss.flatMap (selectedValues options d.element) ++
        ss.flatMap (filteredValues d.element) := by
  obtain ⟨ss, p, hsteps, hrun, hitems, rfl⟩ := compileFor_eq_ok_iff.mp h
  have hparams : Statement.params ⟨d.dataset, p.items d.element, p.filters, p.order,
      p.projection.map (·.1)⟩ = p.selected ++ p.filtered := by
    rw [Statement.params, values_items]
    rfl
  rw [hparams]
  constructor
  · obtain ⟨hselected, hfiltered⟩ := not_null_of_run hrun
      (by simp [Progress.selected, Progress.start]) (by simp [Progress.filtered, Progress.start])
    simp [hselected, hfiltered]
  · obtain ⟨hselected, hfiltered⟩ := values_of_run hrun
    refine ⟨ss, hsteps, ?_⟩
    rw [hselected, hfiltered]
    simp [Progress.selected, Progress.filtered, Progress.start]

/-- The placeholders and the parameters of a compiled statement belong together.

* A question mark gets into a name of the statement only from a name of the chain, the options or
  the descriptor.
* Without one there, the text has as many question marks as there are parameters, and writing the
  parameters for them from left to right gives the text with every literal in its own place.
* No parameter is null.
* The parameters are the literals of the selected fields in order and then those of the filters in
  the order in which they apply.
* When the chain is written into buffers, the texts of the steps go into some and their values into
  others.  The buffers hold the texts and the values of the same clauses and of the same items in
  the end, and the text and the parameters are put together from them. -/
theorem params_fill_placeholders {chain : Expr} {d : Descriptor} {s : Statement}
    (h : compileFor options chain d = .ok s) :
    ((∀ name ∈ copiedNames options chain d, '?' ∉ name.toList) →
      ∀ name ∈ s.names, '?' ∉ name.toList) ∧
    ((∀ name ∈ s.names, '?' ∉ name.toList) →
      s.sql.toList.count '?' = s.params.length ∧
      ∀ mark : Value → String,
        fillMarks (s.params.map fun v => (mark v).toList) s.sql.toList =
          (s.inlined mark).toList) ∧
    Value.null ∉ s.params ∧
    (∃ ss, steps chain = .ok ss ∧
      s.params = ss.flatMap (selectedValues options d.element) ++
        ss.flatMap (filteredValues d.element)) ∧
    ∃ b, Buffers.start.visit options d.element chain = .ok b ∧
      (b.clauses = s.filters.map Filter.Operand.text ∧
        b.bound = s.filters.flatMap Filter.Operand.values) ∧
      (b.columns d.element = s.columns ∧ b.selected.params = Projection.values s.items) ∧
      b.finish options d = .ok s.written := by
  obtain ⟨hnull, hliterals⟩ := params_of_compileFor h
  refine ⟨not_mem_names_of_not_mem_copiedNames (by decide) h, ?_, hnull, hliterals,
    exists_buffers_of_compileFor h⟩
  intro hplain
  refine ⟨(Statement.aligned_sql (fun _ => "") hplain).count, ?_⟩
  intro mark
  have hfill := (Statement.aligned_sql mark hplain).fill [] []
  simpa [fillMarks] using hfill

/-- Rows of people with a number and a name. -/
def peopleDescriptor : Descriptor :=
  ⟨"people", .record "Person" [("Id", .scalar .int), ("Name", .string)] []⟩

/-- People with a number and one of two names, or none, selected beside a fixed text. -/
def peopleQuery : Expr :=
  let row : Expr := .param ⟨"x", peopleDescriptor.element⟩
  (Expr.ofDescriptor peopleDescriptor).applyAll
    [(.filter, .predicateOver row (.binary .andAlso
        (.binary .equal (row.access "Id") (.const (.integer 7)))
        (.contains (.const (.array [.text "a", .null, .text "b"])) (row.access "Name")))),
      (.select, .functionOver row (.anonymous (.named "Shape")
        [("Id", row.access "Id"), ("Fixed", .const (.text "k"))]))]

theorem params_fill_placeholders_peopleQuery :
    ∃ s, compileFor Options.default peopleQuery peopleDescriptor = .ok s ∧
      s.params = [.text "k", .integer 7, .text "a", .text "b"] ∧
      s.sql.toList.count '?' = 4 ∧
      fillMarks (s.params.map fun v => v.display.toList) s.sql.toList =
        (s.inlined Value.display).toList := by
  refine ⟨_, rfl, rfl, ?_⟩
  obtain ⟨hnames, hfill, -⟩ := params_fill_placeholders
    (show compileFor Options.default peopleQuery peopleDescriptor = .ok _ from rfl)
  obtain ⟨hcount, hinlined⟩ := hfill (hnames (by decide))
  exact ⟨hcount, hinlined Value.display⟩

end Query

end BoundSql
