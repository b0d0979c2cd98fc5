import BoundSql.Proofs.Query.Interleaving

set_option autoImplicit false

/-!
# The ordering of a query

An ordering operator adds the column that its key orders by, if there is one, and an operator that
starts an ordering drops what stood there before.  So the ordering of a statement is that of the
operators from the last start on, and of all operators where none starts one.  Where ordering is not
written, a chain that compiles with it compiles to the same statement without its last clause
(`order_of_compile`).
-/

namespace BoundSql

namespace QueryOperator

/-- Does the operator start an ordering of its own? -/
def startsOrdering : QueryOperator → Bool
  | .orderBy _ => true
  | _ => false

/-- The direction in which an operator orders. -/
def descending? : QueryOperator → Option Bool
  | .orderBy descending | .thenBy descending => some descending
  | .filter | .select => none

end QueryOperator

/-- The options with the ordering left unwritten. -/
def Options.unordered (options : Options) : Options := { options with ordering := false }

/-! ## Items do not depend on the ordering -/

namespace Projection

variable {options : Options} {rowType : TypeRef}

theorem collectContainer_unordered :
    collectContainer options.unordered = collectContainer options := by
  funext e
  cases e <;> rfl

theorem collectDynamic_unordered (e : Expr) :
    collectDynamic options.unordered e = collectDynamic options e := by
  rw [collectDynamic, collectDynamic, collectContainer_unordered]

mutual

/-- What a projection selects is the same whether or not the ordering is written. -/
theorem collect_unordered : ∀ e : Expr,
    collect options.unordered rowType e = collect options rowType e
  | .const _ | .param _ | .staticMember _ => rfl
  | .member target _ => collect_unordered target
  | .binary _ left right => by
      rw [collect, collect, collect_unordered left, collect_unordered right]
  | .call _ _ args => collectAll_unordered args
  | .lambda _ _ body _ => collect_unordered body
  | .construct _ _ _ => rfl
  | .record type bindings => by
      rw [collect, collect, collectDynamic_unordered, collectBindings_unordered bindings]
      rfl
  | .cond test ifTrue ifFalse => by
      rw [collect, collect, collect_unordered test, collect_unordered ifTrue,
        collect_unordered ifFalse]
termination_by structural e => e

theorem collectAll_unordered : ∀ es : List Expr,
    collectAll options.unordered rowType es = collectAll options rowType es
  | [] => rfl
  | e :: es => by rw [collectAll, collectAll, collect_unordered e, collectAll_unordered es]
termination_by structural es => es

theorem collectBindings_unordered : ∀ bindings : List (MemberRef × Expr),
    collectBindings options.unordered rowType bindings = collectBindings options rowType bindings
  | [] => rfl
  | (_, e) :: bindings => by
      rw [collectBindings, collectBindings, collect_unordered e, collectBindings_unordered bindings]
      rfl
termination_by structural bindings => bindings

end

end Projection

namespace Query

open Progress

variable {options : Options} {rowType : TypeRef} {p q : Progress} {o : QueryOperator × Expr}
  {ops before after : List (QueryOperator × Expr)} {e : Expr} {column : String} {key : OrderKey}

/-! ## Keys -/

/-- The column that an expression orders by: the column of the row that it is, or the dotted path of
what a conditional falls back to, if that reads a member. -/
inductive OrdersBy (rowType : TypeRef) : Expr → String → Prop where
  | column {e : Expr} {ref : MemberRef} (own : e.isRowMember rowType = true)
      (member : e.asMember? = some ref) : OrdersBy rowType e ref.name
  | fallback {test ifTrue ifFalse part : Expr} {ref : MemberRef} (inside : part ∈ ifFalse.preorder)
      (member : part.asMember? = some ref) :
      OrdersBy rowType (.cond test ifTrue ifFalse) (Text.joinWith "." ifFalse.path)

theorem orderColumn?_eq_some_iff :
    orderColumn? rowType e = some column ↔ OrdersBy rowType e column := by
  constructor
  · intro h
    unfold orderColumn? at h
    split at h
    · rename_i target ref
      split at h
      · rename_i own
        obtain rfl := Option.some.inj h
        exact .column own rfl
      · simp at h
    · rename_i test ifTrue ifFalse
      unfold Expr.dottedPath? at h
      split at h
      · simp at h
      · rename_i hpath
        obtain ⟨name, names, hcons⟩ := List.exists_cons_of_ne_nil (by simpa using hpath)
        obtain ⟨part, hpart, ref, href, -⟩ := Expr.mem_path_iff.mp (hcons ▸ List.mem_cons_self)
        obtain rfl := Option.some.inj h
        exact .fallback hpart href
    · simp at h
  · intro h
    cases h with
    | column own member =>
        cases e with
        | member target ref =>
            obtain rfl := Option.some.inj member
            exact if_pos own
        | _ => cases own
    | fallback inside member =>
        have hpath := List.ne_nil_of_mem (Expr.mem_path_iff.mpr ⟨_, inside, _, member, rfl⟩)
        simp [orderColumn?, Expr.dottedPath?, hpath]

/-- The key that an operator adds to the ordering: the column that its lambda orders by, in its
direction. -/
def addedKey? (rowType : TypeRef) (o : QueryOperator × Expr) : Option OrderKey := do
  let descending ← o.1.descending?
  let f ← o.2.asLambda?
  let column ← orderColumn? rowType f.body
  return ⟨column, descending⟩

theorem toList_addedKey? {op : QueryOperator} {argument : Expr} {descending : Bool} {f : Lambda}
    (hdirection : op.descending? = some descending) (hlambda : argument.asLambda? = some f) :
    (addedKey? rowType (op, argument)).toList = orderKeys rowType f descending := by
  rw [addedKey?, hdirection, hlambda, orderKeys]
  cases hcolumn : orderColumn? rowType f.body <;> simp [hcolumn]

theorem addedKey?_eq_some_iff :
    addedKey? rowType o = some key ↔
      o.1.descending? = some key.descending ∧
        ∃ f, o.2.asLambda? = some f ∧ OrdersBy rowType f.body key.column := by
  obtain ⟨column, descending⟩ := key
  simp only [addedKey?, bind, Option.bind_eq_some_iff, pure, Option.some.injEq, OrderKey.mk.injEq,
    orderColumn?_eq_some_iff]
  constructor
  · rintro ⟨_, hdirection, f, hlambda, _, hcolumn, rfl, rfl⟩
    exact ⟨hdirection, f, hlambda, hcolumn⟩
  · rintro ⟨hdirection, f, hlambda, hcolumn⟩
    exact ⟨_, hdirection, f, hlambda, _, hcolumn, rfl, rfl⟩

/-! ## Steps and runs -/

/-- An operator leaves the ordering with its key, without what stood there if it starts one. -/
theorem order_of_takes (on : options.ordering = true)
    (h : Takes options rowType p (Step.ofOperator o) q) :
    q.order = (if o.1.startsOrdering then [] else p.order) ++ (addedKey? rowType o).toList := by
  obtain ⟨op, argument⟩ := o
  have hop {found : QueryOperator}
      (hfound : QueryOperator.ofMethod? (Step.ofOperator (op, argument)).method = some found) :
      op = found := Option.some.inj ((ofMethod?_ofOperator (op, argument)).symm.trans hfound)
  cases h with
  | filter named _ _ _ | skip named _ _ | select named _ _ _ =>
      obtain rfl := hop named
      simp [QueryOperator.startsOrdering, addedKey?, QueryOperator.descending?]
  | orderBy named _ lambda | thenBy named _ lambda =>
      obtain rfl := hop named
      obtain lambda : argument.asLambda? = _ := lambda
      rw [toList_addedKey? rfl lambda]
      simp [QueryOperator.startsOrdering]
  | orderByOff _ off | thenByOff _ off => simp [on] at off

/-- Operators of which none starts an ordering add their keys one after another. -/
theorem order_of_runOperators (on : options.ordering = true)
    (continued : ∀ o ∈ ops, o.1.startsOrdering = false) : ∀ {p : Progress},
      runOperators options rowType p ops = .ok q →
        q.order = p.order ++ ops.filterMap (addedKey? rowType) := by
  induction ops with
  | nil =>
      intro p h
      obtain rfl := Except.ok.inj h
      simp
  | cons o ops ih =>
      intro p h
      obtain ⟨hfirst, hrest⟩ := List.forall_mem_cons.mp continued
      obtain ⟨mid, htakes, hrun⟩ := runOperators_cons_eq_ok_iff.mp h
      rw [ih hrest hrun, order_of_takes on htakes, hfirst]
      cases hkey : addedKey? rowType o <;> simp [hkey]

/-- Behind the last operator that starts an ordering, the ordering is made of its key and the keys
that come after it. -/
theorem order_of_runOperators_start (on : options.ordering = true)
    (start : o.1.startsOrdering = true) (continued : ∀ o' ∈ after, o'.1.startsOrdering = false)
    (h : runOperators options rowType p (before ++ o :: after) = .ok q) :
    q.order = (o :: after).filterMap (addedKey? rowType) := by
  rw [runOperators, List.map_append] at h
  obtain ⟨mid, -, hrun⟩ := run_append_eq_ok_iff.mp h
  obtain ⟨next, htakes, hrun⟩ := run_cons_eq_ok_iff.mp hrun
  rw [order_of_runOperators on continued hrun, order_of_takes on htakes, start]
  cases hkey : addedKey? rowType o <;> simp [hkey]

/-! ## Without the ordering -/

/-- The progress with the ordering left out. -/
def Progress.unordered (p : Progress) : Progress := { p with order := [] }

/-- A step with the ordering written is one with the ordering left out. -/
theorem Takes.unordered {s : Step} (h : Takes options rowType p s q) :
    Takes options.unordered rowType p.unordered s q.unordered := by
  cases h with
  | filter named argument tests reads => exact .filter named argument tests reads
  | skip named argument tests => exact .skip named argument tests
  | select named first argument collected =>
      exact .select named first argument (by rw [Projection.collect_unordered, collected])
  | orderBy named _ _ | orderByOff named _ => exact .orderByOff named rfl
  | thenBy named _ _ | thenByOff named _ => exact .thenByOff named rfl

theorem runOperators_unordered : ∀ {p : Progress}, runOperators options rowType p ops = .ok q →
    runOperators options.unordered rowType p.unordered ops = .ok q.unordered := by
  induction ops with
  | nil =>
      intro p h
      obtain rfl := Except.ok.inj h
      rfl
  | cons o ops ih =>
      intro p h
      obtain ⟨mid, htakes, hrun⟩ := runOperators_cons_eq_ok_iff.mp h
      exact runOperators_cons_eq_ok_iff.mpr ⟨_, htakes.unordered, ih hrun⟩

/-- A chain that compiles with its ordering compiles without it to the statement without keys. -/
theorem compile_unordered {d : Descriptor} {s : Statement}
    (h : compile options ((Expr.ofDescriptor d).applyAll ops) = .ok s) :
    compile options.unordered ((Expr.ofDescriptor d).applyAll ops) =
      .ok { s with order := [] } := by
  obtain ⟨p, hrun, hitems, rfl⟩ := compile_applyAll_eq_ok_iff.mp h
  exact compile_applyAll_eq_ok_iff.mpr ⟨_, runOperators_unordered hrun, hitems, rfl⟩

/-- The keys of a statement make the end of its text. -/
theorem sql_eq_append_orderText (s : Statement) :
    s.sql = { s with order := [] }.sql ++ s.orderText := by
  have hnone : { s with order := [] }.orderText = "" := rfl
  rw [Statement.sql, Statement.sql, hnone, String.append_empty]
  rfl

/-- A chain of operators over a dataset compiles with its ordering written.

* Where an operator starts an ordering and no later one does, the keys of the statement are those
  that it and the operators behind it add, in order.
* Where none does, they are those that all operators add.
* An operator adds a key if it is an ordering operator over a lambda that orders by a column, and
  the key has its direction.
* With the ordering left out the chain compiles to the same columns and parameters.  Its text lacks
  the clause that lists the keys, which is there unless there are none. -/
theorem order_of_compile {d : Descriptor} {s : Statement} (on : options.ordering = true)
    (h : compile options ((Expr.ofDescriptor d).applyAll ops) = .ok s) :
    (∀ before o after, ops = before ++ o :: after → o.1.startsOrdering = true →
      (∀ o' ∈ after, o'.1.startsOrdering = false) →
        s.order = (o :: after).filterMap (addedKey? d.element)) ∧
    ((∀ o ∈ ops, o.1.startsOrdering = false) → s.order = ops.filterMap (addedKey? d.element)) ∧
    (∀ o key, addedKey? d.element o = some key ↔
      o.1.descending? = some key.descending ∧
        ∃ f, o.2.asLambda? = some f ∧ OrdersBy d.element f.body key.column) ∧
    ∃ s', compile options.unordered ((Expr.ofDescriptor d).applyAll ops) = .ok s' ∧
      s'.columns = s.columns ∧ s'.params = s.params ∧
      (s.order = [] → s.sql = s'.sql) ∧
      (s.order ≠ [] →
        s.sql = s'.sql ++ (" ORDER BY " ++ Text.joinWith ", " (s.order.map OrderKey.text))) := by
  have htext := sql_eq_append_orderText s
  obtain ⟨p, hrun, -, hs⟩ := compile_applyAll_eq_ok_iff.mp h
  have horder : s.order = p.order := by rw [hs]
  refine ⟨?_, ?_, fun o key => addedKey?_eq_some_iff, _, compile_unordered h, rfl, rfl, ?_, ?_⟩
  · rintro before o after rfl start continued
    rw [horder]
    exact order_of_runOperators_start on start continued hrun
  · intro continued
    rw [horder]
    exact order_of_runOperators on continued hrun
  · intro hnone
    have hempty : s.orderText = "" := if_pos (List.isEmpty_iff.mpr hnone)
    rw [htext, hempty, String.append_empty]
  · intro hkeys
    rw [htext, Statement.orderText, if_neg (by simpa using hkeys)]

section

/-- The highest numbers first, and the cities of those with one number. -/
def byIdThenCity : List (QueryOperator × Expr) :=
  let city := (person.access "Info").access "City"
  let cityOrNull : Expr :=
    .cond (.binary .equal (person.access "Info") (.const .null)) (.const .null) city
  [(.orderBy true, .functionOver person (person.access "Id")), highId,
    (.thenBy false, .functionOver person cityOrNull)]

/-- A second ordering drops the first one, and its keys are listed behind the filter. -/
theorem order_of_compile_byNameThenId :
    ∃ s s', compile Options.default
        ((Expr.ofDescriptor peopleDescriptor).applyAll (byName :: byIdThenCity)) = .ok s ∧
      compile Options.default.unordered
        ((Expr.ofDescriptor peopleDescriptor).applyAll (byName :: byIdThenCity)) = .ok s' ∧
      s.order = [⟨"Id", true⟩, ⟨"Info.City", false⟩] ∧
      s'.sql = "SELECT Id AS Id, Name AS Name FROM people WHERE (Id >  ? )" ∧
      s.sql = s'.sql ++ " ORDER BY Id DESC, Info.City" := by
  obtain ⟨s, hs⟩ : ∃ s, compile Options.default
      ((Expr.ofDescriptor peopleDescriptor).applyAll (byName :: byIdThenCity)) = .ok s := ⟨_, rfl⟩
  obtain ⟨hlast, -, -, s', hs', -, -, -, hclause⟩ := order_of_compile rfl hs
  have horder := hlast [byName] _ _ rfl rfl (by decide)
  refine ⟨s, s', hs, hs', horder, ?_, ?_⟩
  · obtain rfl := Except.ok.inj hs'
    rfl
  · rw [horder] at hclause
    exact hclause (by decide)

end

end Query

end BoundSql
