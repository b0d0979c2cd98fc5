import BoundSql.Document.Reading
import BoundSql.Proofs.Document.Operands
import BoundSql.Proofs.Query.Rules
import Mathlib

set_option autoImplicit false

/-!
# Columns of documents

A document can name a column in three places: as an operand of a filter, as a field of a selected
object, and as a key of the ordering.  In each of them the compiled statement shows the column that
the row type takes the path for, and NULL or nothing where it takes the path for none
(`columns_of_compileFor`).
-/

namespace BoundSql

/-! ## Keys -/

/-- What an ordering shows of a path: the column that the row type takes it for, if it does. -/
def TypeRef.orderKey? (rowType : TypeRef) (key : Bool × String) : Option OrderKey :=
  (rowType.column? key.2).map fun column => ⟨column, key.1⟩

namespace Query

variable {options : Options} {scope : Document.Scope} {rowType : TypeRef} {p q : Progress}

/-- What a list of paths adds to an ordering. -/
def shownKeys (options : Options) (rowType : TypeRef) (keys : List (Bool × String)) :
    List OrderKey :=
  if options.ordering then keys.filterMap rowType.orderKey? else []

/-- The operator with a path for its key. -/
def keyStep (scope : Document.Scope) (op : Bool → QueryOperator) (key : Bool × String) : Step :=
  Step.ofOperator (op key.1, scope.functionOf (scope.column key.2))

theorem addOrder_column (scope : Document.Scope) (options : Options) (p : Progress)
    (key : Bool × String) :
    p.addOrder options scope.rowType (scope.functionOf (scope.column key.2)) key.1 =
      .ok { p with order := p.order ++ shownKeys options scope.rowType [key] } := by
  have hlambda : (scope.functionOf (scope.column key.2)).asLambda? =
      some ⟨_, _, scope.column key.2, none⟩ := rfl
  unfold Progress.addOrder shownKeys
  cases options.ordering with
  | false => simp
  | true =>
      have hkey : [key].filterMap scope.rowType.orderKey? =
          (scope.rowType.orderKey? key).toList := by
        cases h : scope.rowType.orderKey? key <;> simp [h]
      simp only [if_true, hlambda, scope.orderColumn?_column, hkey, TypeRef.orderKey?]

theorem step_thenBy (scope : Document.Scope) (options : Options) (p : Progress)
    (key : Bool × String) :
    p.step options scope.rowType (keyStep scope .thenBy key) =
      .ok { p with order := p.order ++ shownKeys options scope.rowType [key] } := by
  rw [← addOrder_column, Progress.step, keyStep, Step.ofOperator, QueryOperator.ofMethod?_method]

theorem step_orderBy (scope : Document.Scope) (options : Options) (p : Progress)
    (key : Bool × String) :
    p.step options scope.rowType (keyStep scope .orderBy key) =
      .ok { p with order := shownKeys options scope.rowType [key] } := by
  have hadd := addOrder_column scope options { p with order := [] } key
  rw [Progress.step, keyStep, Step.ofOperator, QueryOperator.ofMethod?_method]
  exact hadd

theorem shownKeys_append (keys others : List (Bool × String)) :
    shownKeys options rowType (keys ++ others) =
      shownKeys options rowType keys ++ shownKeys options rowType others := by
  unfold shownKeys
  cases options.ordering <;> simp

/-- Further keys are added one after another. -/
theorem run_thenBys (keys : List (Bool × String)) : ∀ p : Progress,
    run options scope.rowType p (keys.map (keyStep scope .thenBy)) =
      .ok { p with order := p.order ++ shownKeys options scope.rowType keys } := by
  induction keys with
  | nil =>
      intro p
      simp [run, shownKeys, pure, Except.pure]
  | cons key keys ih =>
      intro p
      have hstep := step_eq_ok_iff.mp (step_thenBy scope options p key)
      refine run_cons_eq_ok_iff.mpr ⟨_, hstep, ?_⟩
      rw [ih, List.append_assoc, ← shownKeys_append, List.singleton_append]

end Query

/-! ## Documents -/

namespace Document

variable {scope : Scope} {doc : Document} {members : List (String × Json)}

/-- A document is read part by part, all parts in one scope, in whatever order its types are
built. -/
theorem exists_scope_of_ofMembersIn {visit : List TypeDefinition → List String}
    (h : ofMembersIn visit members = .ok doc) :
    ∃ (scope : Scope) (conditions selections orderings : List (QueryOperator × Expr)),
      scope.rowType = doc.descriptor.element ∧
      capturedObject (members.lookup "captured") = .ok scope.closure ∧
      filters scope (members.lookup "filters") = .ok conditions ∧
      projection scope (members.lookup "select") = .ok selections ∧
      ordering scope (members.lookup "order_by") = .ok orderings ∧
      doc.operators = conditions ++ selections ++ orderings := by
  simp only [ofMembersIn, bind_eq_ok_iff] at h
  obtain ⟨dataset, -, rowTypeName, -, definitions, -, table, -, rowType, -, closure, hclosure,
    conditions, hfilters, selections, hprojection, orderings, hordering, h⟩ := h
  obtain rfl := Except.ok.inj h
  exact ⟨⟨rowType, closure⟩, conditions, selections, orderings, rfl, hclosure, hfilters,
    hprojection, hordering, rfl⟩

/-- The filters of a document are the lambdas over what its filters write. -/
theorem exists_bodies_of_filters {written? : Option Json}
    {conditions : List (QueryOperator × Expr)} (h : filters scope written? = .ok conditions) :
    ∃ items bodies, written?.getD (.array []) = .array items ∧
      List.Forall₂ (fun json e => expression scope json = .ok e) items bodies ∧
      conditions = bodies.map fun e => (.filter, scope.functionOf e) := by
  unfold filters at h
  split at h
  · obtain rfl := Except.ok.inj h
    exact ⟨[], [], rfl, .nil, rfl⟩
  · rename_i items
    refine ⟨items, ?_⟩
    have hconditions := mapM_eq_ok_iff.mp h
    clear h
    induction hconditions with
    | nil => exact ⟨[], rfl, .nil, rfl⟩
    | cons hitem _ ih =>
        obtain ⟨e, he, rfl⟩ := map_eq_ok_iff.mp hitem
        obtain ⟨bodies, -, hbodies, rfl⟩ := ih
        exact ⟨e :: bodies, rfl, .cons he hbodies, rfl⟩
  · simp at h

/-- A selected object is an anonymous record of what its fields write. -/
theorem exists_fields_of_projectionBody {fields : List (String × Json)} {body : Expr}
    (h : projectionBody scope (.object fields) = .ok body) :
    ∃ type bodies,
      List.Forall₂ (fun (field : String × Json) (body : String × Expr) =>
        body.1 = field.1 ∧ expression scope field.2 = .ok body.2) fields bodies ∧
      body = Expr.anonymous type bodies := by
  obtain ⟨bodies, hbodies, rfl⟩ := map_eq_ok_iff.mp h
  refine ⟨_, bodies, ?_, rfl⟩
  refine (mapM_eq_ok_iff.mp hbodies).imp fun field body hfield => ?_
  obtain ⟨e, he, rfl⟩ := map_eq_ok_iff.mp hfield
  exact ⟨rfl, he⟩

/-- The steps of an ordering: the first key starts it and the others are added. -/
def keySteps (scope : Scope) : List (Bool × String) → List Query.Step
  | [] => []
  | key :: keys => Query.keyStep scope .orderBy key :: keys.map (Query.keyStep scope .thenBy)

/-- The keys of an ordering are texts, and each is read as a path. -/
theorem exists_keys_of_ordering {written? : Option Json} {orderings : List (QueryOperator × Expr)}
    (h : ordering scope written? = .ok orderings) :
    ∃ keys : List String, written?.getD (.array []) = .array (keys.map .text) ∧
      orderings.map Query.Step.ofOperator = keySteps scope (keys.map orderPath) := by
  unfold ordering at h
  split at h
  · obtain rfl := Except.ok.inj h
    exact ⟨[], rfl, rfl⟩
  · rename_i items
    obtain ⟨read, hread, hlisted⟩ := bind_eq_ok_iff.mp h
    clear h
    have hkeys : ∃ keys : List String, items = keys.map .text ∧
        read = keys.map (orderKey scope) := by
      have hall := mapM_eq_ok_iff.mp hread
      clear hread hlisted
      induction hall with
      | nil => exact ⟨[], rfl, rfl⟩
      | cons hitem _ ih =>
          obtain ⟨keys, rfl, rfl⟩ := ih
          split at hitem
          · rename_i key
            obtain rfl := Except.ok.inj hitem
            exact ⟨key :: keys, rfl, rfl⟩
          · simp at hitem
    obtain ⟨keys, rfl, rfl⟩ := hkeys
    refine ⟨keys, rfl, ?_⟩
    cases keys with
    | nil =>
        obtain rfl := Except.ok.inj hlisted
        rfl
    | cons key keys =>
        obtain rfl := Except.ok.inj hlisted
        simp [keySteps, Query.keyStep, orderKey, Function.comp_def]
  · simp at h

/-- A field of a selected object and the item that shows it: where the field is a column, the item
shows what the row type takes the column for. -/
structure FieldShows (scope : Scope) (field : String × Json) (item : Projection.Item) : Prop where
  label : item.label = field.1
  column : ∀ path, columnPath? field.2 = some path →
    item.source = .ofColumn? (scope.rowType.column? path)

theorem fieldShows_of_showsField {field : String × Json} {body : String × Expr}
    {item : Projection.Item}
    (hread : body.1 = field.1 ∧ expression scope field.2 = .ok body.2)
    (hshown : Projection.ShowsField scope.rowType body item) : FieldShows scope field item where
  label := hshown.1.trans hread.1
  column := by
    intro path hpath
    have hbody := (expression_of_columnPath? hpath).symm.trans hread.2
    have hsource := hshown.2
    rw [← Except.ok.inj hbody, scope.source_column] at hsource
    exact (Except.ok.inj hsource).symm

/-- The steps of an ordering leave its keys. -/
theorem run_keySteps {options : Options} {p : Query.Progress} (hstart : p.order = [])
    (keys : List (Bool × String)) :
    Query.run options scope.rowType p (keySteps scope keys) =
      .ok { p with order := Query.shownKeys options scope.rowType keys } := by
  cases keys with
  | nil =>
      obtain ⟨projection, conditions, order⟩ := p
      obtain rfl : order = [] := hstart
      simp [keySteps, Query.run, Query.shownKeys, pure, Except.pure]
  | cons key keys =>
      have hstep := Query.step_eq_ok_iff.mp (Query.step_orderBy scope options p key)
      refine Query.run_cons_eq_ok_iff.mpr ⟨_, hstep, ?_⟩
      rw [Query.run_thenBys, ← Query.shownKeys_append, List.singleton_append]

/-- A projection leaves the filters and the ordering as they are. -/
theorem kept_of_run_projection {options : Options} {p q : Query.Progress} {written? : Option Json}
    {selections : List (QueryOperator × Expr)}
    (hread : projection scope written? = .ok selections)
    (hrun : Query.run options scope.rowType p (selections.map Query.Step.ofOperator) = .ok q) :
    q.filters = p.filters ∧ q.order = p.order := by
  cases written? with
  | none =>
      obtain rfl := Except.ok.inj hread
      obtain rfl := Except.ok.inj hrun
      exact ⟨rfl, rfl⟩
  | some json =>
      obtain ⟨body, -, rfl⟩ := map_eq_ok_iff.mp hread
      obtain ⟨f, items, -, -, rfl⟩ := Query.exists_items_of_run hrun
      exact ⟨rfl, rfl⟩

/-- A selected object with a field leaves an item for each field. -/
theorem fieldShows_of_run_projection {options : Options} {p q : Query.Progress}
    {fields : List (String × Json)} {selections : List (QueryOperator × Expr)}
    (hread : projection scope (some (.object fields)) = .ok selections) (hne : fields ≠ [])
    (hrun : Query.run options scope.rowType p (selections.map Query.Step.ofOperator) = .ok q) :
    List.Forall₂ (FieldShows scope) fields (q.items scope.rowType) := by
  obtain ⟨body, hbody, rfl⟩ := map_eq_ok_iff.mp hread
  obtain ⟨type, bodies, hbodies, rfl⟩ := exists_fields_of_projectionBody hbody
  obtain ⟨f, items, hlambda, hcollect, rfl⟩ := Query.exists_items_of_run hrun
  obtain rfl := Option.some.inj hlambda
  have hbodiesNe : bodies ≠ [] := by
    rintro rfl
    exact hne (List.forall₂_nil_right_iff.mp hbodies)
  have hshown := Projection.forall₂_of_collect_anonymous hbodiesNe hcollect
  have hitems : List.Forall₂ (FieldShows scope) fields items := by
    apply forall₂_comp ?_ hbodies hshown
    intro field body item hfield hitem
    exact fieldShows_of_showsField hfield hitem
  cases hitems with
  | nil => exact absurd rfl hne
  | cons hitem hrest => exact .cons hitem hrest

/-- The filters of a document leave a clause each, where they are no filters that are passed
over. -/
theorem filterShows_of_run_filters {options : Options} {p q : Query.Progress}
    {written? : Option Json} {conditions : List (QueryOperator × Expr)}
    (hread : filters scope written? = .ok conditions)
    (hrun : Query.run options scope.rowType p (conditions.map Query.Step.ofOperator) = .ok q) :
    ∃ items clauses, written?.getD (.array []) = .array items ∧
      List.Forall₂ (FilterShows scope) items clauses ∧
      q = { p with filters := p.filters ++ clauses.reduceOption } := by
  obtain ⟨items, bodies, hitems, hbodies, rfl⟩ := exists_bodies_of_filters hread
  have hpredicates : Query.run options scope.rowType p
      ((bodies.map scope.functionOf).map (Query.Step.mk QueryOperator.filter.method)) = .ok q := by
    rw [← hrun, List.map_map, List.map_map]
    rfl
  obtain ⟨clauses, hclauses, rfl⟩ := Query.exists_clauses_of_run hpredicates
  refine ⟨items, clauses, hitems, ?_, rfl⟩
  apply forall₂_comp ?_ hbodies (List.forall₂_map_left_iff.mp hclauses)
  intro json e clause? hjson hclause
  exact filterShows_of_clause? hjson hclause

/-- A compiled document is what its parts leave, one after another: the filters their clauses, the
projection its items, and the ordering its keys. -/
theorem exists_parts_of_compileFor {visit : List TypeDefinition → List String} {options : Options}
    {s : Statement} (hread : ofMembersIn visit members = .ok doc)
    (hcompile : Query.compileFor options doc.chain doc.descriptor = .ok s) :
    ∃ (scope : Scope) (conditions : List Json) (clauses : List (Option Filter.Operand))
        (selections : List (QueryOperator × Expr)) (selected : Query.Progress) (keys : List String),
      (scope.rowType = doc.descriptor.element ∧
        capturedObject (members.lookup "captured") = .ok scope.closure) ∧
      ((members.lookup "filters").getD (.array []) = .array conditions ∧
        List.Forall₂ (FilterShows scope) conditions clauses) ∧
      (projection scope (members.lookup "select") = .ok selections ∧
        Query.run options scope.rowType ⟨none, clauses.reduceOption, []⟩
          (selections.map Query.Step.ofOperator) = .ok selected) ∧
      (members.lookup "order_by").getD (.array []) = .array (keys.map .text) ∧
      s = ⟨doc.descriptor.dataset, selected.items scope.rowType, clauses.reduceOption,
        Query.shownKeys options scope.rowType (keys.map orderPath),
        selected.projection.map (·.1)⟩ := by
  obtain ⟨scope, conditions, selections, orderings, hrow, hclosure, hconditions, hselections,
    horderings, hoperators⟩ := exists_scope_of_ofMembersIn hread
  obtain ⟨keys, hkeys, hsteps⟩ := exists_keys_of_ordering horderings
  obtain ⟨ss, last, hchain, hrun, -, hs⟩ := Query.compileFor_eq_ok_iff.mp hcompile
  rw [chain, hoperators, Query.steps_applyAll] at hchain
  obtain rfl := Except.ok.inj hchain
  rw [List.map_append, List.map_append, hsteps, ← hrow] at hrun
  obtain ⟨selected, hrun, hordered⟩ := Query.run_append_eq_ok_iff.mp hrun
  obtain ⟨filtered, hfiltered, hselected⟩ := Query.run_append_eq_ok_iff.mp hrun
  obtain ⟨items, clauses, hitems, hclauses, rfl⟩ := filterShows_of_run_filters hconditions hfiltered
  obtain ⟨hfilters, horder⟩ := kept_of_run_projection hselections hselected
  rw [run_keySteps horder] at hordered
  obtain rfl := Except.ok.inj hordered
  have hclausesKept : selected.filters = clauses.reduceOption := hfilters
  rw [← hrow] at hs
  exact ⟨scope, items, clauses, selections, selected, keys, ⟨hrow, hclosure⟩, ⟨hitems, hclauses⟩,
    ⟨hselections, hselected⟩, hkeys, by rw [hs, hclausesKept]; rfl⟩

/-- What a compiled document shows of the columns that it names, in whatever order its types are
built: in each place the column that the row type takes the path for, and where it takes the path
for none, NULL in a filter, NULL in a selected object, and no key in the ordering.  Where no type
inside the row type has its name, a path of several names is taken for no column. -/
theorem columns_of_compileFor {visit : List TypeDefinition → List String} {options : Options}
    {s : Statement} (hread : ofMembersIn visit members = .ok doc)
    (hcompile : Query.compileFor options doc.chain doc.descriptor = .ok s) :
    ∃ (scope : Scope) (conditions : List Json) (clauses : List (Option Filter.Operand))
        (keys : List String),
      (scope.rowType = doc.descriptor.element ∧
        capturedObject (members.lookup "captured") = .ok scope.closure) ∧
      ((members.lookup "filters").getD (.array []) = .array conditions ∧
        List.Forall₂ (FilterShows scope) conditions clauses ∧
        s.filters = clauses.reduceOption) ∧
      (∀ fields, members.lookup "select" = some (.object fields) → fields ≠ [] →
        List.Forall₂ (FieldShows scope) fields s.items) ∧
      ((members.lookup "order_by").getD (.array []) = .array (keys.map .text) ∧
        s.order = Query.shownKeys options scope.rowType (keys.map orderPath)) ∧
      (scope.rowType.name ≠ "object" →
        (∀ t, scope.rowType.Inside t → t.name ≠ scope.rowType.name) →
          ∀ path, 1 < (Text.segments path).length → scope.rowType.column? path = none) := by
  obtain ⟨scope, conditions, clauses, selections, selected, keys, hscope, ⟨hconditions, hclauses⟩,
    ⟨hselections, hselected⟩, hkeys, rfl⟩ := exists_parts_of_compileFor hread hcompile
  refine ⟨scope, conditions, clauses, keys, hscope, ⟨hconditions, hclauses, rfl⟩, ?_, ⟨hkeys, rfl⟩,
    ?_⟩
  · intro fields hfields hne
    rw [hfields] at hselections
    exact fieldShows_of_run_projection hselections hne hselected
  · intro hobject hforeign path hnested
    exact TypeRef.column?_eq_none_of_foreign hobject hforeign hnested

section

/-- A person, whose manager is a person of which only the name of the type is kept. -/
def managedPerson : TypeRef :=
  .record "Person" [("Name", .string), ("Manager", .named "Person")] []

/-- People by a column of their managers. -/
def peopleByManager : List (String × Json) :=
  let column (path : String) : Json := .object [("col", .text path)]
  [("dataset", .text "people"), ("row_type", .text "Person"),
    ("types", .object [("Person", .object [("properties", .object
      [("Name", .text "string"), ("Manager", .text "Person")])])]),
    ("filters", .array [.object [("op", .text "=="), ("left", column "Manager.Name"),
      ("right", .text "Ann")]]),
    ("select", .object [("boss", column "Manager.Name"), ("home", column "Home.City")]),
    ("order_by", .array [.text "-Manager.Name"])]

theorem build_managedPerson :
    TypeTable.buildInOrder [TypeDefinition.read "Person" [("properties", .object
      [("Name", .text "string"), ("Manager", .text "Person")])]] ["Person"] =
        .ok [("Person", managedPerson)] := by
  cbv

/-- The query of these people. -/
def managerQuery : Document :=
  let scope : Scope := ⟨managedPerson, .object []⟩
  let name := scope.column "Manager.Name"
  let shape := TypeRef.record "<>f__AnonymousType" [] []
  ⟨⟨"people", managedPerson⟩,
    [(.filter, scope.functionOf (.binary .equal name (.const (.text "Ann")))),
      (.select, scope.functionOf
        (.anonymous shape [("boss", name), ("home", scope.column "Home.City")])),
      (.orderBy true, scope.functionOf name)]⟩

theorem ofMembers_peopleByManager : ofMembers peopleByManager = .ok managerQuery := by
  simp only [ofMembers, ofMembersIn, bind_eq_ok_iff]
  exact ⟨_, rfl, _, rfl, _, rfl, _, build_managedPerson, _, rfl, _, rfl, _, rfl, _, rfl, _, rfl,
    rfl⟩

/-- The name of a manager is taken for the name of the person, since the type of the manager has the
name of the row type. -/
theorem columns_of_compileFor_peopleByManager :
    ∃ doc s, ofMembers peopleByManager = .ok doc ∧
      Query.compileFor Options.default doc.chain doc.descriptor = .ok s ∧
      s.filters.length = 1 ∧ (∀ o ∈ s.filters, o.at? [.left] = some (.column "Name")) ∧
      s.sql =
        "SELECT Name AS boss, NULL AS home FROM people WHERE (Name =  ? ) ORDER BY Name DESC" := by
  obtain ⟨s, hcompile, hlength, hsql⟩ : ∃ s,
      Query.compileFor Options.default managerQuery.chain managerQuery.descriptor = .ok s ∧
        s.filters.length = 1 ∧ s.sql =
          "SELECT Name AS boss, NULL AS home FROM people WHERE (Name =  ? ) ORDER BY Name DESC" :=
    ⟨_, rfl, rfl, rfl⟩
  refine ⟨managerQuery, s, ofMembers_peopleByManager, hcompile, hlength, ?_, hsql⟩
  obtain ⟨scope, conditions, clauses, keys, ⟨hrow, -⟩, ⟨hconditions, hclauses, hfilters⟩, -⟩ :=
    columns_of_compileFor ofMembers_peopleByManager hcompile
  obtain rfl : [_] = conditions := Json.array.inj hconditions
  cases hclauses with
  | cons hclause hrest =>
      cases hrest
      intro o ho
      rw [hfilters] at ho
      have hshown := hclause.columns o (by simpa [List.reduceOption, eq_comm] using ho) [.left] _
        "Manager.Name" rfl rfl
      rw [hshown, hrow]
      rfl

end

end Document

end BoundSql
