import BoundSql.Proofs.Filter.Renaming
import BoundSql.Proofs.Projection.Renaming
import BoundSql.Proofs.Query.Placeholders
import Mathlib

set_option autoImplicit false

/-!
# Chains with renamed parameters

A run over the steps of a chain is followed by a run over the steps of a renamed chain: the two
gather the same clauses, the same keys, and items that bind the same values, and so both chains
compile or none does.  Only the columns can differ, by the rendered paths of containers
(`agree_compile_renamed`).
-/

namespace BoundSql.Query

variable {options : Options} {rowType : TypeRef} {same : Prop} {p p' q : Progress} {s t : Step}
  {e f : Expr}

/-- The steps are calls of one operator with renamed arguments, whose containers show the same
rendered paths if `same`. -/
structure Step.Renamed (options : Options) (same : Prop) (s t : Step) : Prop where
  method : s.method = t.method
  argument : s.argument.Renamed t.argument
  paths : same → Projection.SamePaths options s.argument t.argument

/-- The steps of renamed chains are renamed one by one. -/
theorem agree_stepsBefore_renamed (h : e.Renamed f) :
    (same → Projection.SamePaths options e f) → ∀ {later later' : List Step},
      List.Forall₂ (Step.Renamed options same) later later' →
      Agree (List.Forall₂ (Step.Renamed options same)) (stepsBefore later e)
        (stepsBefore later' f) := by
  induction h with
  | @call args others declaring method length renamed ih =>
      intro hpaths later later' hlater
      have hchild {a b : Expr} (hmem : (a, b) ∈ args.zip others) (hsame : same) :
          Projection.SamePaths options a b :=
        (hpaths hsame).of_child (.call declaring method length renamed) hmem
      have hargs : List.Forall₂ (fun a b => Step.Renamed options same ⟨method, a⟩ ⟨method, b⟩ ∧
          ∀ {later later' : List Step}, List.Forall₂ (Step.Renamed options same) later later' →
            Agree (List.Forall₂ (Step.Renamed options same)) (stepsBefore later a)
              (stepsBefore later' b)) args others :=
        Expr.forall₂_of_zip length fun a b hmem =>
          ⟨⟨rfl, renamed a b hmem, hchild hmem⟩, ih a b hmem (hchild hmem)⟩
      rw [stepsBefore.eq_def, stepsBefore.eq_def _ (.call declaring method others)]
      dsimp only
      cases declaring.isQueryable with
      | false => exact .ok hlater
      | true =>
          rcases hargs with _ | ⟨hsource, _ | ⟨hargument, _ | _⟩⟩
          · exact .error _ _
          · exact .error _ _
          · exact hsource.2 (.cons hargument.1 hlater)
          · exact .error _ _
  | const _ | param _ _ _ | member _ _ _ | staticMember _ | binary _ _ _ _ _
  | lambda _ _ _ _ _ _ _ | record _ _ _ _ _ | construct _ _ _ _ _ | cond _ _ _ _ _ _ =>
      exact fun _ _ _ hlater => .ok hlater

/-! ## Progress -/

/-- The same clauses and keys have been gathered, and items that bind the same values, of which
there are some for both or for neither.  The items are the same if `same`. -/
structure Progress.Renamed (same : Prop) (p q : Progress) : Prop where
  filters : p.filters = q.filters
  order : p.order = q.order
  projection : Option.Rel (fun a b => Projection.values a.2 = Projection.values b.2 ∧
    (a.2 = [] ↔ b.2 = []) ∧ (same → a.2 = b.2)) p.projection q.projection

theorem orderKeys_eq_of_renamed {key key' : Lambda} (h : key.body.Renamed key'.body)
    (descending : Bool) : orderKeys rowType key descending = orderKeys rowType key' descending := by
  have hcolumn :
      Progress.orderColumn? rowType key.body = Progress.orderColumn? rowType key'.body := by
    generalize key.body = e at h
    generalize key'.body = f at h
    cases h with
    | cond _ _ renamedFalse => exact renamedFalse.dottedPath?_eq
    | const _ | param _ _ _ | member _ _ | staticMember _ | binary _ _ _ | call _ _ _ _
    | lambda _ _ _ _ _ _ | record _ _ _ _ | construct _ _ _ _ => rfl
  rw [orderKeys, orderKeys, hcolumn]

/-- An argument that is a lambda is a renamed lambda in the other step. -/
theorem Step.Renamed.exists_asLambda? (h : s.Renamed options same t) {g : Lambda}
    (hg : s.argument.asLambda? = some g) :
    ∃ g', t.argument.asLambda? = some g' ∧ g.returns = g'.returns ∧ g.body.Renamed g'.body ∧
      (same → Projection.SamePaths options g.body g'.body) := by
  obtain ⟨method, argument⟩ := s
  obtain ⟨method', argument'⟩ := t
  obtain ⟨-, hargument, hpaths⟩ := h
  dsimp only at hargument hpaths hg ⊢
  cases hargument with
  | lambda name name' type returns shaper renamed =>
      obtain rfl := Option.some.inj hg
      refine ⟨_, rfl, rfl, renamed, fun hsame => (hpaths hsame).of_child ?_ ?_⟩
      · exact .lambda name name' type returns shaper renamed
      · simp [Expr.children]
  | const _ | param _ _ _ | member _ _ | staticMember _ | binary _ _ _ | call _ _ _ _
  | record _ _ _ _ | construct _ _ _ _ | cond _ _ _ => simp [Expr.asLambda?] at hg

/-- A step that is taken is followed by the renamed step. -/
theorem Takes.renamed (hs : s.Renamed options same t) (hp : p.Renamed same p')
    (h : Takes options rowType p s q) :
    ∃ q', Takes options rowType p' t q' ∧ q.Renamed same q' := by
  cases h with
  | filter named argument tests reads =>
      obtain ⟨g', hargument, hreturns, hbody, -⟩ := hs.exists_asLambda? argument
      exact ⟨_, .filter (hs.method ▸ named) hargument (hreturns ▸ tests) (reads.renamed hbody),
        by rw [hp.filters], hp.order, hp.projection⟩
  | skip named argument tests =>
      obtain ⟨g', hargument, hreturns, -, -⟩ := hs.exists_asLambda? argument
      exact ⟨_, .skip (hs.method ▸ named) hargument (hreturns ▸ tests), hp⟩
  | @select g items named first argument collected =>
      obtain ⟨g', hargument, -, hbody, hpaths⟩ := hs.exists_asLambda? argument
      obtain ⟨items', hcollected, hitems⟩ :=
        (Projection.collect_renamed rowType hbody hpaths).exists_of_ok collected
      have hfirst : p'.projection = none := by
        rcases eq_none_or_exists_of_rel hp.projection with ⟨-, hnone⟩ | ⟨_, _, hsome, -, -⟩
        · exact hnone
        · exact absurd (first.symm.trans hsome) (by simp)
      exact ⟨_, .select (hs.method ▸ named) hfirst hargument hcollected, hp.filters, hp.order,
        .some hitems⟩
  | orderBy named on argument =>
      obtain ⟨g', hargument, -, hbody, -⟩ := hs.exists_asLambda? argument
      exact ⟨_, .orderBy (hs.method ▸ named) on hargument, hp.filters,
        orderKeys_eq_of_renamed hbody _, hp.projection⟩
  | thenBy named on argument =>
      obtain ⟨g', hargument, -, hbody, -⟩ := hs.exists_asLambda? argument
      exact ⟨_, .thenBy (hs.method ▸ named) on hargument, hp.filters,
        by rw [hp.order, orderKeys_eq_of_renamed hbody], hp.projection⟩
  | orderByOff named off =>
      exact ⟨_, .orderByOff (hs.method ▸ named) off, hp.filters, rfl, hp.projection⟩
  | thenByOff named off => exact ⟨_, .thenByOff (hs.method ▸ named) off, hp⟩

/-- A run is followed by a run over the renamed steps. -/
theorem run_renamed {ss ts : List Step} (h : List.Forall₂ (Step.Renamed options same) ss ts) :
    ∀ {p p' : Progress}, p.Renamed same p' → run options rowType p ss = .ok q →
      ∃ q', run options rowType p' ts = .ok q' ∧ q.Renamed same q' := by
  induction h with
  | nil =>
      intro p p' hp hrun
      obtain rfl := Except.ok.inj hrun
      exact ⟨p', rfl, hp⟩
  | cons hs _ ih =>
      intro p p' hp hrun
      obtain ⟨mid, htakes, hrest⟩ := run_cons_eq_ok_iff.mp hrun
      obtain ⟨mid', htakes', hmid⟩ := htakes.renamed hs hp
      obtain ⟨q', hrest', hq⟩ := ih hmid hrest
      exact ⟨q', run_cons_eq_ok_iff.mpr ⟨mid', htakes', hrest'⟩, hq⟩

theorem Progress.Renamed.start : Progress.start.Renamed same Progress.start :=
  ⟨rfl, rfl, .none⟩

/-- The selected items bind the same values, are both there or both not, and are the same if
`same`. -/
theorem Progress.Renamed.items (h : p.Renamed same q) (rowType : TypeRef) :
    Projection.values (p.items rowType) = Projection.values (q.items rowType) ∧
      (p.items rowType = [] ↔ q.items rowType = []) ∧
      (same → p.items rowType = q.items rowType) := by
  obtain ⟨projection, filters, order⟩ := p
  obtain ⟨projection', filters', order'⟩ := q
  obtain ⟨-, -, hprojection⟩ := h
  dsimp only at hprojection
  rcases hprojection with ⟨hvalues, hempty, hitems⟩ | _
  · rename_i a b
    obtain ⟨g, items⟩ := a
    obtain ⟨g', items'⟩ := b
    cases items with
    | nil =>
        obtain rfl : items' = [] := hempty.mp rfl
        exact ⟨rfl, .rfl, fun _ => rfl⟩
    | cons item items =>
        cases items' with
        | nil => exact absurd (hempty.mpr rfl) (by simp)
        | cons item' items' => exact ⟨hvalues, by simp [Progress.items], hitems⟩
  · exact ⟨rfl, .rfl, fun _ => rfl⟩

/-! ## Statements -/

/-- A compiled chain comes with a renamed one, which gives the same statement but for the
columns. -/
theorem compile_renamed (h : e.Renamed f) (hpaths : same → Projection.SamePaths options e f)
    {statement : Statement} (hcompile : compile options e = .ok statement) :
    ∃ other, compile options f = .ok other ∧ statement.dataset = other.dataset ∧
      statement.params = other.params ∧ statement.whereText = other.whereText ∧
      statement.orderText = other.orderText ∧
      (same → statement.sql = other.sql ∧ statement.columns = other.columns) := by
  obtain ⟨d, hroot, hfor⟩ := bind_eq_ok_iff.mp hcompile
  obtain ⟨ss, p, hsteps, hrun, hne, rfl⟩ := compileFor_eq_ok_iff.mp hfor
  have hagree : Agree (List.Forall₂ (Step.Renamed options same)) (steps e) (steps f) :=
    agree_stepsBefore_renamed h hpaths .nil
  rw [hsteps] at hagree
  generalize hother : steps f = steps' at hagree
  cases hagree with
  | @ok _ ts hsteps' =>
      obtain ⟨q, hrun', hq⟩ := run_renamed hsteps' .start hrun
      obtain ⟨hvalues, hempty, hitems⟩ := hq.items d.element
      have hfor' := compileFor_eq_ok_iff.mpr
        ⟨ts, q, hother, hrun', fun hnil => hne (hempty.mpr hnil), rfl⟩
      refine ⟨_, bind_eq_ok_iff.mpr ⟨d, h.root_eq ▸ hroot, hfor'⟩, rfl, ?_, ?_, ?_, fun hsame => ?_⟩
      · simp only [Statement.params, hvalues, hq.filters]
      · simp only [Statement.whereText, hq.filters]
      · simp only [Statement.orderText, hq.order]
      · simp only [Statement.sql, Statement.selectText, Statement.columns, Statement.whereText,
          Statement.orderText, hitems hsame, hq.filters, hq.order, and_self]

/-- A chain and a renamed one are refused together, or compile to statements with one dataset, one
condition, one ordering and the same parameters.  The text and the columns are the same as well if
the members to which dynamic containers fall back have the same rendered paths, that is, the same
displays from the fifth character on. -/
theorem agree_compile_renamed (options : Options) (h : e.Renamed f) :
    Agree (fun s t : Statement => s.dataset = t.dataset ∧ s.params = t.params ∧
        s.whereText = t.whereText ∧ s.orderText = t.orderText ∧
        ((Projection.fallbacks options e).map Projection.renderedPath =
            (Projection.fallbacks options f).map Projection.renderedPath →
          s.sql = t.sql ∧ s.columns = t.columns))
      (compile options e) (compile options f) := by
  have hfree : False → Projection.SamePaths options f e := False.elim
  refine .of_exists (fun s hs => ?_) fun t ht => ?_
  · exact compile_renamed h (Projection.samePaths_of_map_fallbacks_eq h) hs
  · obtain ⟨s, hs, -⟩ := compile_renamed h.symm hfree ht
    exact ⟨s, hs⟩

section

/-- A person under the given name. -/
def personNamed (name : String) : Expr := .param ⟨name, peopleDescriptor.element⟩

/-- The city of a person, or null where nothing is known of the person. -/
def cityOrNull (name : String) : Expr :=
  .cond (.binary .equal ((personNamed name).access "Info") (.const .null)) (.const .null)
    ((personNamed name).accessAll ["Info", "City"])

/-- People by their cities, in a container whose parameter has the given name. -/
def citiesBy (name : String) : Expr :=
  let type : TypeRef := .named "NamedProperty"
  (Expr.ofDescriptor peopleDescriptor).applyAll
    [(.select, .functionOver (personNamed name) (.record type
      [(.of type "Name", .const (.text "city")), (.of type "Value", cityOrNull name)]))]

def pairOptions : Options := Options.default.withContainersNamed ["NamedProperty"]

theorem citiesBy_renamed (name name' : String) : (citiesBy name).Renamed (citiesBy name') := by
  have hperson : (personNamed name).Renamed (personNamed name') := .param _ _ _
  have hcity : (cityOrNull name).Renamed (cityOrNull name') :=
    .cond (.binary _ (.member _ hperson) (.const _)) (.const _) (.member _ (.member _ hperson))
  refine .call_of_forall₂ _ _ (.cons (.const _) (.cons ?_ .nil))
  exact .lambda _ _ _ _ _ (.record_of_forall₂ _ (.cons ⟨rfl, .const _⟩ (.cons ⟨rfl, hcity⟩ .nil)))

theorem fallbacks_citiesBy (name : String) :
    Projection.fallbacks pairOptions (citiesBy name) =
      [(personNamed name).accessAll ["Info", "City"]] := by
  cbv

/-- Names of three characters are cut off together with the dot behind them. -/
theorem agree_compile_renamed_citiesBy :
    (citiesBy "$it").Renamed (citiesBy "row") ∧
      ∃ s t, compile pairOptions (citiesBy "$it") = .ok s ∧
        compile pairOptions (citiesBy "row") = .ok t ∧ s.sql = t.sql ∧
        t.sql = "SELECT Info.City AS Info_DOT_City FROM people" := by
  have hrenamed := citiesBy_renamed "$it" "row"
  have hrow (name : String) (hname : name.length = 3) :
      ∀ m ∈ Projection.fallbacks pairOptions (citiesBy name),
        ∃ p, m.row? = some p ∧ p.name.length = 3 := by
    rw [fallbacks_citiesBy]
    exact List.forall_mem_singleton.mpr ⟨_, rfl, hname⟩
  have hpaths := Projection.map_fallbacks_eq_of_row? hrenamed (hrow "$it" rfl) (hrow "row" rfl)
  have hsql : Statement.sql <$> compile pairOptions (citiesBy "row") =
      .ok "SELECT Info.City AS Info_DOT_City FROM people" := by cbv
  obtain ⟨t, ht, hsql⟩ := map_eq_ok_iff.mp hsql
  have hagree := agree_compile_renamed pairOptions hrenamed
  rw [ht] at hagree
  generalize compile pairOptions (citiesBy "$it") = compiled at hagree
  cases hagree with
  | ok related => exact ⟨hrenamed, _, t, rfl, ht, (related.2.2.2.2 hpaths).1, hsql⟩

/-- With a name of one character the first two of the path are cut off as well. -/
theorem sql_ne_of_short_name :
    (citiesBy "$it").Renamed (citiesBy "x") ∧
      ∃ s t, compile pairOptions (citiesBy "$it") = .ok s ∧
        compile pairOptions (citiesBy "x") = .ok t ∧
        s.sql = "SELECT Info.City AS Info_DOT_City FROM people" ∧
        t.sql = "SELECT fo.City AS fo_DOT_City FROM people" ∧
        s.columns ≠ t.columns := by
  let written (s : Statement) : String × List Column := (s.sql, s.columns)
  have hlong : written <$> compile pairOptions (citiesBy "$it") =
      .ok ("SELECT Info.City AS Info_DOT_City FROM people", [⟨"Info_DOT_City", "Info.City"⟩]) := by
    cbv
  have hshort : written <$> compile pairOptions (citiesBy "x") =
      .ok ("SELECT fo.City AS fo_DOT_City FROM people", [⟨"fo_DOT_City", "fo.City"⟩]) := by
    cbv
  obtain ⟨s, hs, hwritten⟩ := map_eq_ok_iff.mp hlong
  obtain ⟨t, ht, hwritten'⟩ := map_eq_ok_iff.mp hshort
  obtain ⟨hsql, hcolumns⟩ := Prod.mk.inj hwritten
  obtain ⟨hsql', hcolumns'⟩ := Prod.mk.inj hwritten'
  refine ⟨citiesBy_renamed "$it" "x", s, t, hs, ht, hsql, hsql', ?_⟩
  rw [hcolumns, hcolumns']
  decide

end

end BoundSql.Query
