import BoundSql.Command.Run
import BoundSql.Proofs.Document.Columns
import BoundSql.Proofs.Document.ExpressionRules
import BoundSql.Proofs.Document.Renderings
import BoundSql.Proofs.Projection.Labels

set_option autoImplicit false

/-!
# Entries of a selected array

A document can select an array of entries, each with a name and a value.  They are read from the
last to the first into a chain of containers, one inside the other, and the projection collects the
containers of the chain again, the outermost first.  What comes out are the entries in the order of
the document, without those whose name is taken when their turn comes (`columns_of_entries`).
-/

namespace BoundSql

namespace Projection

variable {options : Options} {e : Expr}

/-- A tree offers what its root offers, if that is a container, and then what its parts offer. -/
theorem containerOffers_preorder (options : Options) (e : Expr) :
    containerOffers options e.preorder = (containerOffer? options e).toList ++
      e.children.flatMap fun child => containerOffers options child.preorder := by
  rw [Expr.preorder_eq, containerOffers, List.filterMap_cons, List.filterMap_flatMap]
  cases containerOffer? options e <;> rfl

theorem containerOffers_preorder_eq_nil (root : containerOffer? options e = none)
    (parts : ∀ child ∈ e.children, containerOffers options child.preorder = []) :
    containerOffers options e.preorder = [] := by
  rw [containerOffers_preorder, root, List.flatMap_eq_nil_iff.mpr parts]
  rfl

/-- Members bring no containers to what they are read off. -/
theorem containerOffers_accessAll (h : containerOffers options e.preorder = [])
    (names : List String) : containerOffers options (e.accessAll names).preorder = [] := by
  induction names using List.reverseRecOn with
  | nil => exact h
  | append_singleton names name ih =>
      rw [Expr.accessAll_concat]
      exact containerOffers_preorder_eq_nil rfl (by simpa [Expr.access, Expr.children] using ih)

end Projection

/-- What a path leads to is a member with the last name of the path. -/
theorem Expr.exists_accessPath_eq (e : Expr) (path : String) :
    ∃ target ref, e.accessPath path = .member target ref ∧
      (Text.segments path).getLast? = some ref.name := by
  obtain ⟨inner, name, hsegments⟩ := Text.exists_segments_eq path
  refine ⟨e.accessAll inner, MemberRef.of (e.accessAll inner).typeOf name, ?_, ?_⟩
  · rw [accessPath, hsegments, accessAll_concat, access]
  · rw [hsegments, List.getLast?_concat]
    rfl

namespace Document

open Projection

/-! ## What is written in an entry -/

/-- The JSON value is an entry of an array with this name and value. -/
def IsEntry (json : Json) (entry : String × Json) : Prop :=
  ∃ members, json = .object members ∧ members.lookup "name" = some (.text entry.1) ∧
    members.lookup "value" = some entry.2

/-- A JSON value is an entry in one way only. -/
theorem rightUnique_isEntry : Relator.RightUnique IsEntry := by
  rintro json ⟨name, value⟩ ⟨name', value'⟩ ⟨members, rfl, hname, hvalue⟩
    ⟨_, hjson, hname', hvalue'⟩
  obtain rfl := Json.object.inj hjson
  obtain rfl := Json.text.inj (Option.some.inj (hname.symm.trans hname'))
  obtain rfl := Option.some.inj (hvalue.symm.trans hvalue')
  rfl

/-- The name of the member that a JSON value reads: of a column, a captured value or a static
member. -/
def memberName? : Json → Option String
  | .object members =>
    match Form.ofMembers members with
    | .column path => (Text.segments path).getLast?
    | .captured path => (Text.segments path).getLast?
    | .static name => some name
    | _ => none
  | _ => none

/-- What a conditional falls back to. -/
def fallback? : Json → Option Json
  | .object members =>
    match Form.ofMembers members with
    | .conditional => members.lookup "else"
    | _ => none
  | _ => none

/-- The value falls back to a member that is no column: a captured value or a static member. -/
def FallsBackElsewhere (value : Json) : Prop :=
  ∃ other, fallback? value = some other ∧ (memberName? other).isSome ∧ columnPath? other = none

/-- The column of an entry: a member under its own name, the column that a conditional falls back to
under its path, and anything else as a column of the name of the entry. -/
def entryColumn (separator name : String) (value : Json) : Column :=
  match memberName? value with
  | some member => .identity member
  | none =>
    match fallback? value >>= columnPath? with
    | some path => ⟨Text.replaceDots separator path, path⟩
    | none => .identity name

/-- The columns with that of one more entry, unless the name of the entry is a label already. -/
def addEntry (separator : String) (columns : List Column) (entry : String × Json) : List Column :=
  if columns.any (·.label == entry.1) then columns
  else columns ++ [entryColumn separator entry.1 entry.2]

/-! ## Values -/

variable {scope : Scope} {json value : Json} {e : Expr} {options : Options} {name : String}

/-- There are no containers in what a JSON value writes. -/
theorem containerOffers_of_writes (h : Writes scope json e) :
    containerOffers options e.preorder = [] := by
  induction h with
  | plain _ => rfl
  | column _ => exact containerOffers_accessAll rfl _
  | captured _ => exact containerOffers_accessAll rfl _
  | static _ => rfl
  | literal _ => rfl
  | @operation _ _ _ _ _ left right _ _ _ _ _ _ ihLeft ihRight =>
      unfold binaryOf
      split
      · have hcompared : containerOffers options (Expr.textCompare left right).preorder = [] :=
          containerOffers_preorder_eq_nil rfl
            (by simp [Expr.textCompare, Expr.children, ihLeft, ihRight])
        have hzero : containerOffers options (Expr.const (.integer 0)).preorder = [] := rfl
        exact containerOffers_preorder_eq_nil rfl (by simp [Expr.children, hcompared, hzero])
      · exact containerOffers_preorder_eq_nil rfl (by simp [Expr.children, ihLeft, ihRight])
  | membership _ _ _ _ _ ihItem ihList =>
      exact containerOffers_preorder_eq_nil rfl
        (by simp [Expr.contains, Expr.children, ihItem, ihList])
  | conditional _ _ _ _ _ _ _ ihTest ihThen ihElse =>
      exact containerOffers_preorder_eq_nil rfl (by simp [Expr.children, ihTest, ihThen, ihElse])

theorem memberName?_of_writes (h : Writes scope json e) :
    memberName? json = e.asMember?.map (·.name) := by
  cases h with
  | @plain json notObject =>
      cases json with
      | object members => exact absurd rfl (notObject members)
      | _ => rfl
  | @column members path form =>
      obtain ⟨target, ref, hmember, hname⟩ := scope.row.exists_accessPath_eq path
      simp only [memberName?, form, Scope.column, hmember, hname]
      rfl
  | @captured members path form =>
      obtain ⟨target, ref, hmember, hname⟩ := (Expr.const scope.closure).exists_accessPath_eq path
      simp only [memberName?, form, Scope.capturedPath, hmember, hname]
      rfl
  | static form => simp only [memberName?, form]; rfl
  | literal form => simp only [memberName?, form]; rfl
  | operation form _ _ _ _ _ =>
      simp only [memberName?, form, binaryOf]
      split <;> rfl
  | membership form _ _ _ _ => simp only [memberName?, form]; rfl
  | conditional form _ _ _ _ _ _ => simp only [memberName?, form]; rfl

/-- A value falls back to what its expression falls back to, if it is a conditional. -/
theorem fallback?_of_writes (h : Writes scope json e) :
    (∃ test ifTrue ifFalse other, e = .cond test ifTrue ifFalse ∧ fallback? json = some other ∧
      Writes scope other ifFalse) ∨ fallback? json = none ∧ conditionalMember? e = none := by
  cases h with
  | @plain json notObject =>
      cases json with
      | object members => exact absurd rfl (notObject members)
      | _ => exact .inr ⟨rfl, rfl⟩
  | @column members path form =>
      obtain ⟨target, ref, hmember, -⟩ := scope.row.exists_accessPath_eq path
      exact .inr ⟨by simp only [fallback?, form], by rw [Scope.column, hmember]; rfl⟩
  | @captured members path form =>
      obtain ⟨target, ref, hmember, -⟩ := (Expr.const scope.closure).exists_accessPath_eq path
      exact .inr ⟨by simp only [fallback?, form], by rw [Scope.capturedPath, hmember]; rfl⟩
  | static form => exact .inr ⟨by simp only [fallback?, form], rfl⟩
  | literal form => exact .inr ⟨by simp only [fallback?, form], rfl⟩
  | operation form _ _ _ _ _ =>
      refine .inr ⟨by simp only [fallback?, form], ?_⟩
      unfold binaryOf
      split <;> rfl
  | membership form _ _ _ _ => exact .inr ⟨by simp only [fallback?, form], rfl⟩
  | conditional form _ _ elseField _ _ writesElse =>
      exact .inl ⟨_, _, _, _, rfl, by simpa only [fallback?, form] using elseField, writesElse⟩

/-- A container shows the value of an entry as the column of the entry. -/
theorem column_pairItem_of_writes (h : Writes scope value e) (hplain : ¬FallsBackElsewhere value) :
    (pairItem options name e).column = entryColumn options.dotSeparator name value := by
  have hname := memberName?_of_writes h
  rcases fallback?_of_writes h with
    ⟨test, ifTrue, ifFalse, other, rfl, hother, hwrites⟩ | ⟨hother, hcond⟩
  · replace hname : memberName? value = none := hname
    have hmember := memberName?_of_writes hwrites
    cases hpath : columnPath? other with
    | some path =>
        obtain rfl := Except.ok.inj
          ((expression_eq_ok_iff.mpr hwrites).symm.trans (expression_of_columnPath? hpath))
        simp [Scope.pairItem_cond, entryColumn, hname, hother, hpath, Item.column, Source.text]
    | none =>
        have hnone : ifFalse.asMember? = none := by
          cases hsome : ifFalse.asMember? with
          | none => rfl
          | some ref => exact absurd ⟨other, hother, by simp [hmember, hsome], hpath⟩ hplain
        simp [pairItem, entryColumn, hname, hother, hpath, hnone, Item.column_identity]
  · rw [pairItem_eq, hcond, entryColumn, hname, hother]
    cases e.asMember? <;> rfl

/-! ## Entries -/

/-- An entry is read as its name and what its value writes. -/
def WritesEntry (scope : Scope) (entry : String × Json) (pair : String × Expr) : Prop :=
  pair.1 = entry.1 ∧ Writes scope entry.2 pair.2

/-- The chain of containers for names and values, the first of which is the outermost. -/
def chainOf : List (String × Expr) → Option Expr
  | [] => none
  | pair :: pairs => some (container pair.1 pair.2 (chainOf pairs))

variable {items : List Json} {entries : List (String × Json)} {pairs : List (String × Expr)}

theorem isEntry_of_entry {members : List (String × Json)} {pair : String × Expr}
    (h : entry scope members = .ok pair) :
    ∃ value, IsEntry (.object members) (pair.1, value) ∧ Writes scope value pair.2 := by
  unfold entry at h
  split at h
  · cases h
  · rename_i name hname
    split at h
    · cases h
    · rename_i value hvalue
      obtain ⟨e, he, rfl⟩ := map_eq_ok_iff.mp h
      exact ⟨value, ⟨members, rfl, hname, hvalue⟩, expression_eq_ok_iff.mp he⟩
  · cases h

/-- An array is read as the chain of its entries. -/
theorem exists_entries_of_containers : ∀ {items : List Json} {chain? : Option Expr},
    containers scope items = .ok chain? →
      ∃ entries pairs, List.Forall₂ IsEntry items entries ∧
        List.Forall₂ (WritesEntry scope) entries pairs ∧ chain? = chainOf pairs := by
  -- The chain is read from its end: what comes of the other entries is the next container.
  intro items
  induction items with
  | nil =>
      intro chain? h
      obtain rfl := Except.ok.inj h
      exact ⟨[], [], .nil, .nil, rfl⟩
  | cons json items ih =>
      intro chain? h
      obtain ⟨next?, hnext, h⟩ := bind_eq_ok_iff.mp h
      obtain ⟨entries, pairs, hentries, hpairs, rfl⟩ := ih hnext
      split at h
      · obtain ⟨pair, hpair, h⟩ := bind_eq_ok_iff.mp h
        obtain rfl := Except.ok.inj h
        obtain ⟨value, hentry, hwrites⟩ := isEntry_of_entry hpair
        exact ⟨(pair.1, value) :: entries, pair :: pairs, .cons hentry hentries,
          .cons ⟨rfl, hwrites⟩ hpairs, rfl⟩
      · cases h

variable {o : Command.CompileOptions}

/-- What a container for this name and value offers. -/
def pairOffer (options : Options) (pair : String × Expr) : Offer :=
  ⟨some pair.1, pairItem options pair.1 pair.2⟩

theorem pairs_container (o : Command.CompileOptions) (name : String) (value : Expr)
    (next? : Option Expr) :
    Pairs o.queryOptions (container name value next?) name value := by
  cases next? with
  | none => exact .intro rfl rfl rfl rfl
  | some next => exact .intro rfl rfl rfl rfl

theorem children_container (name : String) (value : Expr) (next? : Option Expr) :
    (container name value next?).children = .const (.text name) :: value :: next?.toList := by
  cases next? <;> rfl

/-- A chain offers what stands in it, in order, and no more. -/
theorem containerOffers_chainOf (h : List.Forall₂ (WritesEntry scope) entries pairs) :
    ((chainOf pairs).toList.flatMap fun e => containerOffers o.queryOptions e.preorder) =
      pairs.map (pairOffer o.queryOptions) := by
  induction h with
  | nil => rfl
  | @cons entry pair entries pairs hentry _ ih =>
      have hname : containerOffers o.queryOptions (Expr.const (.text pair.1)).preorder = [] := rfl
      have hvalue : containerOffers o.queryOptions pair.2.preorder = [] :=
        containerOffers_of_writes hentry.2
      rw [chainOf, Option.toList_some, List.flatMap_singleton, containerOffers_preorder,
        containerOffer?_of_pairs (pairs_container o pair.1 pair.2 _), children_container,
        List.flatMap_cons, List.flatMap_cons, hname, hvalue, ih]
      rfl

/-- One entry adds its column unless its name is a label already. -/
theorem addEntry_eq {entry : String × Json} {pair : String × Expr}
    (h : WritesEntry scope entry pair) (hplain : ¬FallsBackElsewhere entry.2)
    (columns : List Column) :
    addEntry options.dotSeparator columns entry =
      columns ++ Projection.columns (gather (columns.map (·.label)) [pairOffer options pair]) := by
  obtain ⟨hname, hwrites⟩ := h
  rw [pairOffer, gather_named, hname, contains_labels, addEntry]
  split
  · simp [Projection.columns]
  · simp [Projection.columns, column_pairItem_of_writes hwrites hplain]

/-- Entry by entry the columns are those of what is left of the offers. -/
theorem foldl_addEntry_eq (h : List.Forall₂ (WritesEntry scope) entries pairs)
    (hplain : ∀ entry ∈ entries, ¬FallsBackElsewhere entry.2) : ∀ columns : List Column,
      entries.foldl (addEntry options.dotSeparator) columns =
        columns ++ Projection.columns
          (gather (columns.map (·.label)) (pairs.map (pairOffer options))) := by
  -- Both sides go through the entries in order; the labels that are taken are those of the columns.
  induction h with
  | nil => simp [gather, Projection.columns]
  | @cons entry pair entries pairs hentry _ ih =>
      intro columns
      obtain ⟨hfirst, hrest⟩ := List.forall_mem_cons.mp hplain
      have hoffers : (pair :: pairs).map (pairOffer options) =
          [pairOffer options pair] ++ pairs.map (pairOffer options) := rfl
      rw [List.foldl_cons, addEntry_eq hentry hfirst, ih hrest, hoffers, gather_append, labelsAfter]
      simp [Projection.columns, Item.column, Function.comp_def]

/-! ## Projections -/

theorem exists_chain_of_projectionBody {body : Expr}
    (h : projectionBody scope (.array items) = .ok body) :
    ∃ chain, containers scope items = .ok (some chain) ∧ body = containerRecord chain := by
  obtain ⟨chain?, hchain, h⟩ := bind_eq_ok_iff.mp h
  cases chain? with
  | none => cases h
  | some chain => exact ⟨chain, hchain, (Except.ok.inj h).symm⟩

/-- The record around a chain adds nothing to what is collected from the containers. -/
theorem collect_containerRecord (o : Command.CompileOptions) (rowType : TypeRef) (name : String)
    (value : Expr) (next? : Option Expr) :
    collect o.queryOptions rowType (containerRecord (container name value next?)) =
      collectDynamic o.queryOptions (container name value next?) := by
  cases next? with
  | none => exact Collector.andThen_done _
  | some next => exact Collector.andThen_done _

/-- The items of a chain are what is left of the offers of its containers, at least one. -/
theorem items_of_collect_chain {rowType : TypeRef} {chain : Expr} {shown : List Item}
    (hpairs : List.Forall₂ (WritesEntry scope) entries pairs) (hchain : chainOf pairs = some chain)
    (h : collect o.queryOptions rowType (containerRecord chain) [] = ⟨shown, none⟩) :
    shown = gather [] (pairs.map (pairOffer o.queryOptions)) ∧ shown ≠ [] ∧ values shown = [] := by
  have hoffers := containerOffers_chainOf (o := o) hpairs
  rw [hchain, Option.toList_some, List.flatMap_singleton] at hoffers
  cases pairs with
  | nil => cases hchain
  | cons pair pairs =>
      obtain rfl := Option.some.inj hchain
      rw [collect_containerRecord] at h
      have hshown := items_of_collectDynamic h
      rw [hoffers] at hshown
      refine ⟨hshown, ?_, ?_⟩
      · rw [hshown]
        simp [gather, pairOffer, Offer.item?]
      · have hvalues := yields_collectDynamic (container pair.1 pair.2 (chainOf pairs)) []
          (congrArg Collected.error h)
        rwa [h] at hvalues

/-- A document selects an array and is read and compiles, with any text for dots.

* The array consists of entries.  The columns are those that the entries add, one after another in
  the order of the document: each its own, unless its name is a label already.
* There is a column, the columns bind no value, and they are those of the array and not those of the
  row type.

Entries are left out of the first point whose value is a conditional that falls back to a captured
value or to a static member. -/
theorem columns_of_entries {visit : List TypeDefinition → List String} {doc : Document}
    {members : List (String × Json)} {s : Statement} (hread : ofMembersIn visit members = .ok doc)
    (hselect : members.lookup "select" = some (.array items))
    (hcompile : Query.compileFor o.queryOptions doc.chain doc.descriptor = .ok s) :
    ∃ entries, List.Forall₂ IsEntry items entries ∧
      ((∀ entry ∈ entries, ¬FallsBackElsewhere entry.2) →
        s.columns = entries.foldl (addEntry o.queryOptions.dotSeparator) []) ∧
      s.columns ≠ [] ∧ s.params = s.filters.flatMap Filter.Operand.values ∧
      ∃ f, s.projection = some f ∧
        collect o.queryOptions doc.descriptor.element f.body [] = ⟨s.items, none⟩ := by
  obtain ⟨scope, conditions, clauses, selections, selected, keys, ⟨hrow, -⟩, -,
    ⟨hselections, hselected⟩, -, rfl⟩ := exists_parts_of_compileFor hread hcompile
  rw [hselect] at hselections
  obtain ⟨body, hbody, rfl⟩ := map_eq_ok_iff.mp hselections
  obtain ⟨chain, hcontainers, rfl⟩ := exists_chain_of_projectionBody hbody
  obtain ⟨entries, pairs, hentries, hpairs, hchain⟩ := exists_entries_of_containers hcontainers
  obtain ⟨f, shown, hlambda, hcollect, rfl⟩ := Query.exists_items_of_run hselected
  have hlambdaBody : f.body = containerRecord chain :=
    congrArg Lambda.body (Option.some.inj hlambda).symm
  obtain ⟨hshown, hne, hvalues⟩ :=
    items_of_collect_chain hpairs hchain.symm (hlambdaBody ▸ hcollect)
  obtain ⟨item, rest, rfl⟩ := List.exists_cons_of_ne_nil hne
  refine ⟨entries, hentries, ?_, ?_, ?_, f, rfl, hrow ▸ hcollect⟩
  · intro hplain
    rw [foldl_addEntry_eq hpairs hplain]
    exact congrArg Projection.columns hshown
  · simp [Statement.columns, Projection.columns, Query.Progress.items]
  · rw [Statement.params]
    exact congrArg (· ++ _) hvalues

section

/-- The test that a person has no information. -/
def infoIsMissing : Json :=
  .object [("op", .text "=="), ("left", .object [("col", .text "Info")]), ("right", .null)]

/-- The entries of a list of people: the second has the name of the column that the first gives, and
the third falls back to a path. -/
def listedEntries : List (String × Json) :=
  [("n", .object [("col", .text "Name")]), ("Name", .integer 1),
    ("city", .object [("if", infoIsMissing), ("then", .null),
      ("else", .object [("col", .text "Info.City")])]),
    ("k", .integer 5)]

def listedPeople : List (String × Json) :=
  [("dataset", .text "people"), ("row_type", .text "Person"),
    ("types", .object [("Person", .object [("properties", .object [("Name", .text "string")])])]),
    ("select", .array (listedEntries.map fun entry =>
      .object [("name", .text entry.1), ("value", entry.2)]))]

/-- The query of these people. -/
def listQuery : Document :=
  let rowType : TypeRef := .record "Person" [("Name", .string)] []
  let scope : Scope := ⟨rowType, .object []⟩
  let city : Expr := .cond (.binary .equal (scope.column "Info") (.const .null)) (.const .null)
    (scope.column "Info.City")
  let chain := container "n" (scope.column "Name") (container "Name" (.const (.integer 1))
    (container "city" city (container "k" (.const (.integer 5)) none)))
  ⟨⟨"people", rowType⟩, [(.select, scope.functionOf (containerRecord chain))]⟩

theorem build_listedPerson :
    TypeTable.buildInOrder [TypeDefinition.read "Person" [("properties", .object
      [("Name", .text "string")])]] ["Person"] =
        .ok [("Person", .record "Person" [("Name", .string)] [])] := by
  cbv

theorem ofMembers_listedPeople : ofMembers listedPeople = .ok listQuery := by
  simp only [ofMembers, ofMembersIn, bind_eq_ok_iff]
  exact ⟨_, rfl, _, rfl, _, rfl, _, build_listedPerson, _, rfl, _, rfl, _, rfl, _, rfl, _, rfl,
    rfl⟩

/-- The second entry is left out. -/
theorem columns_of_entries_listedPeople :
    ∃ doc s, ofMembers listedPeople = .ok doc ∧
      Query.compileFor (Command.CompileOptions.mk false false (some "/")).queryOptions doc.chain
        doc.descriptor = .ok s ∧
      s.columns = [.identity "Name", ⟨"Info/City", "Info.City"⟩, .identity "k"] := by
  have hcompiles : (Query.compileFor (Command.CompileOptions.mk false false (some "/")).queryOptions
      listQuery.chain listQuery.descriptor).isOk = true := by decide +kernel
  cases hcompile : Query.compileFor (Command.CompileOptions.mk false false (some "/")).queryOptions
      listQuery.chain listQuery.descriptor with
  | error cause => simp [hcompile, Except.isOk, Except.toBool] at hcompiles
  | ok s =>
      refine ⟨listQuery, s, ofMembers_listedPeople, hcompile, ?_⟩
      obtain ⟨entries, hentries, hcolumns, -⟩ :=
        columns_of_entries ofMembers_listedPeople rfl hcompile
      have hlisted : List.Forall₂ IsEntry _ listedEntries := List.forall₂_map_left_iff.mpr
        (List.forall₂_same.mpr fun entry _ =>
          ⟨[("name", .text entry.1), ("value", entry.2)], rfl, rfl, rfl⟩)
      obtain rfl := rightUnique_isEntry.forall₂ hentries hlisted
      have hplain : ∀ entry ∈ listedEntries, ¬FallsBackElsewhere entry.2 := by
        rintro entry hentry ⟨other, hother, -, hpath⟩
        simp only [listedEntries, List.mem_cons, List.not_mem_nil, or_false] at hentry
        rcases hentry with rfl | rfl | rfl | rfl
        · cases hother
        · cases hother
        · obtain rfl := Option.some.inj hother
          cases hpath
        · cases hother
      rw [hcolumns hplain]
      decide +kernel

end

end Document

end BoundSql
