import BoundSql.Expr.Build
import BoundSql.Proofs.Projection.Offers
import BoundSql.Query.Gathered
import Mathlib.Data.List.Forall2

set_option autoImplicit false

/-!
# Shared columns and parameters

Projections that share their columns and parameters keep the two in step, whether they are recorded
to their ends or stop half way.  Both lists grow by the fields that show a literal, in the order in
which the places are visited: one has their placeholders, the other has their values
(`projectAll_in_step`).
-/

namespace BoundSql

namespace Projection

variable {options : Options} {rowType : TypeRef}

/-! ## Placeholders and their values -/

/-- The column was made for a literal of the expression, and the value is what this literal
resolves to. -/
inductive Binds (rowType : TypeRef) (e : Expr) : Column → Value → Prop where
  /-- An argument of a constructor under the name of its parameter. -/
  | argument {type : TypeRef} {paramNames : List String} {args : List Expr} {label : String}
      {arg : Expr} {value : Value} (part : .construct type paramNames args ∈ e.preorder)
      (field : (label, arg) ∈ paramNames.zip args) (foreign : arg.isRowMember rowType = false)
      (resolved : arg.resolve = .ok (some value)) : Binds rowType e ⟨label, "?"⟩ value
  /-- A plain member of a record. -/
  | binding {type : TypeRef} {bindings : List (MemberRef × Expr)} {ref : MemberRef} {arg : Expr}
      {value : Value} (part : .record type bindings ∈ e.preorder) (bound : (ref, arg) ∈ bindings)
      (foreign : arg.isRowMember rowType = false) (resolved : arg.resolve = .ok (some value)) :
      Binds rowType e ⟨ref.name, "?"⟩ value

theorem resolved_of_source {e : Expr} {value : Value} (h : source rowType e = .ok (.bound value)) :
    e.isRowMember rowType = false ∧ e.resolve = .ok (some value) := by
  rcases source_eq_ok_iff.mp h with ⟨ref, -, -, heq⟩ | ⟨hrow, ⟨v, hresolve, heq⟩ | ⟨-, heq⟩⟩
  · simp at heq
  · obtain rfl := Source.bound.inj heq
    exact ⟨hrow, hresolve⟩
  · simp at heq

/-- A shown value is bound for its literal. -/
theorem Shows.binds {e : Expr} {item : Item} {value : Value} (h : Shows options rowType e item)
    (hbound : item.source = .bound value) : Binds rowType e item.column value := by
  have hcolumn : item.column = ⟨item.label, "?"⟩ := by simp [Item.column, hbound, Source.text]
  rw [hcolumn]
  cases h with
  | argument part field sourced =>
      obtain rfl := hbound
      obtain ⟨hforeign, hresolved⟩ := resolved_of_source sourced
      exact .argument part field hforeign hresolved
  | binding part bound sourced =>
      obtain rfl := hbound
      obtain ⟨hforeign, hresolved⟩ := resolved_of_source sourced
      exact .binding part bound hforeign hresolved
  | publicName part bound container resolved => simp [Item.identity] at hbound
  | @pair type bindings named other name part container nameBound valueBound labelled =>
      have hnone : (pairItem options name other).source.value? = none := value?_pairItem name other
      rw [hbound] at hnone
      simp [Source.value?] at hnone

theorem Source.value?_eq_some_iff {source : Source} {value : Value} :
    source.value? = some value ↔ source = .bound value := by
  cases source <;> simp [Source.value?]

/-- The column and the value of an item that binds one. -/
def Item.binding? (item : Item) : Option (Column × Value) :=
  item.source.value?.map fun value => (item.column, value)

/-- What items bind, in order. -/
def bindings (items : List Item) : List (Column × Value) := items.filterMap Item.binding?

theorem bindings_append (items others : List Item) :
    bindings (items ++ others) = bindings items ++ bindings others :=
  List.filterMap_append

theorem values_eq_map_bindings (items : List Item) : values items = (bindings items).map (·.2) := by
  rw [bindings, List.map_filterMap, values]
  congr 1
  funext item
  simp [Item.binding?, Function.comp_def]

/-- When no item is a column called `?`, the columns of placeholders are those that bind. -/
theorem filter_columns_eq_map_bindings {items : List Item}
    (plain : ∀ item ∈ items, item.source ≠ .column "?") :
    (columns items).filter (·.value == "?") = (bindings items).map (·.1) := by
  induction items with
  | nil => rfl
  | cons item items ih =>
      have hrest := ih fun other hother => plain other (List.mem_cons_of_mem item hother)
      have hitem := plain item List.mem_cons_self
      obtain ⟨label, source⟩ := item
      cases source with
      | column name =>
          have hname : name ≠ "?" := fun heq => hitem (congrArg Source.column heq)
          have hnone : Item.binding? ⟨label, .column name⟩ = none := rfl
          rw [bindings, List.filterMap_cons_none hnone]
          simpa [columns, bindings, Item.column, Source.text, hname] using hrest
      | bound value =>
          have hsome : Item.binding? ⟨label, .bound value⟩ = some (⟨label, "?"⟩, value) := rfl
          rw [bindings, List.filterMap_cons_some hsome]
          simpa [columns, bindings, Item.column, Source.text] using hrest
      | null =>
          have hnone : Item.binding? ⟨label, .null⟩ = none := rfl
          rw [bindings, List.filterMap_cons_none hnone]
          simpa [columns, bindings, Item.column, Source.text, Filter.nullText] using hrest

/-! ## Fields that show literals -/

/-- A field that shows a literal. -/
structure LiteralField (rowType : TypeRef) where
  label : String
  e : Expr
  value : Value
  foreign : e.isRowMember rowType = false
  resolved : e.resolve = .ok (some value)

namespace LiteralField

variable {rowType : TypeRef}

/-- The placeholder of the literal. -/
def column (field : LiteralField rowType) : Column := ⟨field.label, "?"⟩

/-- The placeholder of the literal and its value. -/
def binding (field : LiteralField rowType) : Column × Value := (field.column, field.value)

theorem value_ne_null (field : LiteralField rowType) : field.value ≠ .null := by
  intro hnull
  have hresolved : field.value.isNull = false := Expr.isNull_of_resolve field.resolved
  simp [hnull, Value.isNull] at hresolved

end LiteralField

/-- A field with a label, if it shows a literal. -/
def literalField? (rowType : TypeRef) (label : String) (e : Expr) :
    Option (LiteralField rowType) :=
  match foreign : e.isRowMember rowType, resolved : e.resolve with
  | false, .ok (some value) => some ⟨label, e, value, foreign, resolved⟩
  | _, _ => none

/-- The field at a place, if it shows a literal. -/
def Place.literal? (rowType : TypeRef) : Place → Option (LiteralField rowType)
  | .field label e => literalField? rowType label e
  | _ => none

/-- The places before the first stop. -/
def reached (options : Options) (rowType : TypeRef) (ps : List Place) : List Place :=
  ps.takeWhile fun place => (place.visit options rowType).isOk

/-- The visits of a projection.  One that is no lambda stops at once. -/
def visitsOf (options : Options) (rowType : TypeRef) (p : Expr) : List Visit :=
  match p.asLambda? with
  | none => [.error (.projectionNotLambda p)]
  | some f => visits options rowType f.body

/-- The literals of a projection in visiting order, up to the place at which it stops. -/
def literals (options : Options) (rowType : TypeRef) (p : Expr) : List (LiteralField rowType) :=
  match p.asLambda? with
  | none => []
  | some f => (reached options rowType (places options f.body)).filterMap (Place.literal? rowType)

/-- Offers that bind nothing give items that bind nothing. -/
theorem bindings_gather_eq_nil {os : List Offer} (h : ∀ o ∈ os, o.item.source.value? = none) :
    ∀ taken : List String, bindings (gather taken os) = [] := by
  induction os with
  | nil => exact fun _ => rfl
  | cons o os ih =>
      intro taken
      have hitem : bindings (o.item? taken).toList = [] := by
        unfold Offer.item?
        split
        · rfl
        · simp [bindings, Item.binding?, h o List.mem_cons_self]
      rw [gather_cons, bindings_append, hitem, List.nil_append]
      exact ih (fun other hother => h other (List.mem_cons_of_mem o hother)) _

theorem value?_of_containerVisit {e : Expr} {o : Offer}
    (h : containerVisit options e = .ok (some o)) : o.item.source.value? = none := by
  unfold containerVisit at h
  split at h
  · split at h
    · obtain ⟨named, -, h⟩ := bind_eq_ok_iff.mp h
      obtain ⟨value, -, h⟩ := bind_eq_ok_iff.mp h
      obtain ⟨name, -, rfl⟩ := Option.map_eq_some_iff.mp (Except.ok.inj h)
      exact value?_pairItem name value
    · cases h
  · cases h

/-- A field binds the literal that it shows, if it shows one. -/
theorem toList_binding?_of_source {label : String} {e : Expr} {shown : Source}
    (h : source rowType e = .ok shown) :
    (Item.binding? ⟨label, shown⟩).toList =
      (literalField? rowType label e).toList.map LiteralField.binding := by
  unfold literalField?
  rcases source_eq_ok_iff.mp h with
    ⟨ref, hrow, -, rfl⟩ | ⟨hforeign, ⟨value, hresolve, rfl⟩ | ⟨hresolve, rfl⟩⟩
  · split
    · simp_all
    · rfl
  · split
    · rename_i other foreign resolved
      obtain rfl := Option.some.inj (Except.ok.inj (hresolve.symm.trans resolved))
      rfl
    · rename_i hnone
      exact absurd hresolve (hnone value hforeign)
  · split
    · simp_all
    · rfl

/-- What a place offers binds the literal that it shows, if it shows one. -/
theorem bindings_gather_of_visit {place : Place} {o? : Option Offer}
    (h : place.visit options rowType = .ok o?) (taken : List String) :
    bindings (gather taken o?.toList) =
      (place.literal? rowType).toList.map LiteralField.binding := by
  cases place with
  | field label e =>
      obtain ⟨shown, hshown, rfl⟩ := map_eq_ok_iff.mp h
      rw [Option.toList_some, gather_singleton]
      exact toList_binding?_of_source hshown
  | publicName e =>
      obtain ⟨value?, -, rfl⟩ := map_eq_ok_iff.mp h
      refine bindings_gather_eq_nil ?_ taken
      intro o ho
      obtain ⟨name, -, rfl⟩ := Option.map_eq_some_iff.mp (Option.mem_toList.mp ho)
      rfl
  | part e =>
      refine bindings_gather_eq_nil ?_ taken
      intro o ho
      exact value?_of_containerVisit (h.trans (congrArg _ (Option.mem_toList.mp ho)))
  | arity type expected actual => cases h

/-- Places bind the literals of those before the first stop, whatever labels are taken. -/
theorem bindings_gather_places (ps : List Place) : ∀ taken : List String,
    bindings (gather taken (offered (ps.map (Place.visit options rowType)))) =
      ((reached options rowType ps).filterMap (Place.literal? rowType)).map
        LiteralField.binding := by
  -- Every place that adds an item takes a label, so the induction is for all labels at once.
  induction ps with
  | nil => exact fun _ => rfl
  | cons place ps ih =>
      intro taken
      cases hvisit : place.visit options rowType with
      | error cause => simp [hvisit, offered, reached, gather, bindings, Except.isOk, Except.toBool]
      | ok o? =>
          have hreached : reached options rowType (place :: ps) =
              place :: reached options rowType ps := by
            simp [reached, hvisit, Except.isOk, Except.toBool]
          rw [List.map_cons, hvisit, offered, gather_append, bindings_append, ih,
            bindings_gather_of_visit hvisit, hreached, ← List.map_append]
          congr 1
          cases hliteral : place.literal? rowType <;> simp [hliteral]

/-- What a projection binds are its literals, whatever labels are taken. -/
theorem bindings_gather_visitsOf (p : Expr) (taken : List String) :
    bindings (gather taken (offered (visitsOf options rowType p))) =
      (literals options rowType p).map LiteralField.binding := by
  unfold visitsOf literals
  cases p.asLambda? with
  | none => rfl
  | some f => exact bindings_gather_places (places options f.body) taken

/-! ## Texts of columns -/

/-- The texts that the pair of a container can have stand for a column: its public name, and the
path that its value falls back to. -/
def pairTexts (bindings : List (MemberRef × Expr)) : List String :=
  (singleBinding bindings "Name").toOption.toList.filterMap publicName? ++
    (singleBinding bindings "Value").toOption.toList.filterMap fun value =>
      match value with
      | .cond _ _ ifFalse => some (renderedPath ifFalse)
      | _ => none

/-- The texts that a part of a projection can have stand for a column: the name of a member, the
texts of the pair of a container, and the public names that its plain members resolve to. -/
def columnTexts (options : Options) : Expr → List String
  | .member _ ref | .staticMember ref => [ref.name]
  | .record type bindings =>
    (if options.isContainer type then pairTexts bindings else []) ++
      bindings.flatMap fun (ref, e) =>
        if options.isContainer ref.declaring then
          (Filter.boundValue? e).toList.filterMap Value.asText?
        else []
  | _ => []

theorem mem_columnTexts_of_asMember? {e : Expr} {ref : MemberRef} (h : e.asMember? = some ref) :
    ref.name ∈ columnTexts options e := by
  cases e with
  | member target other =>
      obtain rfl : other = ref := by simpa [Expr.asMember?] using h
      exact List.mem_cons_self
  | staticMember other =>
      obtain rfl : other = ref := by simpa [Expr.asMember?] using h
      exact List.mem_cons_self
  | _ => simp [Expr.asMember?] at h

/-- The column of the pair of a container. -/
theorem column_of_pairItem {name text : String} {value : Expr}
    (h : (pairItem options name value).source = .column text) :
    text = name ∨ (∃ ref, value.asMember? = some ref ∧ text = ref.name) ∨
      ∃ test ifTrue ifFalse, value = .cond test ifTrue ifFalse ∧ text = renderedPath ifFalse := by
  unfold pairItem at h
  split at h
  · rename_i target ref
    exact .inr (.inl ⟨ref, rfl, (Source.column.inj h).symm⟩)
  · rename_i ref
    exact .inr (.inl ⟨ref, rfl, (Source.column.inj h).symm⟩)
  · rename_i test ifTrue ifFalse
    split at h
    · exact .inr (.inr ⟨test, ifTrue, ifFalse, rfl, (Source.column.inj h).symm⟩)
    · exact .inl (Source.column.inj h).symm
  · exact .inl (Source.column.inj h).symm

/-- A column that is shown is a text of a part. -/
theorem Shows.mem_columnTexts {e : Expr} {item : Item} {text : String}
    (h : Shows options rowType e item) (hcolumn : item.source = .column text) :
    text ∈ e.preorder.flatMap (columnTexts options) := by
  have hmember {part arg : Expr} {ref : MemberRef} (hpart : part ∈ e.preorder)
      (hchild : arg ∈ part.children) (href : arg.asMember? = some ref) :
      ref.name ∈ e.preorder.flatMap (columnTexts options) := by
    refine List.mem_flatMap.mpr ⟨arg, ?_, mem_columnTexts_of_asMember? href⟩
    apply Expr.preorder_subset_of_mem hpart
    exact Expr.preorder_subset_of_child hchild (Expr.self_mem_preorder arg)
  have hsource {part arg : Expr} (hpart : part ∈ e.preorder) (hchild : arg ∈ part.children)
      (sourced : source rowType arg = .ok (.column text)) :
      text ∈ e.preorder.flatMap (columnTexts options) := by
    rcases source_eq_ok_iff.mp sourced with ⟨ref, -, href, heq⟩ | ⟨-, ⟨v, -, heq⟩ | ⟨-, heq⟩⟩
    · obtain rfl := Source.column.inj heq
      exact hmember hpart hchild href
    · simp at heq
    · simp at heq
  cases h with
  | argument part field sourced =>
      obtain rfl := hcolumn
      exact hsource part (List.of_mem_zip field).2 sourced
  | binding part bound sourced =>
      obtain rfl := hcolumn
      exact hsource part (List.mem_map.mpr ⟨_, bound, rfl⟩) sourced
  | @publicName type bindings ref arg name part bound container resolved =>
      obtain rfl := Source.column.inj hcolumn
      refine List.mem_flatMap.mpr ⟨_, part, List.mem_append_right _ ?_⟩
      refine List.mem_flatMap.mpr ⟨_, bound, ?_⟩
      simp [container, Filter.boundValue?, resolved, Value.asText?]
  | @pair type bindings named value name part container nameBound valueBound labelled =>
      rcases column_of_pairItem hcolumn with
        rfl | ⟨ref, href, rfl⟩ | ⟨test, ifTrue, ifFalse, rfl, rfl⟩
      · refine List.mem_flatMap.mpr ⟨_, part, List.mem_append_left _ ?_⟩
        simp [container, pairTexts, nameBound, labelled, Except.toOption]
      · obtain ⟨valueRef, hvalue⟩ := mem_of_singleBinding valueBound
        exact hmember part (List.mem_map.mpr ⟨_, hvalue, rfl⟩) href
      · refine List.mem_flatMap.mpr ⟨_, part, List.mem_append_left _ ?_⟩
        simp [container, pairTexts, valueBound, Except.toOption]

end Projection

/-! ## Projections one after another -/

namespace Gathered

open Projection

variable {options : Options} {rowType : TypeRef}

/-- How a projection ends. -/
def ending (options : Options) (rowType : TypeRef) (p : Expr) : Except CompileError Lambda :=
  match p.asLambda? with
  | none => .error (.projectionNotLambda p)
  | some f =>
    match stop? (visits options rowType f.body) with
    | some cause => .error cause
    | none => .ok f

/-- A projection adds what is left of its offers.  How it ends is the same for all lists to which it
can be added. -/
theorem project_eq (p : Expr) (g : Gathered) :
    g.project options rowType p =
      (g.extend (gather g.labels (offered (visitsOf options rowType p))),
        ending options rowType p) := by
  unfold project visitsOf ending
  cases p.asLambda? with
  | none => simp [offered, gather, extend_nil]
  | some f =>
      simp only [record_eq, Collected.addTo]
      cases stop? (visits options rowType f.body) <;> rfl

theorem shows_of_mem_gather {p : Expr} {taken : List String} {item : Item}
    (h : item ∈ gather taken (offered (visitsOf options rowType p))) :
    Shows options rowType p item := by
  unfold visitsOf at h
  cases hp : p.asLambda? with
  | none => simp [hp, offered, gather] at h
  | some f =>
      simp only [hp] at h
      have hmem : item ∈ (collect options rowType f.body taken).items := by
        rwa [collect_eq, Collector.ofVisits_apply]
      exact (shows_of_mem_collect hmem).of_subset (Expr.body_preorder_subset hp)

/-- Projections one after another add items of their own, whatever their ends.  The items bind the
literals of the projections. -/
theorem projectAll_extends (ps : List Expr) : ∀ g : Gathered, ∃ items,
    g.projectAll options rowType ps = (g.extend items, ps.map (ending options rowType)) ∧
      bindings items = (ps.flatMap (literals options rowType)).map LiteralField.binding ∧
      ∀ item ∈ items, ∃ p ∈ ps, Shows options rowType p item := by
  induction ps with
  | nil =>
      intro g
      exact ⟨[], by rw [extend_nil]; rfl, rfl, by simp⟩
  | cons p ps ih =>
      intro g
      obtain ⟨items, hlast, hbindings, hshows⟩ :=
        ih (g.extend (gather g.labels (offered (visitsOf options rowType p))))
      refine ⟨gather g.labels (offered (visitsOf options rowType p)) ++ items, ?_, ?_, ?_⟩
      · simp only [projectAll, project_eq, hlast, extend_append, List.map_cons]
      · rw [bindings_append, bindings_gather_visitsOf, hbindings, List.flatMap_cons,
          List.map_append]
      · intro item hitem
        rcases List.mem_append.mp hitem with hitem | hitem
        · exact ⟨p, List.mem_cons_self, shows_of_mem_gather hitem⟩
        · obtain ⟨q, hq, hshown⟩ := hshows item hitem
          exact ⟨q, List.mem_cons_of_mem p hq, hshown⟩

/-- Projections are recorded one after another in lists that have columns and parameters already.
Let the parameters `P` be those that they give when they start from empty lists.

* Whatever their ends, they add columns to the columns and `P` to the parameters, and each ends as
  it does when they start from empty lists.
* No value in `P` is null.
* `P` has the values of the fields that show a literal, field by field in the order in which the
  places of the projections are visited, up to the place at which a projection stops.
* When no text that the projections can have stand for a column is `?`, the added columns that are
  placeholders are those of the same fields in the same order.  So they and `P` are one for one, and
  each was added for the literal that resolves to its value. -/
theorem projectAll_in_step (options : Options) (rowType : TypeRef) (g : Gathered)
    (ps : List Expr) :
    ∃ columns, g.projectAll options rowType ps =
        (⟨g.columns ++ columns,
          g.params ++ ((⟨[], []⟩ : Gathered).projectAll options rowType ps).1.params⟩,
          ((⟨[], []⟩ : Gathered).projectAll options rowType ps).2) ∧
      Value.null ∉ ((⟨[], []⟩ : Gathered).projectAll options rowType ps).1.params ∧
      ((⟨[], []⟩ : Gathered).projectAll options rowType ps).1.params =
        (ps.flatMap (literals options rowType)).map LiteralField.value ∧
      ((∀ p ∈ ps, "?" ∉ p.preorder.flatMap (columnTexts options)) →
        columns.filter (·.value == "?") =
          (ps.flatMap (literals options rowType)).map LiteralField.column ∧
        List.Forall₂ (fun column value => ∃ p ∈ ps, Binds rowType p column value)
          (columns.filter (·.value == "?"))
          ((⟨[], []⟩ : Gathered).projectAll options rowType ps).1.params) := by
  obtain ⟨items, hlast, hbindings, hshows⟩ := projectAll_extends ps g
  obtain ⟨items', hlast', hbindings', -⟩ := projectAll_extends ps ⟨[], []⟩
  have hvalues : values items = (ps.flatMap (literals options rowType)).map LiteralField.value := by
    rw [values_eq_map_bindings, hbindings, List.map_map]
    rfl
  have hparams : ((⟨[], []⟩ : Gathered).projectAll options rowType ps).1.params = values items := by
    rw [hlast', values_eq_map_bindings, hbindings, ← hbindings', ← values_eq_map_bindings]
    exact List.nil_append _
  rw [hparams]
  refine ⟨Projection.columns items, by rw [hlast, hlast']; rfl, ?_, hvalues, fun hplain => ?_⟩
  · rw [hvalues]
    intro hnull
    obtain ⟨field, -, hvalue⟩ := List.mem_map.mp hnull
    exact field.value_ne_null hvalue
  · have hcolumns : (Projection.columns items).filter (·.value == "?") = (bindings items).map (·.1) := by
      apply filter_columns_eq_map_bindings
      intro item hitem hcolumn
      obtain ⟨p, hp, hshown⟩ := hshows item hitem
      exact hplain p hp (hshown.mem_columnTexts hcolumn)
    constructor
    · rw [hcolumns, hbindings, List.map_map]
      rfl
    · rw [hcolumns, values_eq_map_bindings, List.forall₂_map_left_iff, List.forall₂_map_right_iff,
        List.forall₂_same]
      intro binding hmem
      obtain ⟨item, hitem, hbinding⟩ := List.mem_filterMap.mp hmem
      obtain ⟨value, hvalue, rfl⟩ := Option.map_eq_some_iff.mp hbinding
      obtain ⟨p, hp, hshown⟩ := hshows item hitem
      exact ⟨p, hp, hshown.binds (Source.value?_eq_some_iff.mp hvalue)⟩

section

/-- Rows with a number. -/
def numberedType : TypeRef := .record "Person" [("Id", .scalar .int)] []

/-- A projection that stops at its last field, after a value and the number of the row. -/
def halfProjection : Expr :=
  let row : Expr := .param ⟨"x", numberedType⟩
  row.functionOver (.anonymous (.named "Shape")
    [("Fixed", .const (.text "k")), ("Id", row.access "Id"),
      ("Missing", Expr.captured (.object []) "missing")])

theorem projectAll_in_step_halfProjection :
    ∃ columns, (⟨[⟨"Old", "?"⟩], [.integer 1]⟩ : Gathered).projectAll Options.default
        numberedType [halfProjection, halfProjection] =
          (⟨⟨"Old", "?"⟩ :: columns, [.integer 1, .text "k", .text "k"]⟩,
            [.error (.noSuchMember "missing"), .error (.noSuchMember "missing")]) ∧
      columns.filter (·.value == "?") = [⟨"Fixed", "?"⟩, ⟨"Fixed", "?"⟩] := by
  have hplain : ∀ p ∈ [halfProjection, halfProjection],
      "?" ∉ p.preorder.flatMap (columnTexts Options.default) := by
    intro p hp
    obtain rfl : p = halfProjection := by simpa using hp
    decide
  obtain ⟨columns, heq, -, -, hstep⟩ := projectAll_in_step Options.default numberedType
    ⟨[⟨"Old", "?"⟩], [.integer 1]⟩ [halfProjection, halfProjection]
  exact ⟨columns, heq, (hstep hplain).1⟩

end

end Gathered

end BoundSql
