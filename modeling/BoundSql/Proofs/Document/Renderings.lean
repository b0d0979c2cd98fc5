import BoundSql.Document.Reading
import BoundSql.Proofs.Document.Paths
import BoundSql.Proofs.Query.Rules
import Mathlib

set_option autoImplicit false

/-!
# Renderings of a nested path

A nested path is written from its names in filters and orderings, and from the display of its last
member, without the row in front, in dynamic containers.  For the path of a document both ways give
back the text that the document has cut at its dots (`renderings_column`).
-/

namespace BoundSql

namespace Text

/-- Names that each have a dot in front are a dot and the joined names. -/
theorem flatMap_dot_eq {names : List String} (hne : names ≠ []) :
    (names.flatMap fun name => '.' :: name.toList) = '.' :: (joinWith "." names).toList := by
  cases names with
  | nil => exact absurd rfl hne
  | cons name names =>
      rw [toList_joinWith_cons, List.flatMap_cons]
      rfl

end Text

namespace Expr

/-- The members that names lead to are read one after another. -/
theorem path_accessAll (e : Expr) (names : List String) :
    (e.accessAll names).path = e.path ++ names := by
  induction names using List.reverseRecOn with
  | nil => simp [accessAll]
  | append_singleton names name ih =>
      rw [accessAll_concat, access, path_member, ih, List.append_assoc]
      rfl

/-- The display of a member is that of its instance with every name on the way behind a dot. -/
theorem display_accessAll (e : Expr) (names : List String) :
    (e.accessAll names).display.toList =
      e.display.toList ++ names.flatMap fun name => '.' :: name.toList := by
  induction names using List.reverseRecOn with
  | nil => simp [accessAll]
  | append_singleton names name ih =>
      rw [accessAll_concat, access, display]
      simp [ih, MemberRef.of]

end Expr

namespace Projection

/-- The rendered path of a member of a parameter has four characters less than its display. -/
theorem toList_renderedPath (p : Parameter) {names : List String} (hne : names ≠ []) :
    (renderedPath ((Expr.param p).accessAll names)).toList =
      (p.name.toList ++ '.' :: (Text.joinWith "." names).toList).drop rowMarkLength := by
  rw [renderedPath, String.toList_ofList, Expr.display_accessAll, Text.flatMap_dot_eq hne]
  rfl

end Projection

namespace Document.Scope

variable {scope : Scope} {path : String} {test ifTrue : Expr}

theorem dottedPath?_column (scope : Scope) (path : String) :
    (scope.column path).dottedPath? = some path := by
  have hpath : (scope.column path).path = Text.segments path := by
    rw [column, Expr.accessPath, Expr.path_accessAll]
    rfl
  rw [Expr.dottedPath?, hpath, Text.joinWith_segments, if_neg]
  simpa using Text.segments_ne_nil path

/-- A path is a member of the row or of one of its members. -/
theorem isSome_asMember?_column (scope : Scope) (path : String) :
    (scope.column path).asMember?.isSome = true := by
  obtain ⟨inner, last, -, hcolumn⟩ := scope.exists_column_eq path
  rw [hcolumn]
  rfl

/-- The four characters that are left out are those of the row parameter and its dot. -/
theorem renderedPath_column (scope : Scope) (path : String) :
    Projection.renderedPath (scope.column path) = path := by
  apply String.toList_inj.mp
  rw [column, Expr.accessPath, row, Projection.toList_renderedPath _ (Text.segments_ne_nil path),
    Text.joinWith_segments]
  simp [Projection.rowMarkLength]

/-- A conditional that falls back to a path is written as the path in front of the sign. -/
theorem text_of_operand_cond {rowType : TypeRef} {op : BinaryOp} {right : Expr}
    {o : Filter.Operand}
    (h : Filter.operand rowType
      (.binary op (.cond test ifTrue (scope.column path)) right) = .ok o) :
    ∃ sign second, Filter.connective rowType op right = .ok sign ∧
      Filter.operand rowType right = .ok second ∧
      o.text = "(" ++ path ++ sign.text ++ second.text ++ ")" := by
  have hfirst : Filter.leftOperand rowType (.cond test ifTrue (scope.column path)) =
      .ok (.column path) :=
    Filter.fallback_eq_ok_iff.mpr ⟨path, scope.dottedPath?_column path, rfl⟩
  rw [Filter.operand_binary_of_none rfl, hfirst] at h
  obtain ⟨first, hcolumn, h⟩ := bind_eq_ok_iff.mp h
  obtain ⟨sign, hsign, h⟩ := bind_eq_ok_iff.mp h
  obtain ⟨second, hsecond, h⟩ := bind_eq_ok_iff.mp h
  obtain rfl := Except.ok.inj hcolumn
  obtain rfl := Except.ok.inj h
  exact ⟨sign, second, hsign, hsecond, rfl⟩

/-- The key of a conditional that falls back to a path orders by the path. -/
theorem orderKeys_cond (rowType : TypeRef) (p : Parameter) (returns : TypeRef)
    (shaper : Option RowFunction) (descending : Bool) :
    Query.orderKeys rowType ⟨p, returns, .cond test ifTrue (scope.column path), shaper⟩ descending =
      [⟨path, descending⟩] := by
  simp [Query.orderKeys, Query.Progress.orderColumn?, scope.dottedPath?_column path]

/-- A value that falls back to a path is shown as the path, under the path with another text for its
dots. -/
theorem pairItem_cond (options : Options) (name : String) :
    Projection.pairItem options name (.cond test ifTrue (scope.column path)) =
      ⟨Text.replaceDots options.dotSeparator path, .column path⟩ := by
  simp [Projection.pairItem, scope.isSome_asMember?_column path, scope.renderedPath_column path]

/-- The pair of a container whose value falls back to a path is one item, the path under the path
with another text for its dots. -/
theorem collectContainer_cond {options : Options} {type : TypeRef}
    {bindings : List (MemberRef × Expr)} {name : Value} {taken : List String}
    (container : options.isContainer type = true) (notNull : name.isNull = false)
    (nameBound : Projection.singleBinding bindings "Name" = .ok (.const name))
    (valueBound : Projection.singleBinding bindings "Value" =
      .ok (.cond test ifTrue (scope.column path)))
    (free : name.display ∉ taken) :
    Projection.collectContainer options (.record type bindings) taken =
      Projection.Collector.item
        ⟨Text.replaceDots options.dotSeparator path, .column path⟩ taken := by
  have hpublic : Projection.publicName? (.const name) = some name.display := by
    simp [Projection.publicName?, notNull]
  simp [Projection.collectContainer, container, Projection.collectPair, nameBound, valueBound,
    Projection.Collector.ofResult, hpublic, free, pairItem_cond, Projection.Collector.item]

/-- However a nested path of a document is rendered, it is the text that the document has cut.

* Its names joined with dots are the text.
* A filter that compares a conditional falling back to the path begins with the text and the sign.
* A key that is such a conditional orders by the text.
* A container with one constant name that is no label yet, and with such a conditional for its one
  value, selects the text, under the text with the separator for its dots; what else is collected
  from the container comes from containers inside its bindings. -/
theorem renderings_column (scope : Scope) (path : String) (test ifTrue : Expr) :
    (scope.column path).dottedPath? = some path ∧
    (∀ (rowType : TypeRef) (op : BinaryOp) (right : Expr) (p : Parameter) (returns : TypeRef)
        (shaper : Option RowFunction) (o : Filter.Operand),
      Filter.clause? rowType
          (.lambda p returns (.binary op (.cond test ifTrue (scope.column path)) right) shaper) =
            .ok (some o) →
        ∃ sign second, Filter.connective rowType op right = .ok sign ∧
          Filter.operand rowType right = .ok second ∧
          o.text = "(" ++ path ++ sign.text ++ second.text ++ ")") ∧
    (∀ (options : Options) (rowType : TypeRef) (progress : Query.Progress) (p : Parameter)
        (returns : TypeRef) (shaper : Option RowFunction) (descending : Bool),
      options.ordering = true →
        Query.Progress.step options rowType progress ⟨(QueryOperator.orderBy descending).method,
            .lambda p returns (.cond test ifTrue (scope.column path)) shaper⟩ =
          .ok { progress with order := [⟨path, descending⟩] } ∧
        Query.Progress.step options rowType progress ⟨(QueryOperator.thenBy descending).method,
            .lambda p returns (.cond test ifTrue (scope.column path)) shaper⟩ =
          .ok { progress with order := progress.order ++ [⟨path, descending⟩] }) ∧
    ∀ (options : Options) (rowType type : TypeRef) (bindings : List (MemberRef × Expr))
        (name : Value) (taken : List String),
      options.isContainer type = true → name.isNull = false → name.display ∉ taken →
      Projection.singleBinding bindings "Name" = .ok (.const name) →
      Projection.singleBinding bindings "Value" = .ok (.cond test ifTrue (scope.column path)) →
        Projection.collect options rowType (.record type bindings) taken =
          (Projection.Collector.item
              ⟨Text.replaceDots options.dotSeparator path, .column path⟩).andThen
            (Projection.Collector.all (((bindings.map (·.2)).flatMap Expr.preorder).map
              (Projection.collectContainer options))) taken := by
  refine ⟨scope.dottedPath?_column path, ?_, ?_, ?_⟩
  · intro rowType op right p returns shaper o h
    obtain ⟨f, hlambda, -, hreads⟩ := Filter.clause?_eq_some_iff.mp h
    obtain rfl := Option.some.inj hlambda
    exact text_of_operand_cond (Filter.operand_of_reads hreads)
  · intro options rowType progress p returns shaper descending on
    have hkeys : Query.orderKeys rowType ⟨p, returns, .cond test ifTrue (scope.column path), shaper⟩
        descending = [⟨path, descending⟩] := orderKeys_cond rowType p returns shaper descending
    rw [← hkeys]
    exact ⟨Query.step_eq_ok_iff.mpr (.orderBy (QueryOperator.ofMethod?_method _) on rfl),
      Query.step_eq_ok_iff.mpr (.thenBy (QueryOperator.ofMethod?_method _) on rfl)⟩
  · intro options rowType type bindings name taken container notNull free nameBound valueBound
    have hpair := collectContainer_cond container notNull nameBound valueBound free
    simp only [Projection.collect, container, if_true, Projection.collectDynamic,
      Expr.preorder_eq (.record type bindings), List.map_cons, Projection.Collector.all,
      Projection.Collector.andThen, hpair]
    rfl

section

/-- People with an address of which only the name of the type is known. -/
def addressed : Scope := ⟨.record "Person" [("Home", .named "Address")] [], .object []⟩

/-- The test that a person has no address. -/
def homeIsMissing : Expr := .binary .equal (addressed.column "Home") (.const .null)

/-- The city behind a gap in the path, or null where there is no address. -/
def cityOrNull : Expr := .cond homeIsMissing (.const .null) (addressed.column "Home..City")

/-- A filter by the city. -/
def inUlm : Expr :=
  .predicateOver addressed.row (.binary .equal cityOrNull (.const (.text "Ulm")))

/-- The bindings of a container with the city. -/
def cityBindings : List (MemberRef × Expr) :=
  let type : TypeRef := .named lastContainerName
  [(.of type "Name", .const (.text "city")), (.of type "Value", cityOrNull)]

def addressOptions : Options := Options.default.withContainersNamed [lastContainerName]

theorem renderings_column_gap :
    (addressed.column "Home..City").dottedPath? = some "Home..City" ∧
    (∃ o, Filter.clause? addressed.rowType inUlm = .ok (some o) ∧ o.text = "(Home..City =  ? )") ∧
    Query.Progress.step addressOptions addressed.rowType Query.Progress.start
        ⟨(QueryOperator.orderBy true).method, addressed.functionOf cityOrNull⟩ =
      .ok { Query.Progress.start with order := [⟨"Home..City", true⟩] } ∧
    (Projection.collect addressOptions addressed.rowType
        (.record (.named lastContainerName) cityBindings) []).items.map (·.column) =
      [⟨"Home_DOT__DOT_City", "Home..City"⟩] := by
  obtain ⟨hpath, hfilter, horder, hpair⟩ :=
    renderings_column addressed "Home..City" homeIsMissing (.const .null)
  have hclause : Filter.clause? addressed.rowType inUlm = .ok (some _) := rfl
  obtain ⟨sign, second, hsign, hsecond, htext⟩ := hfilter _ _ _ _ _ _ _ hclause
  obtain rfl := Except.ok.inj hsign
  obtain rfl := Except.ok.inj hsecond
  have hcollect := hpair addressOptions addressed.rowType (.named lastContainerName) cityBindings
    (.text "city") [] rfl rfl (by simp) rfl rfl
  refine ⟨hpath, ⟨_, hclause, htext.trans (by decide)⟩, (horder _ _ _ _ _ _ true rfl).1, ?_⟩
  rw [hcollect]
  cbv

end

end Document.Scope

end BoundSql
