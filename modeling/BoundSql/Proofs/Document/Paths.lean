import BoundSql.Document.Expression
import BoundSql.Proofs.Filter.Rules
import BoundSql.Proofs.Projection.Rules
import BoundSql.Query.Compile
import Mathlib.Data.List.Induction

set_option autoImplicit false

/-!
# Dotted paths

A dotted path of a document is followed from the row, member by member.  Only the type that declares
the last member decides what becomes of the path: if that type has the name of the row type, the
path is taken for the column with the last name, and otherwise it shows nothing.  The main
statements are the three places where a path can stand: an operand (`operand_column`), a field
(`source_column`) and a key of an ordering (`orderColumn?_column`).  No path of several names is
taken for a column where no type inside the row type has its name (`column?_eq_none_of_foreign`).
-/

namespace BoundSql

/-- A path has a last name. -/
theorem Text.exists_segments_eq (path : String) :
    ∃ inner name, Text.segments path = inner ++ [name] :=
  ⟨_, _, (List.dropLast_concat_getLast (Text.segments_ne_nil path)).symm⟩

namespace TypeRef

/-- The type that names lead to, member by member. -/
def along (t : TypeRef) (names : List String) : TypeRef :=
  names.foldl (fun t name => (MemberRef.of t name).type) t

/-- The column of the row that a dotted path is taken for: its last name, if the names in front of
it lead to a type with the name of the row type. -/
def column? (rowType : TypeRef) (path : String) : Option String :=
  if (rowType.along (Text.segments path).dropLast).sameType rowType then
    (Text.segments path).getLast?
  else none

/-- The types of the properties of a type, of their properties, and so on. -/
inductive Inside (t : TypeRef) : TypeRef → Prop where
  | property {name : String} {type : TypeRef} (declared : t.property? name = some type) :
      Inside t type
  | inner {name : String} {between type : TypeRef} (inside : Inside t between)
      (declared : between.property? name = some type) : Inside t type

variable {rowType t : TypeRef} {path name : String} {inner names : List String}

theorem along_concat (t : TypeRef) (names : List String) (name : String) :
    t.along (names ++ [name]) = ((t.along names).property? name).getD .object := by
  simp [along, MemberRef.of]

/-- A path is as good as its column, given the names in front of the last one. -/
theorem column?_of_segments (h : Text.segments path = inner ++ [name]) :
    rowType.column? path = if (rowType.along inner).sameType rowType then some name else none := by
  simp [column?, h]

/-- A path is taken for a column exactly when the names in front of the last one lead to a type
with the name of the row type. -/
theorem column?_eq_some_iff :
    rowType.column? path = some name ↔
      ∃ inner, Text.segments path = inner ++ [name] ∧
        (rowType.along inner).name = rowType.name := by
  constructor
  · intro h
    unfold column? at h
    split at h
    · rename_i hsame
      obtain ⟨inner, hsegments⟩ := List.getLast?_eq_some_iff.mp h
      refine ⟨inner, hsegments, ?_⟩
      rw [hsegments, List.dropLast_concat] at hsame
      exact sameType_iff.mp hsame
    · simp at h
  · rintro ⟨inner, hsegments, hname⟩
    rw [column?_of_segments hsegments, if_pos (sameType_iff.mpr hname)]

/-- Names lead to the type itself, to nothing known, or to a type inside it. -/
theorem along_cases (t : TypeRef) (hne : names ≠ []) :
    t.along names = .object ∨ t.Inside (t.along names) := by
  induction names using List.reverseRecOn with
  | nil => exact absurd rfl hne
  | append_singleton names name ih =>
      rw [along_concat]
      cases hproperty : (t.along names).property? name with
      | none => exact .inl rfl
      | some type =>
          apply Or.inr
          by_cases hnames : names = []
          · subst hnames
            exact .property hproperty
          · rcases ih hnames with hobject | hinside
            · rw [hobject] at hproperty
              simp [property?, properties] at hproperty
            · exact .inner hinside hproperty

/-- Where no type inside the row type has its name, a path of several names is taken for no
column. -/
theorem column?_eq_none_of_foreign (hobject : rowType.name ≠ "object")
    (hforeign : ∀ t, rowType.Inside t → t.name ≠ rowType.name)
    (hnested : 1 < (Text.segments path).length) : rowType.column? path = none := by
  rw [Option.eq_none_iff_forall_ne_some]
  intro name hcolumn
  obtain ⟨inner, hsegments, hname⟩ := column?_eq_some_iff.mp hcolumn
  have hinner : inner ≠ [] := by
    rintro rfl
    simp [hsegments] at hnested
  rcases along_cases rowType hinner with hleads | hinside
  · rw [hleads] at hname
    exact hobject hname.symm
  · exact hforeign _ hinside hname

end TypeRef

/-- The operand of a column, or null where there is none. -/
def Filter.Operand.ofColumn? : Option String → Filter.Operand
  | some name => .column name
  | none => .null

/-- The source of a column, or null where there is none. -/
def Projection.Source.ofColumn? : Option String → Projection.Source
  | some name => .column name
  | none => .null

namespace Expr

theorem accessAll_concat (e : Expr) (names : List String) (name : String) :
    e.accessAll (names ++ [name]) = (e.accessAll names).access name := by
  simp [accessAll]

theorem typeOf_accessAll (names : List String) :
    ∀ e : Expr, (e.accessAll names).typeOf = e.typeOf.along names := by
  induction names with
  | nil =>
      intro e
      rfl
  | cons name names ih =>
      intro e
      exact ih (e.access name)

/-- What is read off a parameter is no literal, however deep it lies. -/
theorem literal?_access_accessAll (p : Parameter) (names : List String) (name : String) :
    (((Expr.param p).accessAll names).access name).literal? = .ok none := by
  -- A literal lies at most two members deep, so two steps towards the parameter are enough.
  cases names using List.reverseRecOn with
  | nil => rfl
  | append_singleton names second =>
      rw [accessAll_concat]
      cases names using List.reverseRecOn with
      | nil => rfl
      | append_singleton names third =>
          rw [accessAll_concat]
          rfl

end Expr

namespace Document.Scope

variable {scope : Scope} {path name : String} {inner : List String}

/-- A path is a member of what the names in front of the last one lead to. -/
theorem column_eq (h : Text.segments path = inner ++ [name]) :
    scope.column path =
      .member (scope.row.accessAll inner) (MemberRef.of (scope.rowType.along inner) name) := by
  have htype : (scope.row.accessAll inner).typeOf = scope.rowType.along inner :=
    Expr.typeOf_accessAll inner scope.row
  rw [column, Expr.accessPath, h, Expr.accessAll_concat, Expr.access, htype]

theorem exists_column_eq (scope : Scope) (path : String) :
    ∃ inner name, Text.segments path = inner ++ [name] ∧
      scope.column path =
        .member (scope.row.accessAll inner) (MemberRef.of (scope.rowType.along inner) name) := by
  obtain ⟨inner, name, h⟩ := Text.exists_segments_eq path
  exact ⟨inner, name, h, column_eq h⟩

/-- A path denotes no literal. -/
theorem resolve_column (scope : Scope) (path : String) :
    (scope.column path).resolve = .ok none := by
  obtain ⟨inner, name, h⟩ := Text.exists_segments_eq path
  rw [column, Expr.accessPath, h, Expr.accessAll_concat, Expr.resolve, row,
    Expr.literal?_access_accessAll]
  rfl

/-- An operand that is a path is the column that it is taken for, or null. -/
theorem operand_column (scope : Scope) (path : String) :
    Filter.operand scope.rowType (scope.column path) =
      .ok (.ofColumn? (scope.rowType.column? path)) := by
  have hliteral : Filter.literal (scope.column path) = .ok .null :=
    Filter.literal_eq_ok_iff.mpr ⟨none, scope.resolve_column path, rfl⟩
  obtain ⟨inner, name, hsegments, hcolumn⟩ := scope.exists_column_eq path
  rw [hcolumn] at hliteral ⊢
  rw [TypeRef.column?_of_segments hsegments, Filter.operand, hliteral]
  by_cases hsame : (scope.rowType.along inner).sameType scope.rowType = true
  · simp [MemberRef.of, Filter.Operand.ofColumn?, hsame]
  · simp [MemberRef.of, Filter.Operand.ofColumn?, hsame]

/-- A field that is a path shows the column that it is taken for, or null. -/
theorem source_column (scope : Scope) (path : String) :
    Projection.source scope.rowType (scope.column path) =
      .ok (.ofColumn? (scope.rowType.column? path)) := by
  have hresolve := scope.resolve_column path
  obtain ⟨inner, name, hsegments, hcolumn⟩ := scope.exists_column_eq path
  rw [hcolumn] at hresolve ⊢
  rw [TypeRef.column?_of_segments hsegments, Projection.source_eq_ok_iff, Expr.isRowMember]
  simp only [MemberRef.of]
  split
  · rename_i hsame
    exact .inl ⟨_, hsame, rfl, rfl⟩
  · rename_i hforeign
    exact .inr ⟨Bool.eq_false_iff.mpr hforeign, .inr ⟨hresolve, rfl⟩⟩

/-- A key that is a path orders by the column that it is taken for, or not at all. -/
theorem orderColumn?_column (scope : Scope) (path : String) :
    Query.Progress.orderColumn? scope.rowType (scope.column path) =
      scope.rowType.column? path := by
  obtain ⟨inner, name, hsegments, hcolumn⟩ := scope.exists_column_eq path
  rw [hcolumn, TypeRef.column?_of_segments hsegments]
  rfl

end Document.Scope

end BoundSql
