import BoundSql.Proofs.Document.Renderings
import BoundSql.Proofs.Projection.Labels
import BoundSql.Proofs.Text.Separators

set_option autoImplicit false

/-!
# Aliases of nested paths

A container whose value falls back to a nested path shows the path under itself with a separator for
its dots.  The separator `_DOT_` begins and ends with the same character, so one can arise between a
name and the separator behind or in front of it: `a_DOT.b` and `a.DOT_b` have one alias.  A path has
an alias of its own exactly if no two separators overlap in the alias (`label_unique_iff`).
-/

namespace BoundSql

namespace Text

/-- No name of the path contains the separator. -/
abbrev IsFreeOf (separator path : String) : Prop :=
  ∀ name ∈ segments path, ¬separator.toList <:+: name.toList

variable {separator path : String}

theorem isFreeOf_iff :
    IsFreeOf separator path ↔ AreFreeOf separator.toList (cutAt '.' path.toList) := by
  simp [IsFreeOf, AreFreeOf, segments, segmentsAt]

theorem toList_replaceDots (separator path : String) :
    (replaceDots separator path).toList =
      separator.toList.intercalate (cutAt '.' path.toList) := by
  rw [replaceDots, String.toList_ofList, replaceDotsIn_eq_intercalate]

/-- A path is known from its names. -/
theorem eq_of_cutAt_eq {other : String} (h : cutAt '.' other.toList = cutAt '.' path.toList) :
    other = path := by
  rw [← joinWith_segments other, ← joinWith_segments path, segments, segments, segmentsAt,
    segmentsAt, h]

/-- Names without dots that have the alias of a path are those of a path. -/
theorem exists_cutAt_eq {others : List (List Char)} (hdot : '.' ∉ separator.toList)
    (hne : others ≠ [])
    (h : separator.toList.intercalate others = (replaceDots separator path).toList) :
    ∃ other : String, cutAt '.' other.toList = others := by
  refine ⟨String.ofList (['.'].intercalate others), ?_⟩
  rw [String.toList_ofList, cutAt_intercalate hne]
  intro name hname hmem
  have hjoin : '.' ∈ separator.toList.intercalate others := mem_intercalate_of_mem hname hmem
  rw [h, replaceDots, String.toList_ofList] at hjoin
  exact not_mem_replaceDotsIn hdot _ hjoin

/-- A path is the only one with its text for the dots exactly if no separators overlap there. -/
theorem replaceDots_unique_iff (hdot : '.' ∉ separator.toList) (free : IsFreeOf separator path) :
    (∀ other, IsFreeOf separator other →
        replaceDots separator other = replaceDots separator path → other = path) ↔
      ¬Overlaps separator.toList (replaceDots separator path).toList := by
  rw [toList_replaceDots, ← forall_eq_iff_not_overlaps (cutAt_ne_nil _ _) (isFreeOf_iff.mp free)]
  constructor
  · intro hunique others hne hothers hjoin
    rw [← toList_replaceDots] at hjoin
    obtain ⟨other, rfl⟩ := exists_cutAt_eq hdot hne hjoin
    rw [← toList_replaceDots] at hjoin
    rw [hunique other (isFreeOf_iff.mpr hothers) (String.toList_inj.mp hjoin)]
  · intro hunique other hother hsame
    refine eq_of_cutAt_eq (hunique _ (cutAt_ne_nil _ _) (isFreeOf_iff.mp hother) ?_)
    rw [← toList_replaceDots, ← toList_replaceDots, hsame]

/-- The separator `_DOT_` overlaps itself in one way, with the character at its ends. -/
theorem overlaps_dot_iff {cs : List Char} :
    Overlaps "_DOT_".toList cs ↔ "_DOT_DOT_".toList <:+: cs := by
  constructor
  · rintro ⟨shift, hne, hlength, hprefix, hoccurs⟩
    have hshift : shift <+: "_DOT_".toList :=
      List.prefix_of_prefix_length_le (List.prefix_append shift _) hprefix hlength.le
    rw [List.prefix_iff_eq_take] at hshift
    have hcases : ∀ n < 5, "_DOT_".toList <+: "_DOT_".toList.take n ++ "_DOT_".toList →
        n = 0 ∨ n = 4 := by
      decide
    rw [hshift] at hprefix
    rcases hcases _ hlength hprefix with hzero | hfour
    · exact absurd (List.length_eq_zero_iff.mp hzero) hne
    · rw [hfour] at hshift
      rw [hshift] at hoccurs
      exact hoccurs
  · intro h
    exact ⟨"_DOT".toList, by decide, by decide, by decide, h⟩

end Text

namespace Projection

open Text

/-- The value of a container falls back to a path. -/
def FallsBackTo (value : Expr) (path : String) : Prop :=
  (conditionalMember? value).map renderedPath = some path

/-- A conditional over the columns of a document falls back to the path of its last part. -/
theorem fallsBackTo_cond (scope : Document.Scope) (test ifTrue : Expr) (path : String) :
    FallsBackTo (.cond test ifTrue (scope.column path)) path := by
  simp [FallsBackTo, conditionalMember?, scope.isSome_asMember?_column path,
    scope.renderedPath_column path]

variable {options : Options} {path : String} {name : String} {value : Expr}

theorem FallsBackTo.label_eq (h : FallsBackTo value path) :
    (pairItem options name value).label = replaceDots options.dotSeparator path := by
  rw [pairItem_eq, h]

/-- The standard separator stands for the dots, and no name of a path contains it.  The alias that a
container gives to the path is that of no other path of such names exactly if no two separators
overlap in it. -/
theorem label_unique_iff (standard : options.dotSeparator = Options.default.dotSeparator)
    (free : IsFreeOf Options.default.dotSeparator path) :
    (∀ other, IsFreeOf Options.default.dotSeparator other → other ≠ path →
        ∀ name name' value value', FallsBackTo value path → FallsBackTo value' other →
          (pairItem options name value).label ≠ (pairItem options name' value').label) ↔
      ¬"_DOT_DOT_".toList <:+: (replaceDots Options.default.dotSeparator path).toList := by
  have hdot : '.' ∉ Options.default.dotSeparator.toList := by decide
  rw [← overlaps_dot_iff]
  refine Iff.trans ?_ (replaceDots_unique_iff hdot free)
  constructor
  · intro hunique other hother hsame
    by_contra hne
    have hvalue (path : String) := fallsBackTo_cond default (.const .null) (.const .null) path
    refine hunique other hother hne "" "" _ _ (hvalue path) (hvalue other) ?_
    rw [(hvalue path).label_eq, (hvalue other).label_eq, standard]
    exact hsame.symm
  · intro hunique other hother hne name name' value value' hvalue hvalue' hlabel
    rw [hvalue.label_eq, hvalue'.label_eq, standard] at hlabel
    exact hne (hunique other hother hlabel.symm)

section

/-- A path of the row, or null. -/
def orNull (path : String) : Expr :=
  .cond (.const .null) (.const .null) (Document.Scope.column default path)

/-- Two containers, one inside the other, that show paths of the row. -/
def twoPaths (path path' : String) : Expr :=
  let outer : TypeRef := .named "NamedPropertyWithNext"
  let inner : TypeRef := .named "NamedProperty"
  .record outer [(.of outer "Name", .const (.text "first")), (.of outer "Value", orNull path),
    (.of outer "Next", .record inner
      [(.of inner "Name", .const (.text "second")), (.of inner "Value", orNull path')])]

/-- Names may begin and end with parts of the separator as long as it does not arise from them. -/
theorem label_unique_iff_dotCity :
    nestingOptions.dotSeparator = Options.default.dotSeparator ∧
      IsFreeOf Options.default.dotSeparator "DOT.City_DOT" ∧
      ∀ other, IsFreeOf Options.default.dotSeparator other → other ≠ "DOT.City_DOT" →
        (pairItem nestingOptions "city" (orNull "DOT.City_DOT")).label ≠
          (pairItem nestingOptions "other" (orNull other)).label := by
  have standard : nestingOptions.dotSeparator = Options.default.dotSeparator := rfl
  have free : IsFreeOf Options.default.dotSeparator "DOT.City_DOT" := by decide
  refine ⟨standard, free, fun other hother hne => ?_⟩
  have hunique := (label_unique_iff standard free).mpr (by decide)
  exact hunique other hother hne _ _ _ _ (fallsBackTo_cond _ _ _ _) (fallsBackTo_cond _ _ _ _)

/-- Where a separator can be read in two places, two paths get one alias. -/
theorem labels_eq_of_overlap :
    "a_DOT.b" ≠ "a.DOT_b" ∧ IsFreeOf Options.default.dotSeparator "a_DOT.b" ∧
      IsFreeOf Options.default.dotSeparator "a.DOT_b" ∧
      (collectDynamic nestingOptions (twoPaths "a_DOT.b" "a.DOT_b") []).items.map (·.column) =
        [⟨"a_DOT_DOT_b", "a_DOT.b"⟩, ⟨"a_DOT_DOT_b", "a.DOT_b"⟩] := by
  refine ⟨by decide, by decide, by decide, ?_⟩
  cbv

end

end Projection

end BoundSql
