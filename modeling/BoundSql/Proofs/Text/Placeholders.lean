import BoundSql.Text.Segments
import BoundSql.Value.Basic

set_option autoImplicit false

/-!
# Placeholders in a text

A text has placeholders, and a list of values goes with it.  `Aligned mark text values inlined` says
that the two belong together: there are as many placeholders as values, and writing the values, each
in the way of `mark`, for the placeholders from left to right gives the text `inlined`, in which
every value stands in its own place.
-/

namespace BoundSql.Text

/-- The text with the given texts, one after another, in place of its placeholders.  Placeholders
for which no text is left stay. -/
def fillMarks : List (List Char) → List Char → List Char
  | _, [] => []
  | [], c :: cs => c :: cs
  | mark :: marks, c :: cs =>
    if c = '?' then mark ++ fillMarks marks cs else c :: fillMarks (mark :: marks) cs

/-- The values belong to the placeholders of the text, the first to the first. -/
structure Aligned (mark : Value → String) (text : String) (values : List Value)
    (inlined : String) : Prop where
  count : text.toList.count '?' = values.length
  fill : ∀ (later : List (List Char)) (rest : List Char),
    fillMarks (values.map (fun v => (mark v).toList) ++ later) (text.toList ++ rest) =
      inlined.toList ++ fillMarks later rest

variable {mark : Value → String}

theorem fillMarks_cons_of_ne {marks : List (List Char)} {c : Char} {cs : List Char} (h : c ≠ '?') :
    fillMarks marks (c :: cs) = c :: fillMarks marks cs := by
  cases marks with
  | nil => cases cs <;> rfl
  | cons mark marks => simp [fillMarks, h]

theorem fillMarks_append_of_not_mem {marks : List (List Char)} {text rest : List Char}
    (h : '?' ∉ text) : fillMarks marks (text ++ rest) = text ++ fillMarks marks rest := by
  induction text with
  | nil => rfl
  | cons c cs ih =>
      have hne : c ≠ '?' := fun heq => h (heq ▸ List.mem_cons_self)
      have hrest : '?' ∉ cs := fun hmem => h (List.mem_cons_of_mem c hmem)
      rw [List.cons_append, fillMarks_cons_of_ne hne, ih hrest, List.cons_append]

/-- A text without a placeholder stands for itself. -/
theorem aligned_of_not_mem {text : String} (h : '?' ∉ text.toList) :
    Aligned mark text [] text where
  count := List.count_eq_zero.mpr h
  fill _ _ := fillMarks_append_of_not_mem h

theorem aligned_placeholder (v : Value) : Aligned mark "?" [v] (mark v) where
  count := rfl
  fill _ _ := rfl

theorem Aligned.append {left right inlinedLeft inlinedRight : String}
    {valuesLeft valuesRight : List Value} (hleft : Aligned mark left valuesLeft inlinedLeft)
    (hright : Aligned mark right valuesRight inlinedRight) :
    Aligned mark (left ++ right) (valuesLeft ++ valuesRight) (inlinedLeft ++ inlinedRight) where
  count := by
    rw [String.toList_append, List.count_append, hleft.count, hright.count, List.length_append]
  fill later rest := by
    rw [List.map_append, List.append_assoc, String.toList_append, List.append_assoc, hleft.fill,
      hright.fill, String.toList_append, List.append_assoc]

/-- Texts that are joined keep their values in order. -/
theorem aligned_joinWith {α : Type} {separator : String} (hseparator : '?' ∉ separator.toList)
    {text inlined : α → String} {values : α → List Value} :
    ∀ {xs : List α}, (∀ x ∈ xs, Aligned mark (text x) (values x) (inlined x)) →
      Aligned mark (joinWith separator (xs.map text)) (xs.flatMap values)
        (joinWith separator (xs.map inlined))
  | [], _ => aligned_of_not_mem (show '?' ∉ "".toList by simp)
  | [x], h => by simpa [joinWith] using h x List.mem_cons_self
  | x :: y :: xs, h => by
      have hfirst := h x List.mem_cons_self
      have hrest := aligned_joinWith hseparator fun z hz => h z (List.mem_cons_of_mem x hz)
      have hjoined := (hfirst.append (aligned_of_not_mem hseparator)).append hrest
      simpa [joinWith] using hjoined

end BoundSql.Text
