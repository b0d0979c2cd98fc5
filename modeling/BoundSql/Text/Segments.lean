set_option autoImplicit false

/-!
# Segments

A dotted text names a member through the members that hold it, `Info.City`, and a path names a file
through its directories, `data/query.json`.  Such a text is cut at every mark, a dot or a slash, so
consecutive marks give empty segments and the empty text is one empty segment; joining the segments
with the mark gives the text back.
-/

namespace BoundSql.Text

/-- The pieces of a character list between its marks. -/
def cutAt (mark : Char) : List Char → List (List Char)
  | [] => [[]]
  | c :: cs =>
    if c = mark then [] :: cutAt mark cs
    else
      match cutAt mark cs with
      | [] => [[c]]
      | piece :: pieces => (c :: piece) :: pieces

theorem cutAt_ne_nil (mark : Char) (cs : List Char) : cutAt mark cs ≠ [] := by
  cases cs with
  | nil => simp [cutAt]
  | cons c cs =>
    unfold cutAt
    split
    · simp
    · split <;> simp

/-- The segments of a text between its marks, first to last. -/
def segmentsAt (mark : Char) (text : String) : List String :=
  (cutAt mark text.toList).map String.ofList

/-- The segments of a dotted text, first to last. -/
def segments (text : String) : List String := segmentsAt '.' text

theorem segmentsAt_ne_nil (mark : Char) (text : String) : segmentsAt mark text ≠ [] := by
  simp [segmentsAt, cutAt_ne_nil]

theorem segments_ne_nil (text : String) : segments text ≠ [] := segmentsAt_ne_nil '.' text

/-- The texts one after another with `separator` between neighbours. -/
def joinWith (separator : String) : List String → String
  | [] => ""
  | [text] => text
  | text :: texts => text ++ separator ++ joinWith separator texts

theorem joinWith_cons {text : String} {texts : List String} (separator : String) (h : texts ≠ []) :
    joinWith separator (text :: texts) = text ++ separator ++ joinWith separator texts := by
  cases texts with
  | nil => exact absurd rfl h
  | cons t ts => rfl

/-- A joined text is the first piece and then each other one behind its separator. -/
theorem toList_joinWith_cons (separator text : String) (texts : List String) :
    (joinWith separator (text :: texts)).toList =
      text.toList ++ texts.flatMap fun other => separator.toList ++ other.toList := by
  induction texts generalizing text with
  | nil => simp [joinWith]
  | cons other texts ih => simp [joinWith_cons, ih]

/-- A character of a joined text stands in the separator or in a piece. -/
theorem mem_toList_joinWith {separator : String} {c : Char} {texts : List String}
    (h : c ∈ (joinWith separator texts).toList) :
    c ∈ separator.toList ∨ ∃ text ∈ texts, c ∈ text.toList := by
  cases texts with
  | nil => simp [joinWith] at h
  | cons text texts =>
    rw [toList_joinWith_cons] at h
    rcases List.mem_append.1 h with h | h
    · exact .inr ⟨text, List.mem_cons_self, h⟩
    · obtain ⟨other, hother, h⟩ := List.mem_flatMap.1 h
      rcases List.mem_append.1 h with h | h
      · exact .inl h
      · exact .inr ⟨other, List.mem_cons_of_mem text hother, h⟩

/-- Joining the pieces of a text with the mark gives the text back. -/
theorem joinWith_map_cutAt (mark : Char) (cs : List Char) :
    joinWith (String.singleton mark) ((cutAt mark cs).map String.ofList) = String.ofList cs := by
  induction cs with
  | nil => rfl
  | cons c cs ih =>
    unfold cutAt
    split
    · rename_i hc
      subst hc
      rw [List.map_cons, joinWith_cons _ (by simp [cutAt_ne_nil]), ih]
      apply String.toList_inj.1
      simp
    · cases hp : cutAt mark cs with
      | nil => exact absurd hp (cutAt_ne_nil mark cs)
      | cons piece pieces =>
        rw [hp] at ih
        apply String.toList_inj.1
        have ih' := congrArg String.toList ih
        cases pieces with
        | nil => simpa [joinWith] using ih'
        | cons q qs => simpa [joinWith] using ih'

/-- Joining the segments of a text with the mark gives the text back. -/
theorem joinWith_segmentsAt (mark : Char) (text : String) :
    joinWith (String.singleton mark) (segmentsAt mark text) = text := by
  simpa [segmentsAt] using joinWith_map_cutAt mark text.toList

/-- Joining the segments of a dotted text with dots gives the text back. -/
theorem joinWith_segments (text : String) : joinWith "." (segments text) = text :=
  joinWith_segmentsAt '.' text

/-- The character list with `separator` in the place of every dot. -/
def replaceDotsIn (separator : List Char) : List Char → List Char
  | [] => []
  | c :: cs =>
    if c = '.' then separator ++ replaceDotsIn separator cs else c :: replaceDotsIn separator cs

/-- The text with `separator` in the place of every dot. -/
def replaceDots (separator text : String) : String :=
  String.ofList (replaceDotsIn separator.toList text.toList)

theorem mem_replaceDotsIn {separator : List Char} {c : Char} {cs : List Char}
    (h : c ∈ replaceDotsIn separator cs) : c ∈ separator ∨ c ∈ cs := by
  induction cs with
  | nil => simp [replaceDotsIn] at h
  | cons d cs ih =>
    unfold replaceDotsIn at h
    split at h
    · rcases List.mem_append.1 h with h | h
      · exact .inl h
      · exact (ih h).imp id (List.mem_cons_of_mem d)
    · rcases List.mem_cons.1 h with rfl | h
      · exact .inr List.mem_cons_self
      · exact (ih h).imp id (List.mem_cons_of_mem d)

end BoundSql.Text
