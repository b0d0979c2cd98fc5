import BoundSql.Text.Segments

set_option autoImplicit false

/-!
# Words

A word is a text without blanks, parentheses and question marks, the characters with which the text
of a condition keeps its pieces apart.  A word at the start of a text is known from the text when
what follows it does not go on with the word.
-/

namespace BoundSql.Text

/-- Does the character end a word? -/
def isDelimiter (c : Char) : Bool := c = ' ' || c = '(' || c = ')' || c = '?'

/-- The text is not empty, and no character ends it early. -/
structure IsWord (text : String) : Prop where
  ne_empty : text ≠ ""
  plain : ∀ c ∈ text.toList, isDelimiter c = false

/-- Nothing follows, or something that ends a word. -/
def EndsWord (rest : List Char) : Prop := ∀ c ∈ rest.head?, isDelimiter c = true

/-- The text is made of letters, digits and underscores, as the names of members usually are. -/
abbrev IsIdentifier (text : String) : Prop :=
  text ≠ "" ∧ ∀ c ∈ text.toList, c.isAlphanum ∨ c = '_'

theorem IsIdentifier.isWord {text : String} (h : IsIdentifier text) : IsWord text := by
  refine ⟨h.1, fun c hc => ?_⟩
  cases hdelimiter : isDelimiter c with
  | false => rfl
  | true =>
      have hcases : ((c = ' ' ∨ c = '(') ∨ c = ')') ∨ c = '?' := by
        simpa [isDelimiter] using hdelimiter
      rcases hcases with ((rfl | rfl) | rfl) | rfl <;> exact absurd (h.2 _ hc) (by decide)

theorem isWord_null : IsWord "NULL" := ⟨by simp, by simp [isDelimiter]⟩

theorem endsWord_nil : EndsWord [] := by simp [EndsWord]

theorem endsWord_cons {c : Char} {rest : List Char} (h : isDelimiter c = true) :
    EndsWord (c :: rest) := by
  intro d hd
  obtain rfl : c = d := by simpa using hd
  exact h

theorem IsWord.exists_cons {text : String} (h : IsWord text) :
    ∃ c cs, text.toList = c :: cs ∧ isDelimiter c = false := by
  cases htext : text.toList with
  | nil => exact absurd (String.toList_inj.mp (htext.trans String.toList_empty.symm)) h.ne_empty
  | cons c cs => exact ⟨c, cs, rfl, h.plain c (htext ▸ List.mem_cons_self)⟩

theorem IsWord.append {a b : String} (ha : IsWord a) (hb : IsWord b) : IsWord (a ++ b) := by
  obtain ⟨c, cs, htext, _⟩ := ha.exists_cons
  refine ⟨fun hempty => ?_, fun d hd => ?_⟩
  · have hnil := congrArg String.toList hempty
    simp [htext] at hnil
  · rw [String.toList_append] at hd
    rcases List.mem_append.mp hd with hd | hd
    · exact ha.plain d hd
    · exact hb.plain d hd

/-- Runs of characters that do not end a word are as long as they can be. -/
theorem run_append_inj {xs ys r s : List Char} (hx : ∀ c ∈ xs, isDelimiter c = false)
    (hy : ∀ c ∈ ys, isDelimiter c = false) (hr : EndsWord r) (hs : EndsWord s)
    (h : xs ++ r = ys ++ s) : xs = ys ∧ r = s := by
  induction xs generalizing ys with
  | nil =>
      cases ys with
      | nil => exact ⟨rfl, h⟩
      | cons y ys =>
          have hend : isDelimiter y = true := hr y (by simp [show r = y :: (ys ++ s) from h])
          rw [hy y List.mem_cons_self] at hend
          exact absurd hend (by decide)
  | cons x xs ih =>
      cases ys with
      | nil =>
          have hend : isDelimiter x = true := hs x (by simp [show s = x :: (xs ++ r) from h.symm])
          rw [hx x List.mem_cons_self] at hend
          exact absurd hend (by decide)
      | cons y ys =>
          obtain ⟨rfl, hrest⟩ := List.cons.inj h
          obtain ⟨rfl, hend⟩ := ih (fun c hc => hx c (List.mem_cons_of_mem x hc))
            (fun c hc => hy c (List.mem_cons_of_mem x hc)) hrest
          exact ⟨rfl, hend⟩

/-- The word at the start of a text is known from the text. -/
theorem IsWord.append_inj {a b : String} {r s : List Char} (ha : IsWord a) (hb : IsWord b)
    (hr : EndsWord r) (hs : EndsWord s) (h : a.toList ++ r = b.toList ++ s) : a = b ∧ r = s := by
  obtain ⟨htext, hrest⟩ := run_append_inj ha.plain hb.plain hr hs h
  exact ⟨String.toList_inj.mp htext, hrest⟩

/-- A text that starts with a word does not start with a character that ends one. -/
theorem IsWord.append_ne_cons {a : String} {r s : List Char} {c : Char} (ha : IsWord a)
    (hc : isDelimiter c = true) : a.toList ++ r ≠ c :: s := by
  intro h
  obtain ⟨d, ds, htext, hd⟩ := ha.exists_cons
  rw [htext, List.cons_append] at h
  rw [(List.cons.inj h).1, hc] at hd
  exact absurd hd (by decide)

end BoundSql.Text
