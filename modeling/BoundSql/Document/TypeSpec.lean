import BoundSql.Text.Blank

set_option autoImplicit false

/-!
# Type specifications

The text of a type in a document: `list<T>`, `T?`, or a name.  Blanks may stand at both ends,
inside the brackets of a list and in front of the question mark.  What a list or a nullable is
made of may not go over a line end; such a text is a name as it stands.
-/

namespace BoundSql

/-- The shape of a type, with names still to be looked up. -/
inductive TypeSpec where
  | name (text : String)
  | list (element : TypeSpec)
  | nullable (inner : TypeSpec)
  deriving DecidableEq, Repr, Inhabited

namespace TypeSpec

/-- The usual text of a specification, without blanks. -/
def text : TypeSpec → String
  | .name text => text
  | .list element => "list<" ++ element.text ++ ">"
  | .nullable inner => inner.text ++ "?"

/-- The opening of a list. -/
def listMark : List Char := ['l', 'i', 's', 't', '<']

/-- What a list is made of.  A list of nothing but blanks is one of the empty name, if there is a
blank other than a line end. -/
def listElement? (cs : List Char) : Option (List Char) :=
  if listMark.isPrefixOf cs ∧ cs.getLast? = some '>' then
    let inside := (cs.drop 5).dropLast
    let element := Text.trim inside
    if element.isEmpty then (if inside.any (· ≠ '\n') then some [] else none)
    else if '\n' ∈ element then none
    else some element
  else none

/-- What a nullable is made of. -/
def nullableInner? (cs : List Char) : Option (List Char) :=
  if cs.getLast? = some '?' then
    let inner := Text.trimEnd cs.dropLast
    if inner.isEmpty ∨ '\n' ∈ inner then none else some inner
  else none

theorem length_of_listElement? {cs element : List Char} (h : listElement? cs = some element) :
    element.length < cs.length := by
  unfold listElement? at h
  split at h
  · rename_i hc
    have hne : cs ≠ [] := by rintro rfl; simp at hc
    have hpos : 0 < cs.length := List.length_pos_iff.2 hne
    simp only at h
    split at h
    · split at h
      · simp only [Option.some.injEq] at h; subst h; simpa using hpos
      · simp at h
    · split at h
      · simp at h
      · simp only [Option.some.injEq] at h
        subst h
        have := Text.length_trim_le (cs.drop 5).dropLast
        simp only [List.length_dropLast, List.length_drop] at this
        omega
  · simp at h

theorem length_of_nullableInner? {cs inner : List Char} (h : nullableInner? cs = some inner) :
    inner.length < cs.length := by
  unfold nullableInner? at h
  split at h
  · rename_i hc
    have hne : cs ≠ [] := by rintro rfl; simp at hc
    have hpos : 0 < cs.length := List.length_pos_iff.2 hne
    simp only at h
    split at h
    · simp at h
    · simp only [Option.some.injEq] at h
      subst h
      have := Text.length_trimEnd_le cs.dropLast
      simp only [List.length_dropLast] at this
      omega
  · simp at h

/-- Reads a specification. -/
def read (cs : List Char) : TypeSpec :=
  match _element : listElement? (Text.trim cs) with
  | some element => .list (read element)
  | none =>
    match _inner : nullableInner? (Text.trim cs) with
    | some inner => .nullable (read inner)
    | none => .name (String.ofList (Text.trim cs))
termination_by cs.length
decreasing_by
  · exact Nat.lt_of_lt_of_le (length_of_listElement? _element) (Text.length_trim_le cs)
  · exact Nat.lt_of_lt_of_le (length_of_nullableInner? _inner) (Text.length_trim_le cs)

/-- The specification that a text writes. -/
def ofText (text : String) : TypeSpec := read text.toList

end TypeSpec

end BoundSql
