import BoundSql.Proofs.Document.TypeRules

set_option autoImplicit false

/-!
# Spellings of types

The name of a type is a specification of it, and blanks at its ends, inside the brackets of its
lists and in front of its question marks do not matter.  `TypeRef.Spelling t cs` says by rules, one
for each kind of type, that the text `cs` writes the type `t` so.  The main statement is
`ofSpec_ofText_name`: the name of a type and all its spellings are read as that type, where the
names that it is made of stand for themselves or for records that have been built.
-/

namespace BoundSql

/-! ## Trimming -/

namespace Text

/-- The text has no blank at its ends. -/
structure IsTight (cs : List Char) : Prop where
  first : ∀ c ∈ cs.head?, isBlank c = false
  last : ∀ c ∈ cs.getLast?, isBlank c = false

theorem IsTight.of_ends {cs : List Char} {first last : Char} (hfirst : cs.head? = some first)
    (hlast : cs.getLast? = some last) (hblank : isBlank first = false)
    (hblank' : isBlank last = false) : IsTight cs where
  first := by simpa [hfirst] using hblank
  last := by simpa [hlast] using hblank'

/-- Blanks that may stand in a specification: those that end no line. -/
def IsGap (cs : List Char) : Prop := ∀ c ∈ cs, isBlank c = true ∧ c ≠ '\n'

variable {cs front back gap : List Char}

theorem isGap_nil : IsGap [] := by simp [IsGap]

theorem isGap_cons {c : Char} (hblank : isBlank c = true) (hline : c ≠ '\n') (h : IsGap cs) :
    IsGap (c :: cs) :=
  List.forall_mem_cons.mpr ⟨⟨hblank, hline⟩, h⟩

theorem dropWhile_isBlank_eq_self (h : ∀ c ∈ cs.head?, isBlank c = false) :
    cs.dropWhile isBlank = cs := by
  cases cs with
  | nil => rfl
  | cons c cs => rw [List.dropWhile_cons, if_neg (by simp [h c rfl])]

theorem trimEnd_append_gap (hcs : IsTight cs) (hgap : IsGap gap) : trimEnd (cs ++ gap) = cs := by
  have hblank : ∀ c ∈ gap.reverse, isBlank c = true := by
    intro c hc
    exact (hgap c (List.mem_reverse.mp hc)).1
  have hlast : ∀ c ∈ cs.reverse.head?, isBlank c = false := by
    rw [List.head?_reverse]
    exact hcs.last
  rw [trimEnd, List.reverse_append, List.dropWhile_append_of_pos hblank,
    dropWhile_isBlank_eq_self hlast, List.reverse_reverse]

/-- Only the blanks around a tight text are trimmed off. -/
theorem trim_gaps (hcs : IsTight cs) (hfront : IsGap front) (hback : IsGap back) (hne : cs ≠ []) :
    trim (front ++ cs ++ back) = cs := by
  have hblank : ∀ c ∈ front, isBlank c = true := fun c hc => (hfront c hc).1
  have hfirst : ∀ c ∈ (cs ++ back).head?, isBlank c = false := by
    rw [List.head?_append_of_ne_nil cs hne]
    exact hcs.first
  rw [trim, List.append_assoc, List.dropWhile_append_of_pos hblank,
    dropWhile_isBlank_eq_self hfirst, trimEnd_append_gap hcs hback]

end Text

namespace TypeRef

open Text

/-! ## Spellings -/

/-- The text writes the type: as its name, with gaps inside the brackets of its lists and in front
of its question marks. -/
inductive Spelling : TypeRef → List Char → Prop where
  | scalar (type : ScalarType) : Spelling (.scalar type) type.name.toList
  | named (name : String) : Spelling (.named name) name.toList
  | record (name : String) (properties : List (String × TypeRef))
      (statics : List (String × Value)) : Spelling (.record name properties statics) name.toList
  | list {element : TypeRef} {front cs back : List Char} (inside : Spelling element cs)
      (opening : IsGap front) (closing : IsGap back) :
      Spelling (.list element) (TypeSpec.listMark ++ (front ++ cs ++ back) ++ ['>'])
  | nullable {inner : TypeRef} {cs gap : List Char} (inside : Spelling inner cs)
      (mark : IsGap gap) : Spelling (.nullable inner) (cs ++ gap ++ ['?'])

/-- The text writes the type, with gaps at its ends. -/
def IsWrittenBy (t : TypeRef) (text : String) : Prop :=
  ∃ front cs back, IsGap front ∧ t.Spelling cs ∧ IsGap back ∧ text.toList = front ++ cs ++ back

/-- The name of a type is one of its spellings. -/
theorem spelling_name : ∀ t : TypeRef, t.Spelling t.name.toList
  | .scalar type => .scalar type
  | .named name => .named name
  | .record name properties statics => .record name properties statics
  | .list element => by
      have hspelling := Spelling.list (spelling_name element) isGap_nil isGap_nil
      simpa [name, TypeSpec.listMark] using hspelling
  | .nullable inner => by
      have hspelling := Spelling.nullable (spelling_name inner) isGap_nil
      simpa [name] using hspelling

theorem isWrittenBy_name (t : TypeRef) : t.IsWrittenBy t.name :=
  ⟨[], t.name.toList, [], isGap_nil, spelling_name t, isGap_nil, by simp⟩

end TypeRef

/-! ## Reading -/

namespace TypeSpec

open Text

variable {cs element inner front back gap : List Char}

theorem read_eq_list (h : listElement? (trim cs) = some element) :
    read cs = .list (read element) := by
  rw [read]
  split
  · rename_i element' h'
    rw [Option.some.inj (h'.symm.trans h)]
  · rename_i hnone
    cases hnone.symm.trans h

theorem read_eq_nullable (hlist : listElement? (trim cs) = none)
    (h : nullableInner? (trim cs) = some inner) : read cs = .nullable (read inner) := by
  rw [read]
  split
  · rename_i element' h'
    cases hlist.symm.trans h'
  · split
    · rename_i inner' h'
      rw [Option.some.inj (h'.symm.trans h)]
    · rename_i hnone
      cases hnone.symm.trans h

theorem read_eq_name (hlist : listElement? (trim cs) = none)
    (hnullable : nullableInner? (trim cs) = none) : read cs = .name (String.ofList (trim cs)) := by
  rw [read]
  split
  · rename_i element' h'
    cases hlist.symm.trans h'
  · split
    · rename_i inner' h'
      cases hnullable.symm.trans h'
    · rfl

/-- A text that a specification can be made of: not empty, in one line, and without blanks at its
ends. -/
structure IsSolid (cs : List Char) : Prop where
  nonempty : cs ≠ []
  tight : IsTight cs
  oneLine : '\n' ∉ cs

theorem IsSolid.trim_gaps (h : IsSolid cs) (hfront : IsGap front) (hback : IsGap back) :
    trim (front ++ cs ++ back) = cs :=
  Text.trim_gaps h.tight hfront hback h.nonempty

theorem listElement?_eq_none (h : cs.getLast? ≠ some '>') : listElement? cs = none := by
  rw [listElement?, if_neg fun hlist => h hlist.2]

/-- Brackets around a text make it a list, whatever gaps are inside. -/
theorem listElement?_brackets (h : IsSolid cs) (hfront : IsGap front) (hback : IsGap back) :
    listElement? (listMark ++ (front ++ cs ++ back) ++ ['>']) = some cs := by
  have hinside : ((listMark ++ (front ++ cs ++ back) ++ ['>']).drop 5).dropLast =
      front ++ cs ++ back := by
    simp [listMark]
  have hlist : listMark.isPrefixOf (listMark ++ (front ++ cs ++ back) ++ ['>']) = true ∧
      (listMark ++ (front ++ cs ++ back) ++ ['>']).getLast? = some '>' :=
    ⟨by simp [listMark], List.getLast?_concat⟩
  rw [listElement?, if_pos hlist]
  simp only [hinside, h.trim_gaps hfront hback]
  rw [if_neg (by simpa using h.nonempty), if_neg h.oneLine]

/-- A question mark behind a text makes it nullable, whatever gap is between. -/
theorem nullableInner?_mark (h : IsSolid cs) (hgap : IsGap gap) :
    nullableInner? (cs ++ gap ++ ['?']) = some cs := by
  have hinner : trimEnd (cs ++ gap ++ ['?']).dropLast = cs := by
    rw [List.dropLast_concat, trimEnd_append_gap h.tight hgap]
  rw [nullableInner?, if_pos (by simp)]
  simp only [hinner]
  rw [if_neg (by simpa using ⟨h.nonempty, h.oneLine⟩)]

/-- The text is read as a name and as nothing else: it neither opens like a list nor ends like a
nullable. -/
structure IsNameText (cs : List Char) : Prop extends IsSolid cs where
  notList : ¬ listMark <+: cs
  notNullable : cs.getLast? ≠ some '?'

theorem isNameText_scalar (type : ScalarType) : IsNameText type.name.toList := by
  cases type <;>
    exact ⟨⟨by decide, .of_ends rfl rfl rfl rfl, by decide⟩, by decide, by decide⟩

/-- A text that is no list and no nullable is read as a name. -/
theorem read_nameText (h : IsNameText cs) (hfront : IsGap front) (hback : IsGap back) :
    read (front ++ cs ++ back) = .name (String.ofList cs) := by
  have htrim := h.trim_gaps hfront hback
  have hlist : listElement? cs = none := by
    rw [listElement?, if_neg fun hlist => h.notList (List.isPrefixOf_iff_prefix.mp hlist.1)]
  have hnullable : nullableInner? cs = none := by
    rw [nullableInner?, if_neg h.notNullable]
  rw [← htrim] at hlist hnullable
  rw [read_eq_name hlist hnullable, htrim]

theorem IsSolid.brackets (h : IsSolid cs) (hfront : IsGap front) (hback : IsGap back) :
    IsSolid (listMark ++ (front ++ cs ++ back) ++ ['>']) where
  nonempty := by simp
  tight := by
    constructor
    · rw [listMark]
      simpa using (by decide : isBlank 'l' = false)
    · rw [List.getLast?_concat]
      simpa using (by decide : isBlank '>' = false)
  oneLine := by
    have hmark : '\n' ∉ listMark := by decide
    have hfront : '\n' ∉ front := fun hmem => (hfront _ hmem).2 rfl
    have hback : '\n' ∉ back := fun hmem => (hback _ hmem).2 rfl
    simp [hmark, hfront, h.oneLine, hback]

theorem IsSolid.mark (h : IsSolid cs) (hgap : IsGap gap) : IsSolid (cs ++ gap ++ ['?']) where
  nonempty := by simp
  tight := by
    constructor
    · rw [List.append_assoc, List.head?_append_of_ne_nil cs h.nonempty]
      exact h.tight.first
    · rw [List.getLast?_concat]
      simpa using (by decide : isBlank '?' = false)
  oneLine := by
    have hgap : '\n' ∉ gap := fun hmem => (hgap _ hmem).2 rfl
    simp [h.oneLine, hgap]

end TypeSpec

namespace TypeTable

open Text TypeSpec

/-! ## Types that can be written -/

/-- The name is that of no scalar type, and is read as a name. -/
structure IsTypeName (name : String) : Prop extends IsNameText name.toList where
  notScalar : ScalarType.ofName? name = none

/-- What the names in a type stand for: a name that is neither built nor free stands for itself, and
one that is built for its record.  A text is never made nullable, since it has null among its values
already. -/
inductive IsWritable (free : List TypeDefinition) (table : TypeTable) : TypeRef → Prop where
  | scalar (type : ScalarType) : IsWritable free table (.scalar type)
  | unknown {name : String} (plain : IsTypeName name) (notBuilt : table.lookup name = none)
      (notFree : name ∉ TypeDefinition.names free) : IsWritable free table (.named name)
  | built {name : String} {properties : List (String × TypeRef)} {statics : List (String × Value)}
      (plain : IsTypeName name)
      (known : table.lookup name = some (.record name properties statics)) :
      IsWritable free table (.record name properties statics)
  | list {element : TypeRef} (inside : IsWritable free table element) :
      IsWritable free table (.list element)
  | nullable {inner : TypeRef} (inside : IsWritable free table inner) (notText : inner ≠ .string) :
      IsWritable free table (.nullable inner)

variable {free : List TypeDefinition} {table : TypeTable} {t : TypeRef} {cs : List Char}

theorem isSolid_of_spelling (h : IsWritable free table t) (hspelling : t.Spelling cs) :
    IsSolid cs := by
  induction h generalizing cs with
  | scalar type =>
      cases hspelling
      exact (isNameText_scalar type).toIsSolid
  | unknown plain _ _ | built plain _ =>
      cases hspelling
      exact plain.toIsSolid
  | list _ ih =>
      cases hspelling with
      | list inside opening closing => exact (ih inside).brackets opening closing
  | nullable _ _ ih =>
      cases hspelling with
      | nullable inside mark => exact (ih inside).mark mark

/-- Every spelling of a type, with gaps at its ends, is read as the type. -/
theorem ofSpec_read_spelling (h : IsWritable free table t) :
    ∀ {front cs back : List Char}, t.Spelling cs → IsGap front → IsGap back →
      ofSpec free table (read (front ++ cs ++ back)) = .ok (t, table) := by
  induction h with
  | scalar type =>
      intro front cs back hspelling hfront hback
      cases hspelling
      rw [read_nameText (isNameText_scalar type) hfront hback, String.ofList_toList, ofSpec,
        ScalarType.ofName?_name]
  | unknown plain notBuilt notFree =>
      intro front cs back hspelling hfront hback
      cases hspelling
      rw [read_nameText plain.toIsNameText hfront hback, String.ofList_toList,
        ofSpec_name_of_none plain.notScalar, ofName_of_not_mem notBuilt notFree]
  | built plain known =>
      intro front cs back hspelling hfront hback
      cases hspelling
      rw [read_nameText plain.toIsNameText hfront hback, String.ofList_toList,
        ofSpec_name_of_none plain.notScalar, ofName_of_lookup known]
  | list helement ih =>
      intro front cs back hspelling hfront hback
      have hsolid := isSolid_of_spelling (.list helement) hspelling
      cases hspelling with
      | @list _ opened element closed inside opening closing =>
          have helementSolid := isSolid_of_spelling helement inside
          have hread := listElement?_brackets helementSolid opening closing
          rw [← hsolid.trim_gaps hfront hback] at hread
          rw [read_eq_list hread]
          have hinside := ih inside isGap_nil isGap_nil
          exact ofSpec_list_eq_ok_iff.mpr ⟨_, by simpa using hinside, rfl⟩
  | nullable hinner notText ih =>
      intro front cs back hspelling hfront hback
      have hsolid := isSolid_of_spelling (.nullable hinner notText) hspelling
      cases hspelling with
      | @nullable _ inner gap inside mark =>
          have hlist : listElement? (inner ++ gap ++ ['?']) = none :=
            listElement?_eq_none (by simp)
          have hread := nullableInner?_mark (isSolid_of_spelling hinner inside) mark
          rw [← hsolid.trim_gaps hfront hback] at hlist hread
          rw [read_eq_nullable hlist hread]
          have hinside := ih inside isGap_nil isGap_nil
          exact ofSpec_nullable_eq_ok_iff.mpr
            ⟨_, by simpa using hinside, (addNull_of_ne notText).symm⟩

/-- A type whose names are read as names, and stand for themselves or for records that have been
built, is what its name specifies, and what every text specifies that writes it with gaps between.
The table stays as it is. -/
theorem ofSpec_ofText_name (h : IsWritable free table t) :
    ofSpec free table (ofText t.name) = .ok (t, table) ∧
      ∀ text, t.IsWrittenBy text → ofSpec free table (ofText text) = .ok (t, table) := by
  have hall : ∀ text, t.IsWrittenBy text → ofSpec free table (ofText text) = .ok (t, table) := by
    rintro text ⟨front, cs, back, hfront, hspelling, hback, htext⟩
    rw [ofText, htext]
    exact ofSpec_read_spelling h hspelling hfront hback
  exact ⟨hall t.name t.isWrittenBy_name, hall⟩

section

/-- People with a name. -/
def namedPerson : TypeRef := .record "Person" [("Name", .string)] []

theorem isTypeName_person : IsTypeName "Person" :=
  ⟨⟨⟨by decide, .of_ends rfl rfl rfl rfl, by decide⟩, by decide, by decide⟩, rfl⟩

/-- Spaces and tabs may stand in every place of the type of several people. -/
theorem ofSpec_ofText_name_people :
    let people : TypeRef := .nullable (.list (.nullable namedPerson))
    let table : TypeTable := [("Person", namedPerson)]
    IsWritable [] table people ∧ people.name = "list<Person?>?" ∧
      people.IsWrittenBy "\tlist<\tPerson ?  > ? " ∧
      ofSpec [] table (ofText "\tlist<\tPerson ?  > ? ") = .ok (people, table) := by
  intro people table
  have hspace : IsGap [' '] := isGap_cons rfl (by decide) isGap_nil
  have htab : IsGap ['\t'] := isGap_cons rfl (by decide) isGap_nil
  have hspaces : IsGap [' ', ' '] := isGap_cons rfl (by decide) hspace
  have hwritable : IsWritable [] table people :=
    .nullable (.list (.nullable (.built isTypeName_person rfl) (by simp [namedPerson]))) (by simp)
  have hwritten : people.IsWrittenBy "\tlist<\tPerson ?  > ? " :=
    ⟨['\t'], _, [' '], htab,
      .nullable (.list (.nullable (.record _ _ _) hspace) htab hspaces) hspace, hspace, rfl⟩
  exact ⟨hwritable, rfl, hwritten, (ofSpec_ofText_name hwritable).2 _ hwritten⟩

end

end TypeTable

end BoundSql
