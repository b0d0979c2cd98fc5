import BoundSql.Proofs.Document.Columns
import BoundSql.Proofs.Document.TypeRules

set_option autoImplicit false

/-!
# Declared types

The types of a document may refer to each other in any way.  A type that is being built is known to
the others by its name alone, and what is known of it that way is never kept under its name: the
table has a record for every declared name, with all its properties in order, and each property has
the type of the name that is written for it.  So a document without a projection selects just the
declared properties of its row type (`declared_kept`).
-/

namespace BoundSql

namespace TypeTable

open TypeDefinition

/-! ## Names of types -/

/-- The type is a text just if the specification gives one where nothing is declared, and has the
name of what that gives. -/
def HasNameOf (spec : TypeSpec) (type : TypeRef) : Prop :=
  ∃ alone, ofSpec [] [] spec = .ok (alone, []) ∧ type.name = alone.name ∧
    (type = .string ↔ alone = .string)

/-- A property has the name that it is declared under and a type with the name that is written. -/
def KeepsProperty (declared : String × Option TypeSpec) (property : String × TypeRef) : Prop :=
  property.1 = declared.1 ∧ ∃ spec, declared.2 = some spec ∧ HasNameOf spec property.2

/-- The record of a declared name, which has all declared properties in order. -/
inductive IsRecordOf (definitions : List TypeDefinition) : String → TypeRef → Prop where
  | intro {name : String} {d : TypeDefinition} {specs : List (String × Option TypeSpec)}
      {properties : List (String × TypeRef)} (found : find? name definitions = some d)
      (declared : d.properties = some specs)
      (kept : List.Forall₂ KeepsProperty specs properties) :
      IsRecordOf definitions name (.record name properties d.statics)

/-- Under each name the table has the record of that name. -/
def HasRecords (definitions : List TypeDefinition) (table : TypeTable) : Prop :=
  ∀ {name type}, table.lookup name = some type → IsRecordOf definitions name type

/-- A build goes on with a table that has records and leaves out no name of the one before. -/
structure Grows (definitions : List TypeDefinition) (table table' : TypeTable) : Prop where
  records : HasRecords definitions table'
  keeps : ∀ {name}, table.lookup name ≠ none → table'.lookup name ≠ none

variable {definitions free : List TypeDefinition} {table table' table'' : TypeTable}
  {owner name : String} {type : TypeRef}

theorem Grows.refl (h : HasRecords definitions table) : Grows definitions table table := ⟨h, id⟩

theorem Grows.trans (h : Grows definitions table table') (h' : Grows definitions table' table'') :
    Grows definitions table table'' :=
  ⟨h'.records, fun hname => h'.keeps (h.keeps hname)⟩

theorem IsRecordOf.mem_names (h : IsRecordOf definitions name type) : name ∈ names definitions := by
  cases h with
  | intro found _ _ => exact mem_names_of_find? found

theorem IsRecordOf.name_eq (h : IsRecordOf definitions name type) : type.name = name := by
  cases h
  rfl

theorem IsRecordOf.ne_string (h : IsRecordOf definitions name type) : type ≠ .string := by
  cases h
  simp

theorem hasRecords_nil : HasRecords definitions [] := by
  intro name type hknown
  cases hknown

theorem hasRecords_cons (h : HasRecords definitions table)
    (record : IsRecordOf definitions name type) :
    HasRecords definitions ((name, type) :: table) := by
  intro other known hknown
  rw [List.lookup_cons] at hknown
  split at hknown
  · rename_i hother
    obtain rfl := beq_iff_eq.mp hother
    obtain rfl := Option.some.inj hknown
    exact record
  · exact h hknown

/-- Null can be added on both sides of a name that is kept. -/
theorem HasNameOf.nullable {inner : TypeSpec} (h : HasNameOf inner type) :
    HasNameOf (.nullable inner) (addNull type) := by
  obtain ⟨alone, halone, hname, hstring⟩ := h
  refine ⟨addNull alone, ofSpec_nullable_eq_ok_iff.mpr ⟨alone, halone, rfl⟩, ?_⟩
  by_cases htext : type = .string
  · rw [htext, hstring.mp htext]
    exact ⟨rfl, .rfl⟩
  · have htext' : alone ≠ .string := fun heq => htext (hstring.mpr heq)
    rw [addNull_of_ne htext, addNull_of_ne htext', TypeRef.name, TypeRef.name, hname]
    simp

theorem HasNameOf.list {element : TypeSpec} (h : HasNameOf element type) :
    HasNameOf (.list element) (.list type) := by
  obtain ⟨alone, halone, hname, -⟩ := h
  refine ⟨.list alone, ofSpec_list_eq_ok_iff.mpr ⟨alone, halone, rfl⟩, ?_, by simp⟩
  rw [TypeRef.name, TypeRef.name, hname]

theorem hasNameOf_scalar {scalar : ScalarType} (h : ScalarType.ofName? name = some scalar) :
    HasNameOf (.name name) (.scalar scalar) :=
  ⟨.scalar scalar, by rw [ofSpec, h], rfl, .rfl⟩

/-- A name that is no scalar's is all that is known of it where nothing is declared. -/
theorem hasNameOf_name (notScalar : ScalarType.ofName? name = none) (hname : type.name = name)
    (hstring : type ≠ .string) : HasNameOf (.name name) type := by
  refine ⟨.named name, ?_, hname, by simp [hstring]⟩
  rw [ofSpec_name_of_none notScalar, ofName_of_not_mem rfl (by simp [names])]

/-! ## The types that a build gives -/

/-- A name gives a type of that name, which is no text, and the table has the names that were free
from then on. -/
def BuildsRecords (definitions free : List TypeDefinition) : Prop :=
  ∀ ⦃table table' : TypeTable⦄ ⦃name : String⦄ ⦃type : TypeRef⦄, HasRecords definitions table →
    ofName free table name = .ok (type, table') →
    Grows definitions table table' ∧ type.name = name ∧ type ≠ .string ∧
      (name ∈ names free → table'.lookup name ≠ none)

section

variable (builds : BuildsRecords definitions free)

include builds

theorem ofSpec_grows {spec : TypeSpec} (records : HasRecords definitions table)
    (h : ofSpec free table spec = .ok (type, table')) :
    Grows definitions table table' ∧ HasNameOf spec type := by
  induction spec generalizing type with
  | name name =>
      cases hscalar : ScalarType.ofName? name with
      | some scalar =>
          rw [ofSpec, hscalar] at h
          cases h
          exact ⟨.refl records, hasNameOf_scalar hscalar⟩
      | none =>
          rw [ofSpec_name_of_none hscalar] at h
          obtain ⟨hgrows, hname, hstring, -⟩ := builds records h
          exact ⟨hgrows, hasNameOf_name hscalar hname hstring⟩
  | list element ih =>
      obtain ⟨inside, hinside, rfl⟩ := ofSpec_list_eq_ok_iff.mp h
      obtain ⟨hgrows, hname⟩ := ih hinside
      exact ⟨hgrows, hname.list⟩
  | nullable inner ih =>
      obtain ⟨inside, hinside, rfl⟩ := ofSpec_nullable_eq_ok_iff.mp h
      obtain ⟨hgrows, hname⟩ := ih hinside
      exact ⟨hgrows, hname.nullable⟩

theorem ofProperties_grows {specs : List (String × Option TypeSpec)} :
    ∀ {table : TypeTable} {properties : List (String × TypeRef)}, HasRecords definitions table →
      ofProperties owner free table specs = .ok (properties, table') →
      Grows definitions table table' ∧ List.Forall₂ KeepsProperty specs properties := by
  induction specs with
  | nil =>
      intro table properties records h
      rw [ofProperties] at h
      cases h
      exact ⟨.refl records, .nil⟩
  | cons head specs ih =>
      intro table properties records h
      obtain ⟨property, _ | spec⟩ := head
      · rw [ofProperties] at h
        cases h
      · obtain ⟨type, mid, rest, hspec, hrest, rfl⟩ := ofProperties_cons_eq_ok_iff.mp h
        obtain ⟨hgrows, hname⟩ := ofSpec_grows builds records hspec
        obtain ⟨hgrows', hkept⟩ := ih hgrows.records hrest
        exact ⟨hgrows.trans hgrows', .cons ⟨rfl, spec, rfl, hname⟩ hkept⟩

end

/-- Whatever is being built, a name gives a type of that name. -/
theorem ofName_grows : ∀ {free : List TypeDefinition},
    (∀ name d, find? name free = some d → find? name definitions = some d) →
      BuildsRecords definitions free := by
  -- The induction is on the free definitions: the properties of a record are built without its own.
  intro free kept table table' name type records h
  cases hlookup : table.lookup name with
  | some known =>
      rw [ofName_of_lookup hlookup] at h
      cases h
      have hrecord := records hlookup
      exact ⟨.refl records, hrecord.name_eq, hrecord.ne_string, fun _ => by simp [hlookup]⟩
  | none =>
      cases found : find? name free with
      | none =>
          have hfree := find?_eq_none_iff.mp found
          rw [ofName_of_not_mem hlookup hfree] at h
          cases h
          exact ⟨.refl records, rfl, by simp, fun hmem => absurd hmem hfree⟩
      | some d =>
          obtain ⟨specs, properties, mid, hspecs, hproperties, rfl, rfl⟩ :=
            (ofName_eq_ok_iff hlookup found).mp h
          obtain ⟨hgrows, hkept⟩ := ofProperties_grows
            (ofName_grows fun other d' hother => kept other d' (find?_of_find?_without hother))
            records hproperties
          have hrecord : IsRecordOf definitions name (.record name properties d.statics) :=
            .intro (kept name d found) hspecs hkept
          exact ⟨⟨hasRecords_cons hgrows.records hrecord,
            fun hother => lookup_cons_ne_none (hgrows.keeps hother)⟩, rfl, by simp,
            fun _ => by simp⟩
termination_by free => free.length
decreasing_by exact length_without_lt found

/-! ## All types -/

/-- A run over names fills the table with records, one for each that is declared. -/
theorem grows_foldlM {order : List String} : ∀ {table : TypeTable}, HasRecords definitions table →
    order.foldlM (fun table name => (·.2) <$> ofName definitions table name) table = .ok table' →
    Grows definitions table table' ∧
      ∀ name ∈ order, name ∈ names definitions → table'.lookup name ≠ none := by
  induction order with
  | nil =>
      intro table records h
      cases h
      exact ⟨.refl records, by simp⟩
  | cons name order ih =>
      intro table records h
      obtain ⟨type, mid, hbuilt, h⟩ := foldlM_ofName_cons_eq_ok_iff.mp h
      obtain ⟨hgrows, -, -, hknown⟩ := ofName_grows (fun _ _ found => found) records hbuilt
      obtain ⟨hgrows', hall⟩ := ih hgrows.records h
      exact ⟨hgrows.trans hgrows',
        List.forall_mem_cons.mpr ⟨fun hname => hgrows'.keeps (hknown hname), hall⟩⟩

theorem hasRecords_of_buildInOrder {order : List String}
    (h : buildInOrder definitions order = .ok table) : HasRecords definitions table :=
  (grows_foldlM hasRecords_nil h).1.records

/-- A declared name that comes up stands for its record. -/
theorem isRecordOf_of_buildInOrder {order : List String}
    (h : buildInOrder definitions order = .ok table) (hvisit : name ∈ order)
    (hname : name ∈ names definitions) : IsRecordOf definitions name (table.resolve name) := by
  obtain ⟨hgrows, hall⟩ := grows_foldlM hasRecords_nil h
  obtain ⟨type, hlookup⟩ := Option.ne_none_iff_exists'.mp (hall name hvisit hname)
  rw [resolve, hlookup]
  exact hgrows.records hlookup

end TypeTable

namespace Document

/-! ## Declarations -/

/-- The properties that the definition of a type declares, in order, each with what is written for
its type. -/
def declaredProperties (definition : List (String × Json)) : List (String × Json) :=
  match definition.lookup "properties" with
  | some (.object properties) => properties
  | _ => []

/-- The property is the declared one: it has its name, and its type has the name of the type that
the text written for it gives where nothing is declared. -/
def IsDeclaredProperty (declared : String × Json) (property : String × TypeRef) : Prop :=
  property.1 = declared.1 ∧ ∃ text alone, declared.2 = .text text ∧
    TypeTable.ofSpec [] [] (.ofText text) = .ok (alone, []) ∧ property.2.name = alone.name

variable {doc : Document} {members types definition : List (String × Json)}
  {definitions : List TypeDefinition} {name : String} {type : TypeRef}

theorem exists_types_of_readAll {written? : Option Json}
    (h : TypeDefinition.readAll written? = .ok definitions)
    (hname : name ∈ TypeDefinition.names definitions) :
    ∃ types, written? = some (.object types) := by
  unfold TypeDefinition.readAll at h
  split at h
  · obtain rfl := Except.ok.inj h
    cases hname
  · exact ⟨_, rfl⟩
  · cases h

/-- Every definition is read from the object under its name. -/
theorem forall₂_of_readAll
    (h : TypeDefinition.readAll (some (.object types)) = .ok definitions) :
    List.Forall₂ (fun (member : String × Json) d =>
      ∃ definition, member.2 = .object definition ∧ d = TypeDefinition.read member.1 definition)
      types definitions := by
  refine (mapM_eq_ok_iff.mp h).imp fun member d hmember => ?_
  split at hmember
  · rename_i definition hobject
    exact ⟨definition, hobject, (Except.ok.inj hmember).symm⟩
  · cases hmember

theorem names_of_readAll (h : TypeDefinition.readAll (some (.object types)) = .ok definitions) :
    TypeDefinition.names definitions = types.map (·.1) := by
  have hall := forall₂_of_readAll h
  clear h
  induction hall with
  | nil => rfl
  | cons hmember _ ih =>
      obtain ⟨definition, -, rfl⟩ := hmember
      simpa [TypeDefinition.names, TypeDefinition.read] using ih

/-- A definition that is found is read from the object under its name. -/
theorem lookup_of_find? {d : TypeDefinition}
    (h : TypeDefinition.readAll (some (.object types)) = .ok definitions)
    (found : TypeDefinition.find? name definitions = some d) :
    ∃ definition, types.lookup name = some (.object definition) ∧
      d = TypeDefinition.read name definition := by
  have hall := forall₂_of_readAll h
  clear h
  induction hall with
  | nil => simp [TypeDefinition.find?] at found
  | @cons member d' members rest hmember _ ih =>
      obtain ⟨other, json⟩ := member
      obtain ⟨definition, rfl, rfl⟩ := hmember
      by_cases hname : name = other
      · subst hname
        simp only [TypeDefinition.find?, TypeDefinition.read, List.find?_cons, beq_self_eq_true,
          Option.some.injEq] at found
        exact ⟨definition, List.lookup_cons_self, found.symm⟩
      · have hother : (other == name) = false := beq_eq_false_iff_ne.mpr (Ne.symm hname)
        simp only [TypeDefinition.find?, TypeDefinition.read, List.find?_cons, hother] at found
        obtain ⟨definition', hlookup, hd⟩ := ih found
        refine ⟨definition', ?_, hd⟩
        rw [List.lookup_cons, beq_eq_false_iff_ne.mpr hname]
        exact hlookup

/-- The properties that are read of a definition are the declared ones. -/
theorem properties_read {specs : List (String × Option TypeSpec)}
    (h : (TypeDefinition.read name definition).properties = some specs) :
    specs = TypeDefinition.readProperties (declaredProperties definition) := by
  unfold declaredProperties
  simp only [TypeDefinition.read] at h
  cases hlookup : definition.lookup "properties" with
  | none =>
      rw [hlookup] at h
      exact (Option.some.inj h).symm
  | some json =>
      rw [hlookup] at h
      cases json with
      | object properties => exact (Option.some.inj h).symm
      | _ => cases h

theorem isDeclaredProperty_of_keeps {declared : String × Json} {property : String × TypeRef}
    (h : TypeTable.KeepsProperty (declared.1, declared.2.asText?.map .ofText) property) :
    IsDeclaredProperty declared property := by
  obtain ⟨hname, spec, hspec, alone, halone, htype, -⟩ := h
  obtain ⟨text, htext, rfl⟩ := Option.map_eq_some_iff.mp hspec
  refine ⟨hname, text, alone, ?_, halone, htype⟩
  cases hjson : declared.2 <;> simp_all [Json.asText?]

/-- The record of a declared name has the declared properties in order. -/
theorem exists_properties_of_isRecordOf
    (h : TypeDefinition.readAll (some (.object types)) = .ok definitions)
    (record : TypeTable.IsRecordOf definitions name type) :
    ∃ definition properties statics, types.lookup name = some (.object definition) ∧
      type = .record name properties statics ∧
      List.Forall₂ IsDeclaredProperty (declaredProperties definition) properties := by
  obtain ⟨found, declared, kept⟩ := record
  obtain ⟨definition, hlookup, rfl⟩ := lookup_of_find? h found
  obtain rfl := properties_read declared
  rw [TypeDefinition.readProperties, List.forall₂_map_left_iff] at kept
  exact ⟨definition, _, _, hlookup, rfl, kept.imp fun _ _ => isDeclaredProperty_of_keeps⟩

theorem map_fst_eq_of_declared {declared : List (String × Json)}
    {properties : List (String × TypeRef)}
    (h : List.Forall₂ IsDeclaredProperty declared properties) :
    properties.map (·.1) = declared.map (·.1) := by
  induction h with
  | nil => rfl
  | cons hproperty _ ih => rw [List.map_cons, List.map_cons, hproperty.1, ih]

/-- The row type of a document that is read is in its table of types. -/
theorem exists_table_of_ofMembersIn {visit : List TypeDefinition → List String}
    (h : ofMembersIn visit members = .ok doc) :
    ∃ rowType definitions table, textAt? members "row_type" = some rowType ∧
      TypeDefinition.readAll (members.lookup "types") = .ok definitions ∧
      TypeTable.buildInOrder definitions (visit definitions) = .ok table ∧
      table.lookup rowType = some doc.descriptor.element := by
  simp only [ofMembersIn, bind_eq_ok_iff] at h
  obtain ⟨dataset, -, name, hname, definitions, hdefinitions, table, htable, rowType, hrow, closure,
    -, conditions, -, selections, -, orderings, -, h⟩ := h
  obtain rfl := Except.ok.inj h
  refine ⟨name, definitions, table, ?_, hdefinitions, htable, ?_⟩
  · unfold requiredText at hname
    split at hname
    · rename_i text htext
      rw [htext, Except.ok.inj hname]
    · cases hname
  · unfold declaredRowType TypeTable.resolve at hrow
    cases hlookup : table.lookup name with
    | none => simp [hlookup, TypeRef.isRecord, TypeRef.recordName?] at hrow
    | some known =>
        simp only [hlookup, Option.getD_some] at hrow
        split at hrow
        · rw [Except.ok.inj hrow]
        · cases hrow

/-- Without a projection a document selects the properties of its row type. -/
theorem columns_of_no_select {visit : List TypeDefinition → List String} {options : Options}
    {s : Statement} (hread : ofMembersIn visit members = .ok doc)
    (hselect : members.lookup "select" = none)
    (hcompile : Query.compileFor options doc.chain doc.descriptor = .ok s) :
    s.columns = doc.descriptor.element.propertyNames.map Column.identity := by
  obtain ⟨scope, conditions, clauses, selections, selected, keys, ⟨hrow, -⟩, -,
    ⟨hselections, hselected⟩, -, rfl⟩ := exists_parts_of_compileFor hread hcompile
  rw [hselect] at hselections
  obtain rfl := Except.ok.inj hselections
  obtain rfl := Except.ok.inj hselected
  rw [← hrow]
  simp [Statement.columns, Projection.columns, Query.Progress.items,
    Projection.Item.column_identity, Function.comp_def]

/-- Types are declared that may refer to each other in any way.

* When they are built, in whatever order, every declared name stands for a record of that name.  It
  has the declared properties in the order of the document, and the type of each has the name that
  its specification gives where nothing is declared.
* A document without a projection that is read and compiles selects one column for each declared
  property of its row type, under the name of the property and in the order of the document. -/
theorem declared_kept :
    (∀ types definitions order table,
      TypeDefinition.readAll (some (.object types)) = .ok definitions →
      order.Perm (TypeDefinition.names definitions) →
      TypeTable.buildInOrder definitions order = .ok table →
      ∀ name ∈ types.map (·.1), ∃ definition properties statics,
        types.lookup name = some (.object definition) ∧
        table.resolve name = .record name properties statics ∧
        List.Forall₂ IsDeclaredProperty (declaredProperties definition) properties) ∧
    (∀ visit members doc options s, ofMembersIn visit members = .ok doc →
      members.lookup "select" = none →
      Query.compileFor options doc.chain doc.descriptor = .ok s →
      ∃ rowType types definition, textAt? members "row_type" = some rowType ∧
        members.lookup "types" = some (.object types) ∧
        types.lookup rowType = some (.object definition) ∧
        s.columns = (declaredProperties definition).map fun property => .identity property.1) := by
  constructor
  · intro types definitions order table hread horder hbuild name hname
    rw [← names_of_readAll hread] at hname
    exact exists_properties_of_isRecordOf hread
      (TypeTable.isRecordOf_of_buildInOrder hbuild (horder.mem_iff.mpr hname) hname)
  · intro visit members doc options s hread hselect hcompile
    obtain ⟨rowType, definitions, table, hrow, hdefinitions, hbuild, hlookup⟩ :=
      exists_table_of_ofMembersIn hread
    have hrecord := TypeTable.hasRecords_of_buildInOrder hbuild hlookup
    obtain ⟨types, htypes⟩ := exists_types_of_readAll hdefinitions hrecord.mem_names
    rw [htypes] at hdefinitions
    obtain ⟨definition, properties, statics, hdefinition, helement, hproperties⟩ :=
      exists_properties_of_isRecordOf hdefinitions hrecord
    refine ⟨rowType, types, definition, hrow, htypes, hdefinition, ?_⟩
    rw [columns_of_no_select hread hselect hcompile, helement, TypeRef.propertyNames,
      TypeRef.properties, map_fst_eq_of_declared hproperties, List.map_map]
    rfl

section

/-- People and companies, which refer to each other. -/
def mutualTypes : List (String × Json) :=
  [("Person", .object [("properties", .object
      [("Employer", .text "Company"), ("Manager", .text "Person")])]),
    ("Company", .object [("properties", .object [("Owner", .text "Person")])])]

def mutualDefinitions : List TypeDefinition :=
  [⟨"Person", some [("Employer", some (.name "Company")), ("Manager", some (.name "Person"))], []⟩,
    ⟨"Company", some [("Owner", some (.name "Person"))], []⟩]

/-- The table of these types, built in the order of their declaration.  Of a person the company knows
the name alone. -/
def mutualTable : TypeTable :=
  let company : TypeRef := .record "Company" [("Owner", .named "Person")] []
  [("Person", .record "Person" [("Employer", company), ("Manager", .named "Person")] []),
    ("Company", company)]

theorem readAll_mutualTypes :
    TypeDefinition.readAll (some (.object mutualTypes)) = .ok mutualDefinitions := by
  cbv

theorem build_mutualDefinitions :
    TypeTable.buildInOrder mutualDefinitions ["Person", "Company"] = .ok mutualTable := by
  cbv

def mutualPeople : List (String × Json) :=
  [("dataset", .text "people"), ("row_type", .text "Person"), ("types", .object mutualTypes)]

theorem ofMembers_mutualPeople :
    ofMembers mutualPeople = .ok ⟨⟨"people", mutualTable.resolve "Person"⟩, []⟩ := by
  simp only [ofMembers, ofMembersIn, bind_eq_ok_iff]
  exact ⟨_, rfl, _, rfl, _, readAll_mutualTypes, _, build_mutualDefinitions, _, rfl, _, rfl, _, rfl,
    _, rfl, _, rfl, rfl⟩

/-- The person that the company knows by name alone is not what the name stands for, and all that is
declared of a person is selected. -/
theorem declared_kept_mutual :
    (∃ properties statics, mutualTable.resolve "Person" = .record "Person" properties statics ∧
      List.Forall₂ IsDeclaredProperty
        [("Employer", .text "Company"), ("Manager", .text "Person")] properties) ∧
    ∃ doc s, ofMembers mutualPeople = .ok doc ∧
      Query.compileFor Options.default doc.chain doc.descriptor = .ok s ∧
      s.columns = [.identity "Employer", .identity "Manager"] := by
  constructor
  · obtain ⟨definition, properties, statics, hdefinition, htype, hproperties⟩ :=
      declared_kept.1 mutualTypes mutualDefinitions ["Person", "Company"] mutualTable
        readAll_mutualTypes (.refl _) build_mutualDefinitions "Person" (by decide)
    obtain rfl : _ = definition := Json.object.inj (Option.some.inj hdefinition)
    exact ⟨properties, statics, htype, hproperties⟩
  · obtain ⟨s, hcompile⟩ : ∃ s, Query.compileFor Options.default (chain
        ⟨⟨"people", mutualTable.resolve "Person"⟩, []⟩) ⟨"people", mutualTable.resolve "Person"⟩ =
          .ok s := ⟨_, rfl⟩
    refine ⟨_, s, ofMembers_mutualPeople, hcompile, ?_⟩
    obtain ⟨rowType, types, definition, hrow, htypes, hdefinition, hcolumns⟩ :=
      declared_kept.2 _ mutualPeople _ _ s ofMembers_mutualPeople rfl hcompile
    obtain rfl : "Person" = rowType := Option.some.inj hrow
    obtain rfl : mutualTypes = types := Json.object.inj (Option.some.inj htypes)
    obtain rfl : _ = definition := Json.object.inj (Option.some.inj hdefinition)
    exact hcolumns

end

end Document

end BoundSql
