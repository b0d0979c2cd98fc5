import BoundSql.Document.TypeTable
import BoundSql.Proofs.Outcome
import Mathlib.Data.List.Basic

set_option autoImplicit false

/-!
# Rules for building types

The cases in which a name, a specification and a list of properties give types, and what a declared
name stands for without a table: a record whose properties have the types of their specifications,
with nothing but the name for the record itself.  A name stands for one type at most, and every
build succeeds where the definitions are sound.
-/

namespace BoundSql

namespace TypeDefinition

/-- The properties are an object and their types are texts. -/
def IsSound (d : TypeDefinition) : Prop :=
  ∃ specs, d.properties = some specs ∧ ∀ property ∈ specs, property.2 ≠ none

variable {definitions : List TypeDefinition} {name other : String} {d : TypeDefinition}

theorem find?_eq_none_iff : find? name definitions = none ↔ name ∉ names definitions := by
  simp [find?, names]

theorem mem_names_of_find? (h : find? name definitions = some d) : name ∈ names definitions := by
  by_contra hnot
  rw [find?_eq_none_iff.mpr hnot] at h
  cases h

theorem exists_find?_of_mem_names (h : name ∈ names definitions) :
    ∃ d, find? name definitions = some d := by
  rw [← Option.ne_none_iff_exists']
  exact fun hnone => find?_eq_none_iff.mp hnone h

theorem find?_without_self : find? name (without name definitions) = none := by
  simp [find?, without]

theorem find?_without_of_ne (h : other ≠ name) :
    find? other (without name definitions) = find? other definitions := by
  unfold find? without
  rw [List.find?_filter]
  congr 1
  funext d
  by_cases hname : d.name = other <;> simp [hname, h]

/-- A definition that is left over was there before. -/
theorem find?_of_find?_without (h : find? other (without name definitions) = some d) :
    find? other definitions = some d := by
  by_cases hname : other = name
  · rw [hname, find?_without_self] at h
    cases h
  · rwa [find?_without_of_ne hname] at h

end TypeDefinition

namespace TypeTable

open TypeDefinition

/-! ## The steps of a build -/

section

variable {free : List TypeDefinition} {table table' : TypeTable} {owner name : String}
  {type : TypeRef}

/-- A name that the table has is not lost by a new entry. -/
theorem lookup_cons_ne_none {other : String} (h : table.lookup other ≠ none) :
    List.lookup other ((name, type) :: table) ≠ none := by
  rw [List.lookup_cons]
  split
  · simp
  · exact h

theorem ofName_of_lookup (h : table.lookup name = some type) :
    ofName free table name = .ok (type, table) := by
  rw [ofName, h]

/-- A name that is not free stands for nothing but itself. -/
theorem ofName_of_not_mem (h : table.lookup name = none) (hfree : name ∉ names free) :
    ofName free table name = .ok (.named name, table) := by
  rw [ofName, h]
  simp only
  split
  · rfl
  · rename_i found
    exact absurd (mem_names_of_find? found) hfree

/-- The record of a free name has the types of the declared properties, and is kept. -/
theorem ofName_eq_map {d : TypeDefinition} {specs : List (String × Option TypeSpec)}
    (h : table.lookup name = none) (found : find? name free = some d)
    (declared : d.properties = some specs) :
    ofName free table name =
      (ofProperties name (without name free) table specs).map fun built =>
        (.record name built.1 d.statics, (name, .record name built.1 d.statics) :: built.2) := by
  rw [ofName, h]
  simp only
  split
  · rename_i hnone
    cases hnone.symm.trans found
  · rename_i d' found'
    obtain rfl := Option.some.inj (found.symm.trans found')
    simp only [declared]
    cases ofProperties name (without name free) table specs <;> rfl

theorem ofName_eq_error {d : TypeDefinition} (h : table.lookup name = none)
    (found : find? name free = some d) (undeclared : d.properties = none) :
    ofName free table name = .error (.propertiesNotObject name) := by
  rw [ofName, h]
  simp only
  split
  · rename_i hnone
    cases hnone.symm.trans found
  · rename_i d' found'
    obtain rfl := Option.some.inj (found.symm.trans found')
    simp only [undeclared]

/-- A free name gives a new record, which is kept. -/
theorem ofName_eq_ok_iff {d : TypeDefinition} (h : table.lookup name = none)
    (found : find? name free = some d) :
    ofName free table name = .ok (type, table') ↔
      ∃ specs properties mid, d.properties = some specs ∧
        ofProperties name (without name free) table specs = .ok (properties, mid) ∧
        type = .record name properties d.statics ∧ table' = (name, type) :: mid := by
  cases hspecs : d.properties with
  | none => simp [ofName_eq_error h found hspecs]
  | some specs =>
      rw [ofName_eq_map h found hspecs]
      cases hproperties : ofProperties name (without name free) table specs with
      | error e => simp [Except.map, hproperties]
      | ok built =>
          simp only [Except.map, Except.ok.injEq, Prod.mk.injEq, Option.some.injEq]
          constructor
          · rintro ⟨rfl, rfl⟩
            exact ⟨specs, built.1, built.2, rfl, hproperties, rfl, rfl⟩
          · rintro ⟨_, properties, mid, rfl, hresult, rfl, rfl⟩
            obtain rfl := Except.ok.inj (hproperties.symm.trans hresult)
            exact ⟨rfl, rfl⟩

theorem ofSpec_name_of_none (notScalar : ScalarType.ofName? name = none) :
    ofSpec free table (.name name) = ofName free table name := by
  rw [ofSpec, notScalar]

theorem ofSpec_list (element : TypeSpec) :
    ofSpec free table (.list element) =
      (ofSpec free table element).map fun built => (.list built.1, built.2) := by
  rw [ofSpec]
  cases ofSpec free table element <;> rfl

theorem ofSpec_nullable (inner : TypeSpec) :
    ofSpec free table (.nullable inner) =
      (ofSpec free table inner).map fun built => (addNull built.1, built.2) := by
  rw [ofSpec]
  cases ofSpec free table inner <;> rfl

theorem ofSpec_list_eq_ok_iff {element : TypeSpec} :
    ofSpec free table (.list element) = .ok (type, table') ↔
      ∃ inside, ofSpec free table element = .ok (inside, table') ∧ type = .list inside := by
  rw [ofSpec_list]
  cases ofSpec free table element with
  | error e => simp [Except.map]
  | ok built => simp [Except.map, Prod.ext_iff, eq_comm, and_comm]

theorem ofSpec_nullable_eq_ok_iff {inner : TypeSpec} :
    ofSpec free table (.nullable inner) = .ok (type, table') ↔
      ∃ inside, ofSpec free table inner = .ok (inside, table') ∧ type = addNull inside := by
  rw [ofSpec_nullable]
  cases ofSpec free table inner with
  | error e => simp [Except.map]
  | ok built => simp [Except.map, Prod.ext_iff, eq_comm, and_comm]

/-- Every type but that of texts gets null added. -/
theorem addNull_of_ne (h : type ≠ .string) : addNull type = .nullable type := by
  unfold addNull
  split
  · exact absurd rfl h
  · rfl

theorem ofProperties_cons_eq_ok_iff {property : String} {spec : TypeSpec}
    {specs : List (String × Option TypeSpec)} {properties : List (String × TypeRef)} :
    ofProperties owner free table ((property, some spec) :: specs) = .ok (properties, table') ↔
      ∃ type mid rest, ofSpec free table spec = .ok (type, mid) ∧
        ofProperties owner free mid specs = .ok (rest, table') ∧
        properties = (property, type) :: rest := by
  rw [ofProperties]
  cases ofSpec free table spec with
  | error e => simp
  | ok head =>
      obtain ⟨type, mid⟩ := head
      cases hrest : ofProperties owner free mid specs with
      | error e => simp [hrest]
      | ok tail =>
          simp only [hrest, Except.ok.injEq, Prod.mk.injEq]
          constructor
          · rintro ⟨rfl, rfl⟩
            exact ⟨type, mid, tail.1, ⟨rfl, rfl⟩, hrest, rfl⟩
          · rintro ⟨_, _, rest, ⟨rfl, rfl⟩, hresult, rfl⟩
            obtain rfl := Except.ok.inj (hrest.symm.trans hresult)
            exact ⟨rfl, rfl⟩

/-- A run over names builds the first one and then the others. -/
theorem foldlM_ofName_cons_eq_ok_iff {order : List String} :
    (name :: order).foldlM (fun table name => (·.2) <$> ofName free table name) table =
        .ok table' ↔
      ∃ type mid, ofName free table name = .ok (type, mid) ∧
        order.foldlM (fun table name => (·.2) <$> ofName free table name) mid = .ok table' := by
  rw [List.foldlM_cons, bind_eq_ok_iff]
  constructor
  · rintro ⟨mid, hmid, hrest⟩
    obtain ⟨⟨type, _⟩, hbuilt, rfl⟩ := map_eq_ok_iff.mp hmid
    exact ⟨type, _, hbuilt, hrest⟩
  · rintro ⟨type, mid, hbuilt, hrest⟩
    exact ⟨mid, map_eq_ok_iff.mpr ⟨_, hbuilt, rfl⟩, hrest⟩

end

/-! ## What names stand for -/

mutual

/-- The record that a declared name stands for. -/
inductive NameHasType (definitions : List TypeDefinition) : String → TypeRef → Prop where
  | record {name : String} {d : TypeDefinition} {specs : List (String × Option TypeSpec)}
      {properties : List (String × TypeRef)} (found : find? name definitions = some d)
      (declared : d.properties = some specs)
      (types : PropertiesHaveTypes definitions name specs properties) :
      NameHasType definitions name (.record name properties d.statics)

/-- The type that a specification stands for among the properties of the type `owner`. -/
inductive SpecHasType (definitions : List TypeDefinition) :
    String → TypeSpec → TypeRef → Prop where
  | scalar {owner name : String} {scalar : ScalarType}
      (named : ScalarType.ofName? name = some scalar) :
      SpecHasType definitions owner (.name name) (.scalar scalar)
  | itself {owner : String} (notScalar : ScalarType.ofName? owner = none) :
      SpecHasType definitions owner (.name owner) (.named owner)
  | unknown {owner name : String} (notScalar : ScalarType.ofName? name = none)
      (undeclared : name ∉ names definitions) :
      SpecHasType definitions owner (.name name) (.named name)
  | declared {owner name : String} {type : TypeRef} (notScalar : ScalarType.ofName? name = none)
      (ne : name ≠ owner) (record : NameHasType definitions name type) :
      SpecHasType definitions owner (.name name) type
  | list {owner : String} {element : TypeSpec} {type : TypeRef}
      (inside : SpecHasType definitions owner element type) :
      SpecHasType definitions owner (.list element) (.list type)
  | nullable {owner : String} {inner : TypeSpec} {type : TypeRef}
      (inside : SpecHasType definitions owner inner type) :
      SpecHasType definitions owner (.nullable inner) (addNull type)

/-- The types of the properties of the type `owner`. -/
inductive PropertiesHaveTypes (definitions : List TypeDefinition) :
    String → List (String × Option TypeSpec) → List (String × TypeRef) → Prop where
  | nil {owner : String} : PropertiesHaveTypes definitions owner [] []
  | cons {owner property : String} {spec : TypeSpec} {type : TypeRef}
      {specs : List (String × Option TypeSpec)} {properties : List (String × TypeRef)}
      (head : SpecHasType definitions owner spec type)
      (tail : PropertiesHaveTypes definitions owner specs properties) :
      PropertiesHaveTypes definitions owner ((property, some spec) :: specs)
        ((property, type) :: properties)

end

variable {definitions free : List TypeDefinition} {table table' : TypeTable} {owner name : String}

theorem NameHasType.mem_names {type : TypeRef} (h : NameHasType definitions name type) :
    name ∈ names definitions := by
  cases h with
  | record found _ _ => exact mem_names_of_find? found

mutual

/-- A name stands for one type. -/
theorem NameHasType.unique : ∀ {name : String} {type : TypeRef},
    NameHasType definitions name type →
      ∀ {type' : TypeRef}, NameHasType definitions name type' → type = type'
  | _, _, .record found declared types, _, .record found' declared' types' => by
      have hd := Option.some.inj (found.symm.trans found')
      have hspecs := Option.some.inj (declared.symm.trans ((congrArg _ hd).trans declared'))
      rw [types.unique (hspecs ▸ types'), hd]

theorem SpecHasType.unique : ∀ {owner : String} {spec : TypeSpec} {type : TypeRef},
    SpecHasType definitions owner spec type →
      ∀ {type' : TypeRef}, SpecHasType definitions owner spec type' → type = type'
  | _, _, _, .scalar named, _, h' => by
      cases h' with
      | scalar named' => rw [Option.some.inj (named.symm.trans named')]
      | itself notScalar | unknown notScalar _ | declared notScalar _ _ =>
          exact absurd (named.symm.trans notScalar) (by simp)
  | _, _, _, .itself notScalar, _, h' => by
      cases h' with
      | scalar named => exact absurd (named.symm.trans notScalar) (by simp)
      | itself _ | unknown _ _ => rfl
      | declared _ ne _ => exact absurd rfl ne
  | _, _, _, .unknown notScalar undeclared, _, h' => by
      cases h' with
      | scalar named => exact absurd (named.symm.trans notScalar) (by simp)
      | itself _ | unknown _ _ => rfl
      | declared _ _ record => exact absurd record.mem_names undeclared
  | _, _, _, .declared notScalar ne record, _, h' => by
      cases h' with
      | scalar named => exact absurd (named.symm.trans notScalar) (by simp)
      | itself _ => exact absurd rfl ne
      | unknown _ undeclared => exact absurd record.mem_names undeclared
      | declared _ _ record' => exact record.unique record'
  | _, _, _, .list inside, _, .list inside' => by rw [inside.unique inside']
  | _, _, _, .nullable inside, _, .nullable inside' => by rw [inside.unique inside']

theorem PropertiesHaveTypes.unique : ∀ {owner : String} {specs : List (String × Option TypeSpec)}
    {properties : List (String × TypeRef)}, PropertiesHaveTypes definitions owner specs properties →
      ∀ {properties' : List (String × TypeRef)},
        PropertiesHaveTypes definitions owner specs properties' → properties = properties'
  | _, _, _, .nil, _, .nil => rfl
  | _, _, _, .cons head tail, _, .cons head' tail' => by
      rw [head.unique head', tail.unique tail']

end

/-! ## Soundness -/

theorem PropertiesHaveTypes.sound {specs : List (String × Option TypeSpec)} :
    ∀ {properties : List (String × TypeRef)},
      PropertiesHaveTypes definitions owner specs properties →
        ∀ property ∈ specs, property.2 ≠ none := by
  induction specs with
  | nil => simp
  | cons spec specs ih =>
      intro properties h
      cases h with
      | cons _ tail => exact List.forall_mem_cons.mpr ⟨by simp, ih tail⟩

/-- Only a sound definition makes its name stand for a type. -/
theorem NameHasType.isSound {type : TypeRef} {d : TypeDefinition}
    (h : NameHasType definitions name type) (found : find? name definitions = some d) :
    d.IsSound := by
  cases h with
  | record found' declared types =>
      obtain rfl := Option.some.inj (found'.symm.trans found)
      exact ⟨_, declared, types.sound⟩

theorem exists_ofSpec (h : ∀ name table, ∃ r, ofName free table name = .ok r) (spec : TypeSpec) :
    ∀ table, ∃ r, ofSpec free table spec = .ok r := by
  induction spec with
  | name name =>
      intro table
      cases hscalar : ScalarType.ofName? name with
      | some scalar => exact ⟨(.scalar scalar, table), by rw [ofSpec, hscalar]⟩
      | none =>
          rw [ofSpec_name_of_none hscalar]
          exact h name table
  | list element ih =>
      intro table
      obtain ⟨r, hr⟩ := ih table
      exact ⟨(.list r.1, r.2), ofSpec_list_eq_ok_iff.mpr ⟨r.1, hr, rfl⟩⟩
  | nullable inner ih =>
      intro table
      obtain ⟨r, hr⟩ := ih table
      exact ⟨(addNull r.1, r.2), ofSpec_nullable_eq_ok_iff.mpr ⟨r.1, hr, rfl⟩⟩

theorem exists_ofProperties (h : ∀ name table, ∃ r, ofName free table name = .ok r)
    {specs : List (String × Option TypeSpec)} (sound : ∀ property ∈ specs, property.2 ≠ none) :
    ∀ table, ∃ r, ofProperties owner free table specs = .ok r := by
  induction specs with
  | nil =>
      intro table
      exact ⟨([], table), by rw [ofProperties]⟩
  | cons property specs ih =>
      intro table
      obtain ⟨hproperty, hspecs⟩ := List.forall_mem_cons.mp sound
      obtain ⟨property, spec?⟩ := property
      obtain ⟨spec, rfl⟩ := Option.ne_none_iff_exists'.mp hproperty
      obtain ⟨r, hr⟩ := exists_ofSpec h spec table
      obtain ⟨rest, hrest⟩ := ih hspecs r.2
      exact ⟨((property, r.1) :: rest.1, rest.2),
        ofProperties_cons_eq_ok_iff.mpr ⟨r.1, r.2, rest.1, hr, hrest, rfl⟩⟩

/-- Where all definitions are sound, every name can be built. -/
theorem exists_ofName : ∀ {free : List TypeDefinition},
    (∀ name d, find? name free = some d → d.IsSound) →
      ∀ name table, ∃ r, ofName free table name = .ok r := by
  intro free sound name table
  cases hlookup : table.lookup name with
  | some type => exact ⟨(type, table), ofName_of_lookup hlookup⟩
  | none =>
      cases found : find? name free with
      | none => exact ⟨(.named name, table), ofName_of_not_mem hlookup (find?_eq_none_iff.mp found)⟩
      | some d =>
          obtain ⟨specs, hspecs, htexts⟩ := sound name d found
          have hfree : ∀ other table, ∃ r, ofName (without name free) table other = .ok r :=
            exists_ofName fun other d h => sound other d (find?_of_find?_without h)
          obtain ⟨r, hr⟩ : ∃ r, ofProperties name (without name free) table specs = .ok r :=
            exists_ofProperties hfree htexts table
          exact ⟨_, (ofName_eq_ok_iff hlookup found).mpr ⟨specs, r.1, r.2, hspecs, hr, rfl, rfl⟩⟩
termination_by free => free.length
decreasing_by exact length_without_lt found

end TypeTable

end BoundSql
