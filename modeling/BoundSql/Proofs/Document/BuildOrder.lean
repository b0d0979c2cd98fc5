import BoundSql.Proofs.Document.TypeRules
import BoundSql.Proofs.Outcome
import Mathlib

set_option autoImplicit false

/-!
# The order of building types

Types are built when their names first come up, and a type that is being built stands for its name
alone in the types that it needs.  Where no two types need each other, the only reference of that
kind is the one of a type to itself, so the table of a build holds just what its names stand for.
All orders in which the names can come up give the same types, or all of them fail
(`agree_buildInOrder`).
-/

namespace BoundSql

/-- The name that a specification is made of, without its lists and question marks. -/
def TypeSpec.base : TypeSpec → String
  | .name text => text
  | .list element => element.base
  | .nullable inner => inner.base

namespace TypeDefinition

/-- The type `a` has a property whose specification is made of the declared name `b`. -/
def Refers (definitions : List TypeDefinition) (a b : String) : Prop :=
  ∃ d specs property spec, find? a definitions = some d ∧ d.properties = some specs ∧
    (property, some spec) ∈ specs ∧ spec.base = b ∧ b ∈ names definitions

/-- No two types refer to each other, at once or through others.  A type may refer to itself. -/
def NoMutual (definitions : List TypeDefinition) : Prop :=
  ∀ a b, a ≠ b → Relation.TransGen (Refers definitions) a b →
    ¬ Relation.TransGen (Refers definitions) b a

end TypeDefinition

namespace TypeTable

open TypeDefinition Relation

variable {definitions free : List TypeDefinition} {table table' : TypeTable} {owner name : String}

/-! ## In the middle of a build -/

/-- The names that are being built: those that are declared and no longer free. -/
def Building (definitions free : List TypeDefinition) (name : String) : Prop :=
  name ∈ names definitions ∧ name ∉ names free

theorem building_without_iff (h : name ∈ names definitions) {other : String} :
    Building definitions (without name free) other ↔
      other = name ∨ Building definitions free other := by
  unfold Building
  simp only [← find?_eq_none_iff]
  by_cases hname : other = name
  · simp [hname, h, find?_without_self]
  · simp [hname, find?_without_of_ne hname]

/-- In the middle of a build the table holds what its names stand for, and nothing for the names
that are being built. -/
structure Underway (definitions free : List TypeDefinition) (table : TypeTable) : Prop where
  kept : ∀ {name d}, find? name free = some d → find? name definitions = some d
  holds : ∀ {name type}, table.lookup name = some type → NameHasType definitions name type
  waiting : ∀ {name}, Building definitions free name → table.lookup name = none

namespace Underway

theorem start : Underway definitions definitions [] where
  kept := id
  holds h := by cases h
  waiting h := absurd h.1 h.2

theorem lookup_of_not_mem (h : Underway definitions free table) (hname : name ∉ names definitions) :
    table.lookup name = none :=
  Option.eq_none_iff_forall_not_mem.mpr fun _ hknown => hname (h.holds hknown).mem_names

theorem mem_names (h : Underway definitions free table) (hname : name ∈ names free) :
    name ∈ names definitions := by
  obtain ⟨d, found⟩ := exists_find?_of_mem_names hname
  exact mem_names_of_find? (h.kept found)

/-- A type whose name is free can be begun. -/
theorem enter (h : Underway definitions free table) (hname : name ∈ names free)
    (hlookup : table.lookup name = none) : Underway definitions (without name free) table where
  kept found := h.kept (find?_of_find?_without found)
  holds := h.holds
  waiting hbuilding := by
    rcases (building_without_iff (h.mem_names hname)).mp hbuilding with rfl | hbuilding
    · exact hlookup
    · exact h.waiting hbuilding

/-- When a type is done, its name has a record in the table. -/
theorem leave {type : TypeRef} (h : Underway definitions free table) (hname : name ∈ names free)
    (hinside : Underway definitions (without name free) table')
    (record : NameHasType definitions name type) :
    Underway definitions free ((name, type) :: table') where
  kept := h.kept
  holds {other known} hknown := by
    by_cases hother : other = name
    · subst hother
      rw [List.lookup_cons_self] at hknown
      obtain rfl := Option.some.inj hknown
      exact record
    · rw [List.lookup_cons, beq_eq_false_iff_ne.mpr hother] at hknown
      exact hinside.holds hknown
  waiting {other} hbuilding := by
    have hother : other ≠ name := fun heq => hbuilding.2 (heq ▸ hname)
    rw [List.lookup_cons, beq_eq_false_iff_ne.mpr hother]
    exact hinside.waiting ((building_without_iff (h.mem_names hname)).mpr (.inr hbuilding))

end Underway

/-- A build goes on with a table that is as good and leaves out no name of the one before. -/
structure GoesOn (definitions free : List TypeDefinition) (table table' : TypeTable) : Prop where
  underway : Underway definitions free table'
  keeps : ∀ {name}, table.lookup name ≠ none → table'.lookup name ≠ none

theorem GoesOn.trans {table'' : TypeTable} (h : GoesOn definitions free table table')
    (h' : GoesOn definitions free table' table'') : GoesOn definitions free table table'' :=
  ⟨h'.underway, fun hname => h'.keeps (h.keeps hname)⟩

/-! ## The types that a build gives -/

/-- A declared name that is not being built, and to which everything in the making leads, gives what
it stands for, and the table has it from then on. -/
def BuildsNames (definitions free : List TypeDefinition) : Prop :=
  ∀ ⦃table table' : TypeTable⦄ ⦃name : String⦄ ⦃type : TypeRef⦄,
    Underway definitions free table → name ∈ names definitions → ¬ Building definitions free name →
    (∀ other, Building definitions free other → TransGen (Refers definitions) other name) →
    ofName free table name = .ok (type, table') →
    GoesOn definitions free table table' ∧ table'.lookup name = some type

section

variable (noMutual : NoMutual definitions) (builds : BuildsNames definitions free)
  (building : Building definitions free owner)
  (leads : ∀ other, Building definitions free other →
    ReflTransGen (Refers definitions) other owner)

include noMutual leads in
/-- A type that is being built is referred to by the innermost one only if it is that one. -/
theorem not_building_of_refers (hne : name ≠ owner) (refers : Refers definitions owner name) :
    ¬ Building definitions free name := fun hbuilding =>
  have hback := (reflTransGen_iff_eq_or_transGen.mp (leads name hbuilding)).resolve_left hne.symm
  noMutual owner name hne.symm (.single refers) hback

include noMutual builds building leads

theorem ofSpec_builds {spec : TypeSpec} {type : TypeRef}
    (underway : Underway definitions free table)
    (refers : spec.base ∈ names definitions → Refers definitions owner spec.base)
    (h : ofSpec free table spec = .ok (type, table')) :
    GoesOn definitions free table table' ∧ SpecHasType definitions owner spec type := by
  induction spec generalizing type with
  | name name =>
      cases hscalar : ScalarType.ofName? name with
      | some scalar =>
          rw [ofSpec, hscalar] at h
          cases h
          exact ⟨⟨underway, id⟩, .scalar hscalar⟩
      | none =>
          rw [ofSpec_name_of_none hscalar] at h
          by_cases hdeclared : name ∈ names definitions
          · by_cases hown : name = owner
            · subst hown
              rw [ofName_of_not_mem (underway.waiting building) building.2] at h
              cases h
              exact ⟨⟨underway, id⟩, .itself hscalar⟩
            · have hrefers := refers hdeclared
              obtain ⟨hgoes, hknown⟩ := builds underway hdeclared
                (not_building_of_refers noMutual leads hown hrefers)
                (fun other hother => .tail' (leads other hother) hrefers) h
              exact ⟨hgoes, .declared hscalar hown (hgoes.underway.holds hknown)⟩
          · have hfree : name ∉ names free := fun hmem => hdeclared (underway.mem_names hmem)
            rw [ofName_of_not_mem (underway.lookup_of_not_mem hdeclared) hfree] at h
            cases h
            exact ⟨⟨underway, id⟩, .unknown hscalar hdeclared⟩
  | list element ih =>
      obtain ⟨inside, hinside, rfl⟩ := ofSpec_list_eq_ok_iff.mp h
      obtain ⟨hgoes, htype⟩ := ih refers hinside
      exact ⟨hgoes, .list htype⟩
  | nullable inner ih =>
      obtain ⟨inside, hinside, rfl⟩ := ofSpec_nullable_eq_ok_iff.mp h
      obtain ⟨hgoes, htype⟩ := ih refers hinside
      exact ⟨hgoes, .nullable htype⟩

theorem ofProperties_builds {specs : List (String × Option TypeSpec)} :
    ∀ {table : TypeTable} {properties : List (String × TypeRef)}, Underway definitions free table →
      (∀ property spec, (property, some spec) ∈ specs → spec.base ∈ names definitions →
        Refers definitions owner spec.base) →
      ofProperties owner free table specs = .ok (properties, table') →
      GoesOn definitions free table table' ∧
        PropertiesHaveTypes definitions owner specs properties := by
  induction specs with
  | nil =>
      intro table properties underway _ h
      rw [ofProperties] at h
      cases h
      exact ⟨⟨underway, id⟩, .nil⟩
  | cons head specs ih =>
      intro table properties underway refers h
      obtain ⟨property, _ | spec⟩ := head
      · rw [ofProperties] at h
        cases h
      · obtain ⟨type, mid, rest, hspec, hrest, rfl⟩ := ofProperties_cons_eq_ok_iff.mp h
        obtain ⟨hgoes, htype⟩ := ofSpec_builds noMutual builds building leads underway
          (refers property spec List.mem_cons_self) hspec
        obtain ⟨hgoes', htypes⟩ := ih hgoes.underway
          (fun property spec hmem => refers property spec (List.mem_cons_of_mem _ hmem)) hrest
        exact ⟨hgoes.trans hgoes', .cons htype htypes⟩

end

/-- Where no two types need each other, every build of a name gives what the name stands for. -/
theorem ofName_builds (noMutual : NoMutual definitions) : ∀ free, BuildsNames definitions free := by
  -- The induction is on the free definitions: the properties of a record are built without its own.
  intro free table table' name type underway hdeclared hnot leads h
  have hmem : name ∈ names free := by
    by_contra hfree
    exact hnot ⟨hdeclared, hfree⟩
  obtain ⟨d, found⟩ := exists_find?_of_mem_names hmem
  cases hlookup : table.lookup name with
  | some known =>
      rw [ofName_of_lookup hlookup] at h
      cases h
      exact ⟨⟨underway, id⟩, hlookup⟩
  | none =>
      obtain ⟨specs, properties, mid, hspecs, hproperties, rfl, rfl⟩ :=
        (ofName_eq_ok_iff hlookup found).mp h
      have hfound := underway.kept found
      have hbuilding {other : String} : Building definitions (without name free) other ↔
          other = name ∨ Building definitions free other := building_without_iff hdeclared
      have hleads : ∀ other, Building definitions (without name free) other →
          ReflTransGen (Refers definitions) other name := fun other hother => by
        rcases hbuilding.mp hother with rfl | hother
        · exact .refl
        · exact (leads other hother).to_reflTransGen
      obtain ⟨hgoes, htypes⟩ := ofProperties_builds noMutual
        (ofName_builds noMutual (without name free)) (hbuilding.mpr (.inl rfl)) hleads
        (underway.enter hmem hlookup)
        (fun property spec hspec hbase =>
          ⟨d, specs, property, spec, hfound, hspecs, hspec, rfl, hbase⟩) hproperties
      have hleave := underway.leave hmem hgoes.underway (.record hfound hspecs htypes)
      exact ⟨⟨hleave, fun hother => lookup_cons_ne_none (hgoes.keeps hother)⟩,
        List.lookup_cons_self⟩
termination_by free => free.length
decreasing_by exact length_without_lt found

/-! ## All types -/

/-- A run over declared names fills the table with what they stand for. -/
theorem goesOn_foldlM (noMutual : NoMutual definitions) {order : List String} :
    ∀ {table : TypeTable}, Underway definitions definitions table →
      (∀ name ∈ order, name ∈ names definitions) →
      order.foldlM (fun table name => (·.2) <$> ofName definitions table name) table = .ok table' →
      GoesOn definitions definitions table table' ∧ ∀ name ∈ order, table'.lookup name ≠ none := by
  induction order with
  | nil =>
      intro table underway _ h
      cases h
      exact ⟨⟨underway, id⟩, by simp⟩
  | cons name order ih =>
      intro table underway declared h
      obtain ⟨hname, horder⟩ := List.forall_mem_cons.mp declared
      obtain ⟨type, mid, hbuilt, h⟩ := foldlM_ofName_cons_eq_ok_iff.mp h
      obtain ⟨hgoes, hknown⟩ := ofName_builds noMutual definitions underway hname
        (fun hbuilding => hbuilding.2 hbuilding.1)
        (fun other hbuilding => absurd hbuilding.1 hbuilding.2) hbuilt
      obtain ⟨hgoes', hall⟩ := ih hgoes.underway horder h
      exact ⟨hgoes.trans hgoes',
        List.forall_mem_cons.mpr ⟨hgoes'.keeps (by simp [hknown]), hall⟩⟩

variable {order order' : List String}

theorem exists_lookup_of_buildInOrder (noMutual : NoMutual definitions)
    (horder : order.Perm (names definitions)) (h : buildInOrder definitions order = .ok table)
    (hname : name ∈ names definitions) : ∃ type, table.lookup name = some type := by
  obtain ⟨-, hall⟩ := goesOn_foldlM noMutual .start (fun name => horder.mem_iff.mp) h
  exact Option.ne_none_iff_exists'.mp (hall name (horder.mem_iff.mpr hname))

/-- The table of all types holds just what the declared names stand for. -/
theorem lookup_buildInOrder_eq_some_iff (noMutual : NoMutual definitions)
    (horder : order.Perm (names definitions)) (h : buildInOrder definitions order = .ok table)
    {type : TypeRef} : table.lookup name = some type ↔ NameHasType definitions name type := by
  obtain ⟨hgoes, -⟩ := goesOn_foldlM noMutual .start (fun name => horder.mem_iff.mp) h
  refine ⟨hgoes.underway.holds, fun htype => ?_⟩
  obtain ⟨known, hknown⟩ := exists_lookup_of_buildInOrder noMutual horder h htype.mem_names
  rw [hknown, (hgoes.underway.holds hknown).unique htype]

theorem exists_buildInOrder (sound : ∀ name d, find? name definitions = some d → d.IsSound)
    (order : List String) : ∃ table, buildInOrder definitions order = .ok table := by
  suffices h : ∀ table, ∃ table', order.foldlM
      (fun table name => (·.2) <$> ofName definitions table name) table = .ok table' from h []
  induction order with
  | nil => exact fun table => ⟨table, rfl⟩
  | cons name order ih =>
      intro table
      obtain ⟨r, hr⟩ := exists_ofName sound name table
      obtain ⟨table', h⟩ := ih r.2
      exact ⟨table', foldlM_ofName_cons_eq_ok_iff.mpr ⟨r.1, r.2, hr, h⟩⟩

/-- Types of which no two need each other can be built exactly when all definitions are sound. -/
theorem exists_buildInOrder_iff (noMutual : NoMutual definitions)
    (horder : order.Perm (names definitions)) :
    (∃ table, buildInOrder definitions order = .ok table) ↔
      ∀ name d, find? name definitions = some d → d.IsSound := by
  refine ⟨fun ⟨table, h⟩ name d found => ?_, fun sound => exists_buildInOrder sound order⟩
  obtain ⟨type, hknown⟩ :=
    exists_lookup_of_buildInOrder noMutual horder h (mem_names_of_find? found)
  exact ((lookup_buildInOrder_eq_some_iff noMutual horder h).mp hknown).isSound found

/-- Where no two types need each other, all orders of the declared names fail, or all give the same
type for every name, which for a declared name is the record that it stands for. -/
theorem agree_buildInOrder (noMutual : NoMutual definitions)
    (horder : order.Perm (names definitions)) (horder' : order'.Perm (names definitions)) :
    Agree (fun table table' : TypeTable =>
        (∀ name, table.lookup name = table'.lookup name) ∧
          ∀ name ∈ names definitions, ∃ type, table.lookup name = some type ∧
            NameHasType definitions name type)
      (buildInOrder definitions order) (buildInOrder definitions order') := by
  have hiff := (exists_buildInOrder_iff noMutual horder).trans
    (exists_buildInOrder_iff noMutual horder').symm
  cases h : buildInOrder definitions order with
  | error e =>
      cases h' : buildInOrder definitions order' with
      | error e' => exact .error e e'
      | ok table' =>
          obtain ⟨table, hok⟩ := hiff.mpr ⟨table', h'⟩
          cases h.symm.trans hok
  | ok table =>
      obtain ⟨table', h'⟩ := hiff.mp ⟨table, h⟩
      rw [h']
      refine .ok ⟨fun name => Option.ext fun type => ?_, fun name hname => ?_⟩
      · exact (lookup_buildInOrder_eq_some_iff noMutual horder h).trans
          (lookup_buildInOrder_eq_some_iff noMutual horder' h').symm
      · obtain ⟨type, hknown⟩ := exists_lookup_of_buildInOrder noMutual horder h hname
        exact ⟨type, hknown, (lookup_buildInOrder_eq_some_iff noMutual horder h).mp hknown⟩

section

/-- People with a manager among them, and homes. -/
def peopleTypes : List TypeDefinition :=
  [⟨"Person", some [("Manager", some (.nullable (.name "Person"))),
      ("Homes", some (.list (.name "Address")))], []⟩,
    ⟨"Address", some [("City", some (.name "string"))], []⟩]

/-- The types of people and addresses. -/
def peopleTable : TypeTable :=
  let address : TypeRef := .record "Address" [("City", .string)] []
  [("Person", .record "Person" [("Manager", .nullable (.named "Person")), ("Homes", .list address)]
      []),
    ("Address", address)]

theorem noMutual_peopleTypes : NoMutual peopleTypes := by
  have hperson {a b : String} (h : Refers peopleTypes a b) : a = "Person" := by
    obtain ⟨d, specs, property, spec, found, hspecs, hmem, rfl, hdeclared⟩ := h
    have hname : d.name = a := by simpa using List.find?_some found
    rw [← hname]
    rcases List.mem_pair.mp (List.mem_of_find?_eq_some found) with rfl | rfl
    · rfl
    · obtain rfl := Option.some.inj hspecs
      obtain ⟨rfl, rfl⟩ : property = "City" ∧ spec = .name "string" := by simpa using hmem
      exact absurd hdeclared (by decide)
  have hsource {a b : String} (h : TransGen (Refers peopleTypes) a b) : a = "Person" := by
    obtain ⟨_, hab, -⟩ := TransGen.head'_iff.mp h
    exact hperson hab
  exact fun a b hne hab hba => hne ((hsource hab).trans (hsource hba).symm)

theorem agree_buildInOrder_peopleTypes :
    NoMutual peopleTypes ∧ ["Person", "Address"].Perm (names peopleTypes) ∧
      ["Address", "Person"].Perm (names peopleTypes) ∧
      ∃ table, buildInOrder peopleTypes ["Address", "Person"] = .ok table ∧
        ∀ name, peopleTable.lookup name = table.lookup name := by
  have horder : ["Person", "Address"].Perm (names peopleTypes) := .refl _
  have horder' : ["Address", "Person"].Perm (names peopleTypes) := .swap _ _ _
  have hbuild : buildInOrder peopleTypes ["Person", "Address"] = .ok peopleTable := by cbv
  have hagree := agree_buildInOrder noMutual_peopleTypes horder horder'
  rw [hbuild] at hagree
  generalize buildInOrder peopleTypes ["Address", "Person"] = built at hagree
  cases hagree with
  | ok related => exact ⟨noMutual_peopleTypes, horder, horder', _, rfl, related.1⟩

end

end TypeTable

end BoundSql
