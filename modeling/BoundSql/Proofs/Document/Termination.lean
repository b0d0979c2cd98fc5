import BoundSql.Proofs.Document.DeclaredTypes
import BoundSql.Proofs.Document.Requests
import BoundSql.Proofs.Document.Spellings

set_option autoImplicit false

/-!
# Building types comes to an end

However the types of a document refer to each other, the calls that build them come to an end
(`build_ends`).  Their outcomes are those of the build that takes a definition away for every name
that is being built: the set of these names tells which definitions are still free.
-/

namespace BoundSql

namespace TypeDefinition

/-- The definitions of the names that are not being built. -/
def besides (visiting : Finset String) (definitions : List TypeDefinition) : List TypeDefinition :=
  definitions.filter (·.name ∉ visiting)

variable {visiting : Finset String} {definitions : List TypeDefinition} {name : String}
  {d : TypeDefinition}

theorem besides_empty : besides ∅ definitions = definitions := by simp [besides]

theorem without_besides :
    without name (besides visiting definitions) = besides (insert name visiting) definitions := by
  simp only [without, besides, List.filter_filter]
  congr 1
  funext d
  by_cases hname : d.name = name <;> simp [hname]

theorem mem_names_besides :
    name ∈ names (besides visiting definitions) ↔ name ∈ names definitions ∧ name ∉ visiting := by
  simp only [names, besides, List.mem_map, List.mem_filter, decide_eq_true_eq]
  constructor
  · rintro ⟨d, ⟨hmem, hnot⟩, rfl⟩
    exact ⟨⟨d, hmem, rfl⟩, hnot⟩
  · rintro ⟨⟨d, hmem, rfl⟩, hnot⟩
    exact ⟨d, ⟨hmem, hnot⟩, rfl⟩

theorem find?_besides_of_not_mem (h : name ∉ visiting) :
    find? name (besides visiting definitions) = find? name definitions := by
  unfold find? besides
  rw [List.find?_filter]
  congr 1
  funext d
  by_cases hname : d.name = name <;> simp [hname, h]

theorem find?_of_find?_besides (h : find? name (besides visiting definitions) = some d) :
    find? name definitions = some d := by
  have hvisiting : name ∉ visiting := (mem_names_besides.mp (mem_names_of_find? h)).2
  rwa [find?_besides_of_not_mem hvisiting] at h

end TypeDefinition

namespace TypeTable

open TypeDefinition

variable {types : List (String × Json)} {state : BuildState} {name owner : String}
  {inner call : Request types}

/-! ## Results -/

variable {definitions : List TypeDefinition}

/-- The outcome of a build during which those names are being built. -/
def during {α : Type} (visiting : Finset String) (outcome : Except DocumentError (α × TypeTable)) :
    Except DocumentError (α × BuildState) :=
  outcome.map fun built => (built.1, ⟨visiting, built.2⟩)

/-- What the build of types from free definitions gives for a call. -/
def Request.built (definitions : List TypeDefinition) : Request types → Built
  | ⟨⟨visiting, table⟩, .name name _⟩ =>
    during visiting (ofName (besides visiting definitions) table name)
  | ⟨⟨visiting, table⟩, .text cs⟩ =>
    during visiting (ofSpec (besides visiting definitions) table (.read cs))

theorem properties_read_eq (name : String) (definition : List (String × Json)) :
    (TypeDefinition.read name definition).properties =
      (propertiesOf? definition).map readProperties := by
  simp only [TypeDefinition.read, propertiesOf?]
  cases definition.lookup "properties" with
  | none => rfl
  | some json => cases json <;> rfl

theorem eval_propertiesBody (properties : List (String × Json)) :
    ∀ state, (propertiesBody owner state properties).eval
        (Request.built definitions : Request types → Built) =
      during state.visiting (ofProperties owner (besides state.visiting definitions) state.table
        (readProperties properties)) := by
  induction properties with
  | nil =>
      intro state
      rw [propertiesBody, Calling.eval, readProperties, List.map_nil, ofProperties]
      rfl
  | cons head rest ih =>
      intro state
      obtain ⟨property, json⟩ := head
      rw [readProperties, List.map_cons, ← readProperties, propertiesBody]
      cases json.asText? with
      | none =>
          simp only [Calling.eval, Option.map_none, ofProperties]
          rfl
      | some text =>
          simp only [Calling.eval, Option.map_some, ofProperties, Request.built, TypeSpec.ofText]
          cases ofSpec (besides state.visiting definitions) state.table (.read text.toList) with
          | error e => rfl
          | ok built =>
              obtain ⟨type, table⟩ := built
              simp only [during, Except.map, Calling.eval_map, ih]
              cases ofProperties owner (besides state.visiting definitions) table
                (readProperties rest) <;> rfl

/-- A name that is being built stands for itself. -/
theorem ofName_of_visiting {visiting : Finset String} {table : TypeTable}
    (hlookup : table.lookup name = none) (hvisiting : name ∈ visiting) :
    ofName (besides visiting definitions) table name = .ok (.named name, table) :=
  ofName_of_not_mem hlookup fun hmem => (mem_names_besides.mp hmem).2 hvisiting

/-- A name that is not declared stands for itself, since the table has no record for it. -/
theorem ofName_of_undeclared {visiting : Finset String} {table : TypeTable}
    (records : HasRecords definitions table) (undeclared : name ∉ names definitions) :
    ofName (besides visiting definitions) table name = .ok (.named name, table) := by
  have hlookup : table.lookup name = none := by
    by_contra hne
    obtain ⟨type, hknown⟩ := Option.ne_none_iff_exists'.mp hne
    exact undeclared (records hknown).mem_names
  exact ofName_of_not_mem hlookup fun hmem => undeclared (mem_names_besides.mp hmem).1

theorem eval_nameBody (h : TypeDefinition.readAll (some (.object types)) = .ok definitions)
    (declared : name ∈ types.map (·.1)) :
    (nameBody state name).eval (Request.built definitions : Request types → Built) =
      during state.visiting (ofName (besides state.visiting definitions) state.table name) := by
  unfold nameBody
  cases hlookup : state.table.lookup name with
  | some type =>
      rw [Calling.eval, ofName_of_lookup hlookup]
      rfl
  | none =>
      by_cases hvisiting : name ∈ state.visiting
      · simp only [hvisiting, if_true, Calling.eval]
        rw [ofName_of_visiting hlookup hvisiting]
        rfl
      · rw [← Document.names_of_readAll h] at declared
        obtain ⟨d, found⟩ := exists_find?_of_mem_names declared
        obtain ⟨definition, hdefinition, rfl⟩ := Document.lookup_of_find? h found
        rw [← find?_besides_of_not_mem hvisiting] at found
        have hspecs := properties_read_eq name definition
        simp only [hvisiting, if_false, definitionOf, hdefinition]
        cases hproperties : propertiesOf? definition with
        | none =>
            rw [hproperties] at hspecs
            rw [Calling.eval, ofName_eq_error hlookup found hspecs]
            rfl
        | some properties =>
            rw [hproperties] at hspecs
            rw [Calling.eval_map, eval_propertiesBody, ofName_eq_map hlookup found hspecs,
              without_besides, BuildState.enter_visiting, BuildState.enter_table]
            cases ofProperties name (besides (insert name state.visiting) definitions)
                state.table (readProperties properties) with
            | error e => rfl
            | ok built => simp [during, Except.map, BuildState.leave, hvisiting]

theorem eval_textBody (h : TypeDefinition.readAll (some (.object types)) = .ok definitions)
    (records : HasRecords definitions state.table) (cs : List Char) :
    (textBody state cs).eval (Request.built definitions : Request types → Built) =
      during state.visiting
        (ofSpec (besides state.visiting definitions) state.table (.read cs)) := by
  unfold textBody
  cases hlist : TypeSpec.listElement? (Text.trim cs) with
  | some element =>
      rw [TypeSpec.read_eq_list hlist, ofSpec_list]
      simp only [Calling.eval, Request.built]
      cases ofSpec (besides state.visiting definitions) state.table (.read element) <;> rfl
  | none =>
      cases hnullable : TypeSpec.nullableInner? (Text.trim cs) with
      | some inner =>
          rw [TypeSpec.read_eq_nullable hlist hnullable, ofSpec_nullable]
          simp only [Calling.eval, Request.built]
          cases ofSpec (besides state.visiting definitions) state.table (.read inner) <;> rfl
      | none =>
          rw [TypeSpec.read_eq_name hlist hnullable]
          simp only
          generalize String.ofList (Text.trim cs) = name
          cases hscalar : ScalarType.ofName? name with
          | some scalar =>
              rw [ofSpec, hscalar]
              rfl
          | none =>
              rw [ofSpec_name_of_none hscalar]
              by_cases declared : name ∈ types.map (·.1)
              · simp only [declared, dif_pos]
                rfl
              · simp only [declared, dif_neg, not_false_eq_true, Calling.eval]
                rw [← Document.names_of_readAll h] at declared
                rw [ofName_of_undeclared records declared]
                rfl

/-- What a call does gives what the build gives if all calls give what the build gives. -/
theorem eval_body (h : TypeDefinition.readAll (some (.object types)) = .ok definitions)
    (records : HasRecords definitions call.state.table) :
    (body call).eval (Request.built definitions) = call.built definitions := by
  obtain ⟨state, asked⟩ := call
  cases asked with
  | name name declared => exact eval_nameBody h declared
  | text cs => exact eval_textBody h records cs

/-! ## Tables -/

theorem hasRecords_of_mem_propertiesBody (properties : List (String × Json)) :
    ∀ state, HasRecords definitions state.table →
      ∀ inner ∈ (propertiesBody owner state properties).calls
          (Request.built definitions : Request types → Built),
        HasRecords definitions inner.state.table := by
  induction properties with
  | nil =>
      intro state records inner h
      cases h
  | cons head rest ih =>
      intro state records
      obtain ⟨property, json⟩ := head
      rw [propertiesBody]
      cases json.asText? with
      | none =>
          intro inner h
          cases h
      | some text =>
          refine List.forall_mem_cons.mpr ⟨records, ?_⟩
          simp only [Request.built]
          cases hspec : ofSpec (besides state.visiting definitions) state.table
              (.read text.toList) with
          | error e =>
              intro inner h
              cases h
          | ok built =>
              obtain ⟨type, table⟩ := built
              have builds : BuildsRecords definitions (besides state.visiting definitions) :=
                ofName_grows fun _ _ => find?_of_find?_besides
              simp only [during, Except.map, Calling.calls_map]
              exact ih ⟨state.visiting, table⟩ (ofSpec_grows builds records hspec).1.records

/-- The table that a call is made with has records if that of the call around it has. -/
theorem hasRecords_of_mem_body (records : HasRecords definitions call.state.table)
    (h : inner ∈ (body call).calls (Request.built definitions)) :
    HasRecords definitions inner.state.table := by
  obtain ⟨state, asked⟩ := call
  cases asked with
  | name name declared =>
      simp only [body, nameBody] at h
      split at h
      · cases h
      · split_ifs at h
        · cases h
        · split at h
          · cases h
          · rw [Calling.calls_map] at h
            exact hasRecords_of_mem_propertiesBody _ (state.enter name) records inner h
  | text cs =>
      suffices hstate : inner.state = state by rwa [hstate]
      simp only [body, textBody] at h
      split at h
      · rw [List.mem_singleton.mp h]
      · split at h
        · rw [List.mem_singleton.mp h]
        · split at h
          · cases h
          · split_ifs at h
            · rw [List.mem_singleton.mp h]
            · cases h

/-! ## Every build -/

/-- Whatever types a document declares, whatever names are being built and whatever has been built
already:

* no chain of calls inside each other goes on for ever, and every call comes to just one outcome,
  after which the names that are being built are the same as before;
* if the definitions can be read and the table has records, as all tables of a build have, then the
  outcome is that of the build from the definitions of the names that are not being built;
* the call for a declared name is done at once, since the name is built or is being built, or all
  calls inside are made with this name being built too, and with no others but declared ones. -/
theorem build_ends (types : List (String × Json)) :
    WellFounded (Request.Inside : Request types → Request types → Prop) ∧
    (∀ call : Request types, ∃ outcome, Restores call.state outcome ∧
      ∀ other, call.Ends other ↔ other = outcome) ∧
    (∀ definitions, TypeDefinition.readAll (some (.object types)) = .ok definitions →
      ∀ call : Request types, HasRecords definitions call.state.table →
        ∀ outcome, call.Ends outcome ↔ outcome = call.built definitions) ∧
    ∀ state name (declared : name ∈ types.map (·.1)),
      let call : Request types := ⟨state, .name name declared⟩
      (∃ type, state.table.lookup name = some type ∧ body call = .done (.ok (type, state))) ∨
        (name ∈ state.visiting ∧ body call = .done (.ok (.named name, state))) ∨
        name ∉ state.visiting ∧ ∀ inner, Relation.TransGen Request.Inside inner call →
          insert name state.visiting ⊆ inner.state.visiting ∧
            inner.state.visiting ⊆ state.visiting ∪ declaredNames types := by
  refine ⟨wellFounded_inside, fun call => ?_, fun definitions h call records outcome => ?_,
    body_name_cases⟩
  · obtain ⟨outcome, hends⟩ := Calling.exists_ends wellFounded_inside call
    refine ⟨outcome, Request.Ends.restores hends, fun other => ⟨fun h => h.unique hends, ?_⟩⟩
    rintro rfl
    exact hends
  · have closed (call : Request types) (records : HasRecords definitions call.state.table) :
        ∀ inner ∈ (body call).calls (Request.built definitions),
          HasRecords definitions inner.state.table :=
      fun inner => hasRecords_of_mem_body records
    exact Calling.ends_iff wellFounded_inside closed (fun _ => eval_body h) records

section

/-- People and companies, which refer to themselves and to each other. -/
def nestedTypes : List (String × Json) :=
  [("Person", .object [("properties", .object
      [("Friends", .text "list<Person?>"), ("Employer", .text "Company")])]),
    ("Company", .object [("properties", .object [("Owner", .text "Person?")])])]

def nestedDefinitions : List TypeDefinition :=
  [⟨"Person", some [("Friends", some (.list (.nullable (.name "Person")))),
      ("Employer", some (.name "Company"))], []⟩,
    ⟨"Company", some [("Owner", some (.nullable (.name "Person")))], []⟩]

/-- A person with the company that is built inside. -/
def nestedPerson : TypeRef :=
  .record "Person" [("Friends", .list (.nullable (.named "Person"))),
    ("Employer", .record "Company" [("Owner", .nullable (.named "Person"))] [])] []

theorem ofText_owner : TypeSpec.ofText "Person?" = .nullable (.name "Person") := by
  have hname : TypeSpec.read "Person".toList = .name "Person" := TypeSpec.read_eq_name rfl rfl
  have hinner : TypeSpec.nullableInner? (Text.trim "Person?".toList) = some "Person".toList := rfl
  rw [TypeSpec.ofText, TypeSpec.read_eq_nullable rfl hinner, hname]

theorem ofText_friends :
    TypeSpec.ofText "list<Person?>" = .list (.nullable (.name "Person")) := by
  have helement : TypeSpec.listElement? (Text.trim "list<Person?>".toList) =
      some "Person?".toList := rfl
  rw [TypeSpec.ofText, TypeSpec.read_eq_list helement, ← TypeSpec.ofText, ofText_owner]

theorem readAll_nestedTypes :
    TypeDefinition.readAll (some (.object nestedTypes)) = .ok nestedDefinitions := by
  have hemployer : TypeSpec.ofText "Company" = .name "Company" := TypeSpec.read_eq_name rfl rfl
  rw [nestedDefinitions, ← ofText_friends, ← ofText_owner, ← hemployer]
  rfl

/-- Several people come out with all that is built on the way. -/
theorem build_ends_nested :
    TypeDefinition.readAll (some (.object nestedTypes)) = .ok nestedDefinitions ∧
      HasRecords nestedDefinitions [] ∧
      Request.Ends (⟨⟨∅, []⟩, .text "list<Person?>".toList⟩ : Request nestedTypes)
        (.ok (.list (.nullable nestedPerson), ⟨∅, [("Person", nestedPerson),
          ("Company", .record "Company" [("Owner", .nullable (.named "Person"))] [])]⟩)) := by
  have hbuilt : ofSpec nestedDefinitions [] (.list (.nullable (.name "Person"))) =
      .ok (.list (.nullable nestedPerson), [("Person", nestedPerson),
        ("Company", .record "Company" [("Owner", .nullable (.named "Person"))] [])]) := by
    cbv
  have hends := (build_ends nestedTypes).2.2.1 nestedDefinitions readAll_nestedTypes
  refine ⟨readAll_nestedTypes, hasRecords_nil, (hends _ hasRecords_nil _).mpr ?_⟩
  rw [Request.built, besides_empty, ← TypeSpec.ofText, ofText_friends, hbuilt]
  rfl

end

end TypeTable

end BoundSql
