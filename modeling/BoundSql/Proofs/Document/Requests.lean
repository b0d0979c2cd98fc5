import BoundSql.Document.TypeTable
import BoundSql.Proofs.Recursion
import Mathlib.Data.Finset.Card
import Mathlib.Data.Prod.Lex

set_option autoImplicit false

/-!
# Builds as calls of each other

Records and the types of texts can be built by calls of each other, with a set of the names that are
being built in place of the definitions that are still free.  A text gets longer again where a
record is entered, and the set gets smaller again where one is done.  But every call leaves the set
as it was (`Request.Ends.restores`), so calls inside each other go down, by the declared names that
are not being built and then by the length of the text (`wellFounded_inside`).
-/

namespace BoundSql

namespace TypeTable

/-! ## Calls -/

/-- What can be asked of a build: the record of a declared name, or the type that a text writes. -/
inductive Asked (types : List (String × Json)) where
  | name (name : String) (declared : name ∈ types.map (·.1))
  | text (cs : List Char)

/-- The names that are being built and the types that have been built. -/
structure BuildState where
  visiting : Finset String
  table : TypeTable

/-- A call: what is asked in which state. -/
structure Request (types : List (String × Json)) where
  state : BuildState
  asked : Asked types

/-- What comes out: a type and the state from then on. -/
abbrev Built := Except DocumentError (TypeRef × BuildState)

namespace BuildState

/-- A name is being built from here. -/
def enter (name : String) (state : BuildState) : BuildState :=
  { state with visiting := insert name state.visiting }

/-- A name has been built, and stands for that type. -/
def leave (name : String) (type : TypeRef) (state : BuildState) : BuildState where
  visiting := state.visiting.erase name
  table := (name, type) :: state.table

@[simp] theorem enter_visiting {name : String} {state : BuildState} :
    (state.enter name).visiting = insert name state.visiting := rfl

@[simp] theorem enter_table {name : String} {state : BuildState} :
    (state.enter name).table = state.table := rfl

@[simp] theorem leave_visiting {name : String} {type : TypeRef} {state : BuildState} :
    (state.leave name type).visiting = state.visiting.erase name := rfl

end BuildState

/-- The members of the definition of a name, none if there is no definition. -/
def definitionOf (types : List (String × Json)) (name : String) : List (String × Json) :=
  match types.lookup name with
  | some (.object definition) => definition
  | _ => []

/-- The properties that a definition declares, if they are an object. -/
def propertiesOf? (definition : List (String × Json)) : Option (List (String × Json)) :=
  match definition.lookup "properties" with
  | none => some []
  | some (.object properties) => some properties
  | some _ => none

variable {types : List (String × Json)}

/-- The types of the properties of the type `owner`, one text after another. -/
def propertiesBody (owner : String) : BuildState → List (String × Json) →
    Calling (Request types) Built (Except DocumentError (List (String × TypeRef) × BuildState))
  | state, [] => .done (.ok ([], state))
  | state, (property, json) :: rest =>
    match json.asText? with
    | none => .done (.error (.propertyNotText owner property))
    | some text =>
      .call ⟨state, .text text.toList⟩ fun
        | .error e => .done (.error e)
        | .ok (type, state) =>
          (propertiesBody owner state rest).map
            (·.map fun built => ((property, type) :: built.1, built.2))

/-- A name that is built or is being built is done at once.  Another one is being built as long as
its properties are. -/
def nameBody (state : BuildState) (name : String) : Calling (Request types) Built Built :=
  match state.table.lookup name with
  | some type => .done (.ok (type, state))
  | none =>
    if name ∈ state.visiting then .done (.ok (.named name, state))
    else
      match propertiesOf? (definitionOf types name) with
      | none => .done (.error (.propertiesNotObject name))
      | some properties =>
        (propertiesBody name (state.enter name) properties).map
          (·.map fun built =>
            let statics := (TypeDefinition.read name (definitionOf types name)).statics
            let type := TypeRef.record name built.1 statics
            (type, built.2.leave name type))

/-- A text is that of a list, of a nullable, of a scalar type, of a declared name or of another. -/
def textBody (state : BuildState) (cs : List Char) : Calling (Request types) Built Built :=
  match TypeSpec.listElement? (Text.trim cs) with
  | some element =>
    .call ⟨state, .text element⟩ fun built =>
      .done (built.map fun built => (.list built.1, built.2))
  | none =>
    match TypeSpec.nullableInner? (Text.trim cs) with
    | some inner =>
      .call ⟨state, .text inner⟩ fun built =>
        .done (built.map fun built => (addNull built.1, built.2))
    | none =>
      let name := String.ofList (Text.trim cs)
      match ScalarType.ofName? name with
      | some scalar => .done (.ok (.scalar scalar, state))
      | none =>
        if declared : name ∈ types.map (·.1) then .call ⟨state, .name name declared⟩ .done
        else .done (.ok (.named name, state))

/-- What is done on a call. -/
def body : Request types → Calling (Request types) Built Built
  | ⟨state, .name name _⟩ => nameBody state name
  | ⟨state, .text cs⟩ => textBody state cs

/-- What comes out in the end if all calls are worked on. -/
abbrev Request.Ends (call : Request types) (outcome : Built) : Prop :=
  Calling.Ends body (body call) outcome

/-- The one call is made while the other is worked on. -/
abbrev Request.Inside (inner outer : Request types) : Prop := Calling.Inside body inner outer

variable {state : BuildState} {name owner : String} {inner outer call : Request types}

/-! ## The names that are being built -/

/-- The names that are being built are the same in the end. -/
def Restores {α : Type} (state : BuildState) (outcome : Except DocumentError (α × BuildState)) :
    Prop :=
  ∀ built, outcome = .ok built → built.2.visiting = state.visiting

theorem restores_error {α : Type} {e : DocumentError} :
    Restores state (.error e : Except DocumentError (α × BuildState)) := by
  intro built h
  cases h

theorem restores_ok {α : Type} {built : α × BuildState}
    (h : built.2.visiting = state.visiting) : Restores state (.ok built) := by
  rintro _ ⟨⟩
  exact h

theorem Restores.map {α β : Type} {outcome : Except DocumentError (α × BuildState)} {f : α → β}
    (h : Restores state outcome) :
    Restores state (outcome.map fun built => (f built.1, built.2)) := by
  cases outcome with
  | error e => exact restores_error
  | ok built => exact restores_ok (h built rfl)

/-- The names that are being built are those of the call again when it comes to its outcome. -/
abbrev Answers (call : Request types) (outcome : Built) : Prop := Restores call.state outcome

theorem propertiesBody_restores (properties : List (String × Json)) : ∀ state,
    (propertiesBody owner state properties).Yields
      (Answers : Request types → Built → Prop) (Restores state) := by
  induction properties with
  | nil => exact fun state => restores_ok rfl
  | cons head rest ih =>
      intro state
      obtain ⟨property, json⟩ := head
      rw [propertiesBody]
      cases json.asText? with
      | none => exact restores_error
      | some text =>
          intro answer hanswer
          cases answer with
          | error e => exact restores_error
          | ok built =>
              obtain ⟨type, state'⟩ := built
              have hstate : state'.visiting = state.visiting := hanswer _ rfl
              refine (Calling.yields_map _).mpr ((ih state').mono fun outcome h => Restores.map ?_)
              exact fun built hbuilt => (h built hbuilt).trans hstate

theorem nameBody_restores (state : BuildState) (name : String) :
    (nameBody state name).Yields (Answers : Request types → Built → Prop) (Restores state) := by
  unfold nameBody
  split
  · exact restores_ok rfl
  · split_ifs with hvisiting
    · exact restores_ok rfl
    · split
      · exact restores_error
      · refine (Calling.yields_map _).mpr ((propertiesBody_restores _ _).mono fun outcome h => ?_)
        cases outcome with
        | error e => exact restores_error
        | ok built =>
            have hentered := h built rfl
            exact restores_ok (by simp [hentered, hvisiting])

theorem textBody_restores (state : BuildState) (cs : List Char) :
    (textBody state cs).Yields (Answers : Request types → Built → Prop) (Restores state) := by
  unfold textBody
  split
  · exact fun answer hanswer => hanswer.map
  · split
    · exact fun answer hanswer => hanswer.map
    · simp only
      split
      · exact restores_ok rfl
      · split_ifs
        · exact fun answer hanswer => hanswer
        · exact restores_ok rfl

theorem body_restores : ∀ call : Request types, (body call).Yields Answers (Answers call)
  | ⟨state, .name name _⟩ => nameBody_restores state name
  | ⟨state, .text cs⟩ => textBody_restores state cs

theorem Request.Ends.restores {outcome : Built} (h : call.Ends outcome) :
    Restores call.state outcome :=
  Calling.Ends.yields body_restores h (body_restores call)

/-! ## Calls inside each other -/

/-- A call that is made on the way to the other one's outcome. -/
inductive CalledFrom : Request types → Request types → Prop where
  | part {state : BuildState} {cs part : List Char} (shorter : part.length < cs.length) :
      CalledFrom ⟨state, .text part⟩ ⟨state, .text cs⟩
  | name {state : BuildState} {cs : List Char} {name : String}
      (declared : name ∈ types.map (·.1)) :
      CalledFrom ⟨state, .name name declared⟩ ⟨state, .text cs⟩
  | property {state state' : BuildState} {name : String} {cs : List Char}
      {declared : name ∈ types.map (·.1)} (fresh : name ∉ state.visiting)
      (entered : state'.visiting = insert name state.visiting) :
      CalledFrom ⟨state', .text cs⟩ ⟨state, .name name declared⟩

theorem exists_text_of_propertiesBody {properties : List (String × Json)} :
    ∀ {state : BuildState}, Calling.Makes body (propertiesBody owner state properties) inner →
      ∃ state' cs, inner = ⟨state', .text cs⟩ ∧ state'.visiting = state.visiting := by
  induction properties with
  | nil =>
      intro state h
      cases h
  | cons head rest ih =>
      intro state h
      obtain ⟨property, json⟩ := head
      rw [propertiesBody] at h
      split at h
      · cases h
      · cases h with
        | first => exact ⟨state, _, rfl, rfl⟩
        | @later _ _ _ answer inside made =>
            cases answer with
            | error e => cases made
            | ok built =>
                -- The text before has left the names as they were.
                have hstate := Request.Ends.restores inside _ rfl
                obtain ⟨state', cs, rfl, hvisiting⟩ := ih made.of_map
                exact ⟨state', cs, rfl, hvisiting.trans hstate⟩

theorem calledFrom_of_inside (h : inner.Inside outer) : CalledFrom inner outer := by
  obtain ⟨state, asked⟩ := outer
  cases asked with
  | name name declared =>
      simp only [Request.Inside, Calling.Inside, body, nameBody] at h
      split at h
      · cases h
      · split_ifs at h with hvisiting
        · cases h
        · split at h
          · cases h
          · obtain ⟨state', cs, rfl, hstate⟩ := exists_text_of_propertiesBody h.of_map
            exact .property hvisiting hstate
  | text cs =>
      have htrim := Text.length_trim_le cs
      simp only [Request.Inside, Calling.Inside, body, textBody] at h
      split at h
      · rename_i element hlist
        cases h with
        | first => exact .part ((TypeSpec.length_of_listElement? hlist).trans_le htrim)
        | later inside made => cases made
      · split at h
        · rename_i part hnullable
          cases h with
          | first => exact .part ((TypeSpec.length_of_nullableInner? hnullable).trans_le htrim)
          | later inside made => cases made
        · split at h
          · cases h
          · split_ifs at h with declared
            · cases h with
              | first => exact .name declared
              | later inside made => cases made
            · cases h

/-! ## The measure -/

/-- The names that a document declares. -/
def declaredNames (types : List (String × Json)) : Finset String := (types.map (·.1)).toFinset

/-- The declared names that are not being built, and then the length of the text. -/
def Request.rank (call : Request types) : ℕ × ℕ :=
  ((declaredNames types \ call.state.visiting).card,
    match call.asked with
    | .name _ _ => 0
    | .text cs => cs.length + 1)

theorem CalledFrom.rank_lt (h : CalledFrom inner outer) :
    Prod.Lex (· < ·) (· < ·) inner.rank outer.rank := by
  cases h with
  | part shorter => exact .right _ (Nat.succ_lt_succ shorter)
  | name declared => exact .right _ (Nat.succ_pos _)
  | @property state state' name cs declared fresh entered =>
      -- The text may be longer than anything before, but one more of the declared names is entered.
      refine .left _ _ (Finset.card_lt_card ?_)
      have hname : name ∈ declaredNames types \ state.visiting :=
        Finset.mem_sdiff.mpr ⟨List.mem_toFinset.mpr declared, fresh⟩
      rw [entered, Finset.sdiff_insert]
      exact Finset.erase_ssubset hname

/-- No chain of calls inside each other goes on for ever. -/
theorem wellFounded_inside : WellFounded (Request.Inside : Request types → Request types → Prop) :=
  Subrelation.wf (fun h => (calledFrom_of_inside h).rank_lt)
    (InvImage.wf Request.rank (Prod.lex Nat.lt_wfRel Nat.lt_wfRel).wf)

theorem CalledFrom.visiting_subset (h : CalledFrom inner outer) :
    outer.state.visiting ⊆ inner.state.visiting ∧
      inner.state.visiting ⊆ outer.state.visiting ∪ declaredNames types := by
  cases h with
  | part _ | name _ => exact ⟨subset_rfl, Finset.subset_union_left⟩
  | @property state state' name cs declared fresh entered =>
      simp only [entered]
      refine ⟨Finset.subset_insert _ _, Finset.insert_subset ?_ Finset.subset_union_left⟩
      exact Finset.mem_union_right _ (List.mem_toFinset.mpr declared)

/-- The names that are being built only become more, and only by declared ones. -/
theorem visiting_subset_of_reflTransGen (h : Relation.ReflTransGen Request.Inside inner outer) :
    outer.state.visiting ⊆ inner.state.visiting ∧
      inner.state.visiting ⊆ outer.state.visiting ∪ declaredNames types := by
  induction h with
  | refl => exact ⟨subset_rfl, Finset.subset_union_left⟩
  | tail _ hstep ih =>
      obtain ⟨hless, hdeclared⟩ := (calledFrom_of_inside hstep).visiting_subset
      refine ⟨hless.trans ih.1, ih.2.trans ?_⟩
      exact Finset.union_subset hdeclared Finset.subset_union_right

/-- All calls inside that for a name are made while it is being built. -/
theorem insert_subset_of_transGen {declared : name ∈ types.map (·.1)}
    (h : Relation.TransGen Request.Inside inner ⟨state, .name name declared⟩) :
    insert name state.visiting ⊆ inner.state.visiting := by
  obtain ⟨middle, hinner, hstep⟩ := Relation.TransGen.tail'_iff.mp h
  have hmiddle := (visiting_subset_of_reflTransGen hinner).1
  cases calledFrom_of_inside hstep with
  | property _ entered => exact entered ▸ hmiddle

/-- A declared name is done at once, or all calls inside are made with more names being built. -/
theorem body_name_cases (state : BuildState) (name : String) (declared : name ∈ types.map (·.1)) :
    let call : Request types := ⟨state, .name name declared⟩
    (∃ type, state.table.lookup name = some type ∧ body call = .done (.ok (type, state))) ∨
      (name ∈ state.visiting ∧ body call = .done (.ok (.named name, state))) ∨
      name ∉ state.visiting ∧ ∀ inner, Relation.TransGen Request.Inside inner call →
        insert name state.visiting ⊆ inner.state.visiting ∧
          inner.state.visiting ⊆ state.visiting ∪ declaredNames types := by
  intro call
  cases hlookup : state.table.lookup name with
  | some type => exact .inl ⟨type, rfl, by simp only [call, body, nameBody, hlookup]⟩
  | none =>
      by_cases hvisiting : name ∈ state.visiting
      · refine .inr (.inl ⟨hvisiting, ?_⟩)
        simp only [call, body, nameBody, hlookup, hvisiting, if_true]
      · refine .inr (.inr ⟨hvisiting, fun inner h => ?_⟩)
        exact ⟨insert_subset_of_transGen h, (visiting_subset_of_reflTransGen h.to_reflTransGen).2⟩

end TypeTable

end BoundSql
