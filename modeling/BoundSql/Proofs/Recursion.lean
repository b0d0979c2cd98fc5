import Mathlib.Logic.Relation

set_option autoImplicit false

/-!
# Recursion

A recursive function is given by what it does on one input, where its calls of itself are left open.
It ends on an input if that and all the calls that it comes to are done after finitely many steps.
What every input keeps as long as its calls keep it holds of all results (`Ends.yields`).  Where
every chain of calls inside each other breaks off, the function ends on all inputs (`exists_ends`),
and one that does the same where calls are answered by its own values gives the results
(`ends_iff`).
-/

namespace BoundSql

/-- A computation that may call a function from `ι` to `ρ`. -/
inductive Calling (ι ρ α : Type) where
  | done (result : α)
  | call (input : ι) (next : ρ → Calling ι ρ α)

namespace Calling

variable {ι ρ α β : Type}

/-- The computation with its result changed. -/
def map (f : α → β) : Calling ι ρ α → Calling ι ρ β
  | .done result => .done (f result)
  | .call input next => .call input fun answer => (next answer).map f

/-- The result if every call is answered by a value. -/
def eval (value : ι → ρ) : Calling ι ρ α → α
  | .done result => result
  | .call input next => (next (value input)).eval value

/-- The inputs of the calls, in order, if every call is answered by a value. -/
def calls (value : ι → ρ) : Calling ι ρ α → List ι
  | .done _ => []
  | .call input next => input :: (next (value input)).calls value

/-- The result is as said if every call is answered as said. -/
def Yields (answers : ι → ρ → Prop) (result : α → Prop) : Calling ι ρ α → Prop
  | .done r => result r
  | .call input next => ∀ answer, answers input answer → (next answer).Yields answers result

@[simp] theorem eval_map {f : α → β} {value : ι → ρ} (c : Calling ι ρ α) :
    (c.map f).eval value = f (c.eval value) := by
  induction c with
  | done result => rfl
  | call input next ih => exact ih (value input)

@[simp] theorem calls_map {f : α → β} {value : ι → ρ} (c : Calling ι ρ α) :
    (c.map f).calls value = c.calls value := by
  induction c with
  | done result => rfl
  | call input next ih => rw [map, calls, ih, calls]

theorem yields_map {f : α → β} {answers : ι → ρ → Prop} {result : β → Prop}
    (c : Calling ι ρ α) :
    (c.map f).Yields answers result ↔ c.Yields answers fun r => result (f r) := by
  induction c with
  | done r => exact .rfl
  | call input next ih => exact forall_congr' fun answer => imp_congr .rfl (ih answer)

theorem Yields.mono {answers : ι → ρ → Prop} {result result' : α → Prop} {c : Calling ι ρ α}
    (h : c.Yields answers result) (himp : ∀ r, result r → result' r) :
    c.Yields answers result' := by
  induction c with
  | done r => exact himp r h
  | call input next ih => exact fun answer hanswer => ih answer (h answer hanswer)

/-! ## Ends -/

/-- The computation comes to a result if its calls, and the calls inside them, are answered by the
results that `body` comes to on their inputs. -/
inductive Ends (body : ι → Calling ι ρ ρ) : Calling ι ρ ρ → ρ → Prop where
  | done (result : ρ) : Ends body (.done result) result
  | call {input : ι} {next : ρ → Calling ι ρ ρ} {answer result : ρ}
      (inside : Ends body (body input) answer) (rest : Ends body (next answer) result) :
      Ends body (.call input next) result

/-- The computation comes to a call with that input. -/
inductive Makes (body : ι → Calling ι ρ ρ) : Calling ι ρ α → ι → Prop where
  | first {input : ι} {next : ρ → Calling ι ρ α} : Makes body (.call input next) input
  | later {input other : ι} {next : ρ → Calling ι ρ α} {answer : ρ}
      (inside : Ends body (body input) answer) (made : Makes body (next answer) other) :
      Makes body (.call input next) other

/-- The one input is called with while the other is worked on. -/
def Inside (body : ι → Calling ι ρ ρ) (inner outer : ι) : Prop := Makes body (body outer) inner

variable {body : ι → Calling ι ρ ρ} {c : Calling ι ρ ρ} {input : ι} {result : ρ}

theorem Makes.of_map {f : α → β} {c : Calling ι ρ α} (h : Makes body (c.map f) input) :
    Makes body c input := by
  induction c with
  | done r => cases h
  | call first next ih =>
      cases h with
      | first => exact .first
      | later inside made => exact .later inside (ih _ made)

theorem Ends.unique (h : Ends body c result) :
    ∀ {other : ρ}, Ends body c other → result = other := by
  induction h with
  | done result =>
      intro other h'
      cases h'
      rfl
  | call _ _ ihInside ihRest =>
      intro other h'
      cases h' with
      | call inside' rest' =>
          obtain rfl := ihInside inside'
          exact ihRest rest'

/-- What every input keeps if the calls keep it holds of the results. -/
theorem Ends.yields {answers : ι → ρ → Prop}
    (keeps : ∀ input, (body input).Yields answers (answers input)) (h : Ends body c result) :
    ∀ {P : ρ → Prop}, c.Yields answers P → P result := by
  induction h with
  | done result => exact fun hyields => hyields
  | @call input next answer result _ _ ihInside ihRest =>
      intro P hyields
      exact ihRest (hyields answer (ihInside (keeps input)))

/-! ## Well-founded calls -/

theorem exists_ends_of_makes
    (h : ∀ input, Makes body c input → ∃ answer, Ends body (body input) answer) :
    ∃ result, Ends body c result := by
  induction c with
  | done result => exact ⟨result, .done result⟩
  | call input next ih =>
      obtain ⟨answer, inside⟩ := h input .first
      obtain ⟨result, rest⟩ := ih answer fun other made => h other (.later inside made)
      exact ⟨result, .call inside rest⟩

/-- Where chains of calls break off, every input comes to a result. -/
theorem exists_ends (finite : WellFounded (Inside body)) (input : ι) :
    ∃ result, Ends body (body input) result := by
  induction input using finite.induction with
  | _ input ih => exact exists_ends_of_makes ih

variable {value : ι → ρ} {P : ι → Prop}

theorem ends_eval (h : ∀ input, Makes body c input → P input → Ends body (body input) (value input))
    (hcalls : ∀ input ∈ c.calls value, P input) : Ends body c (c.eval value) := by
  induction c with
  | done result => exact .done result
  | call input next ih =>
      obtain ⟨hinput, hrest⟩ := List.forall_mem_cons.mp hcalls
      have inside := h input .first hinput
      exact .call inside (ih _ (fun other made => h other (.later inside made)) hrest)

/-- A function that does what `body` does, on inputs that only such inputs are called from, gives
the results. -/
theorem ends_iff (finite : WellFounded (Inside body))
    (closed : ∀ input, P input → ∀ inner ∈ (body input).calls value, P inner)
    (fixed : ∀ input, P input → (body input).eval value = value input) (h : P input) :
    Ends body (body input) result ↔ result = value input := by
  -- The induction is on the calls inside each other, which are all made with inputs of this kind.
  have hvalue : ∀ input, P input → Ends body (body input) (value input) := by
    intro input
    induction input using finite.induction with
    | _ input ih =>
        intro h
        rw [← fixed input h]
        exact ends_eval ih (closed input h)
  constructor
  · intro hends
    exact hends.unique (hvalue input h)
  · rintro rfl
    exact hvalue input h

end Calling

end BoundSql
