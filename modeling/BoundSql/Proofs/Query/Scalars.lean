import BoundSql.Proofs.Query.Placeholders
import BoundSql.Proofs.Value.Alike

set_option autoImplicit false

/-!
# Scalars in requests

A request sends the parameters of a statement as JSON.  A parameter is sent as a truth value, a
number or a text unless it is a list, an object or a float that is no number, and nothing keeps
these from being bound.  The main statement is `params_isScalar_iff`: all parameters of a request
are scalars exactly when all literals that the chain binds are.
-/

namespace BoundSql

/-- Is it a truth value, a number or a text?  A number is finite. -/
def Json.isScalar : Json → Bool
  | .boolean _ | .integer _ | .text _ => true
  | .float x => x.isFinite
  | .null | .array _ | .object _ => false

namespace Value

/-- Is it a plain value?  A float is one only if it is a number. -/
def isScalar : Value → Bool
  | .float x => x.isFinite
  | v => v.isPlain

/-- A value is sent as a scalar exactly when it is one. -/
theorem isScalar_toJson (v : Value) : v.toJson.isScalar = v.isScalar := by
  cases v with
  | float x =>
      unfold toJson isScalar
      cases hfinite : x.isFinite <;> simp [Json.isScalar, hfinite]
  | decimal d =>
      unfold toJson isScalar
      cases hfinite : d.toFloat.isFinite <;> simp [Json.isScalar, isPlain, hfinite]
  | _ => rfl

/-- Only null and floats without a number are sent as null. -/
theorem toJson_eq_null_iff {v : Value} :
    v.toJson = .null ↔ v = .null ∨ ∃ x, v = .float x ∧ x.isFinite = false := by
  cases v with
  | float x =>
      unfold toJson
      cases hfinite : x.isFinite <;> simp [hfinite]
  | decimal d =>
      unfold toJson
      cases d.toFloat.isFinite <;> simp
  | _ => simp [toJson]

/-- Only lists are sent as arrays, item by item. -/
theorem toJson_eq_array_iff {v : Value} {js : List Json} :
    v.toJson = .array js ↔ ∃ vs, v = .array vs ∧ vs.map toJson = js := by
  cases v with
  | float x =>
      unfold toJson
      cases x.isFinite <;> simp
  | decimal d =>
      unfold toJson
      cases d.toFloat.isFinite <;> simp
  | _ => simp [toJson, toJsonItems_eq_map]

/-- Only objects are sent as objects. -/
theorem toJson_eq_object_iff {v : Value} {js : List (String × Json)} :
    v.toJson = .object js ↔ ∃ vs, v = .object vs ∧ toJsonMembers vs = js := by
  cases v with
  | float x =>
      unfold toJson
      cases x.isFinite <;> simp
  | decimal d =>
      unfold toJson
      cases d.toFloat.isFinite <;> simp
  | _ => simp [toJson]

end Value

namespace Query

/-- The literals that the steps of a chain bind, those of the selected fields first. -/
def boundLiterals (options : Options) (rowType : TypeRef) (ss : List Step) : List Value :=
  ss.flatMap (selectedValues options rowType) ++ ss.flatMap (filteredValues rowType)

/-- A request sends every literal that the chain binds in its JSON form, in order.

* All of them are scalars exactly when all these literals are.
* Null is sent exactly for the floats that are no number, since null itself is not bound.
* An array is sent exactly for a list, and an object exactly for an object. -/
theorem params_isScalar_iff {options : Options} {chain : Expr} {s : Statement}
    (h : compile options chain = .ok s) :
    ∃ d ss sent, chain.root = .ok d ∧ steps chain = .ok ss ∧
      s.requestBody = .object [("query", .text s.sql), ("params", .array sent)] ∧
      sent = (boundLiterals options d.element ss).map Value.toJson ∧
      ((∀ j ∈ sent, j.isScalar = true) ↔
        ∀ v ∈ boundLiterals options d.element ss, v.isScalar = true) ∧
      (.null ∈ sent ↔ ∃ x, .float x ∈ boundLiterals options d.element ss ∧ x.isFinite = false) ∧
      ((∃ js, .array js ∈ sent) ↔ ∃ vs, .array vs ∈ boundLiterals options d.element ss) ∧
      ((∃ js, .object js ∈ sent) ↔ ∃ vs, .object vs ∈ boundLiterals options d.element ss) := by
  obtain ⟨d, hroot, hcompile⟩ := bind_eq_ok_iff.mp h
  obtain ⟨hnull, ss, hsteps, hparams⟩ := params_of_compileFor hcompile
  have hbound : s.params = boundLiterals options d.element ss := hparams
  refine ⟨d, ss, s.params.map Value.toJson, hroot, hsteps, rfl, by rw [hbound], ?_⟩
  rw [← hbound]
  refine ⟨?_, ?_, ?_, ?_⟩
  · simp only [List.forall_mem_map, Value.isScalar_toJson]
  · simp only [List.mem_map, Value.toJson_eq_null_iff]
    constructor
    · rintro ⟨v, hv, rfl | ⟨x, rfl, hfinite⟩⟩
      · exact absurd hv hnull
      · exact ⟨x, hv, hfinite⟩
    · rintro ⟨x, hx, hfinite⟩
      exact ⟨.float x, hx, .inr ⟨x, rfl, hfinite⟩⟩
  · simp only [List.mem_map, Value.toJson_eq_array_iff]
    constructor
    · rintro ⟨js, v, hv, vs, rfl, -⟩
      exact ⟨vs, hv⟩
    · rintro ⟨vs, hvs⟩
      exact ⟨_, .array vs, hvs, vs, rfl, rfl⟩
  · simp only [List.mem_map, Value.toJson_eq_object_iff]
    constructor
    · rintro ⟨js, v, hv, vs, rfl, -⟩
      exact ⟨vs, hv⟩
    · rintro ⟨vs, hvs⟩
      exact ⟨_, .object vs, hvs, vs, rfl, rfl⟩

/-- People with a number below a value and a name that equals a value. -/
def peopleBelow (bound name : Value) : Expr :=
  let row : Expr := .param ⟨"x", peopleDescriptor.element⟩
  (Expr.ofDescriptor peopleDescriptor).applyAll
    [(.filter, .predicateOver row (.binary .lessThan (row.access "Id") (.const bound))),
      (.filter, .predicateOver row (.binary .equal (row.access "Name") (.const name)))]

/-- A float that is no number is sent as null, and a list as an array. -/
theorem params_isScalar_iff_peopleBelow :
    ∃ s sent, compile Options.default
        (peopleBelow (.float (0.0 / 0.0)) (.array [.text "a", .null])) = .ok s ∧
      s.requestBody = .object [("query", .text s.sql), ("params", .array sent)] ∧
      .null ∈ sent ∧ (∃ js, .array js ∈ sent) ∧ ¬ ∀ j ∈ sent, j.isScalar = true := by
  have hcompile : compile Options.default
      (peopleBelow (.float (0.0 / 0.0)) (.array [.text "a", .null])) = .ok _ := rfl
  obtain ⟨d, ss, sent, hroot, hsteps, hbody, -, hscalar, hnull, harray, -⟩ :=
    params_isScalar_iff hcompile
  obtain rfl : peopleDescriptor = d := Except.ok.inj hroot
  have hliterals : boundLiterals Options.default peopleDescriptor.element ss =
      [.float (0.0 / 0.0), .array [.text "a", .null]] := by
    obtain rfl := Except.ok.inj hsteps
    rfl
  rw [hliterals] at hscalar hnull harray
  refine ⟨_, sent, hcompile, hbody, hnull.mpr ⟨0.0 / 0.0, by simp, by decide⟩,
    harray.mpr ⟨[.text "a", .null], by simp⟩, fun hall => ?_⟩
  exact absurd (hscalar.mp hall (.array [.text "a", .null]) (by simp)) (by decide)

end Query

end BoundSql
