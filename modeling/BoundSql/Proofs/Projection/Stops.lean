import BoundSql.Proofs.Projection.SharedLists
import Mathlib.Data.List.ReduceOption

set_option autoImplicit false

/-!
# Projections that stop

A projection that stops half way is not taken back.  The lists keep what its places had offered
before the stop (`project_of_error`), and a later projection finds these labels taken.
-/

namespace BoundSql

namespace Projection

/-! ## The first stop -/

variable {cause : CompileError}

theorem stop?_eq_some_iff {vs : List Visit} :
    stop? vs = some cause ↔
      ∃ (places : List (Option Offer)) (after : List Visit),
        vs = places.map .ok ++ .error cause :: after := by
  induction vs with
  | nil => simp [stop?]
  | cons v vs ih =>
      cases v with
      | error other =>
          constructor
          · intro h
            obtain rfl := Option.some.inj h
            exact ⟨[], vs, rfl⟩
          · rintro ⟨_ | ⟨place, places⟩, after, h⟩
            · obtain ⟨h, -⟩ := List.cons.inj h
              rw [stop?, Except.error.inj h]
            · obtain ⟨h, -⟩ := List.cons.inj h
              cases h
      | ok o? =>
          rw [stop?, ih]
          constructor
          · rintro ⟨places, after, rfl⟩
            exact ⟨o? :: places, after, rfl⟩
          · rintro ⟨_ | ⟨place, places⟩, after, h⟩
            · obtain ⟨h, -⟩ := List.cons.inj h
              cases h
            · exact ⟨places, after, (List.cons.inj h).2⟩

theorem offered_of_stop (places : List (Option Offer)) (after : List Visit) :
    offered (places.map .ok ++ .error cause :: after) = places.reduceOption := by
  induction places with
  | nil => rfl
  | cons o? places ih =>
      rw [List.map_cons, List.cons_append, offered, ih]
      cases o? <;> simp

end Projection

namespace Gathered

open Projection

variable {options : Options} {rowType : TypeRef} {p : Expr} {g : Gathered} {cause : CompileError}

theorem ending_eq_error_iff :
    ending options rowType p = .error cause ↔ stop? (visitsOf options rowType p) = some cause := by
  unfold ending visitsOf
  cases p.asLambda? with
  | none => simp [stop?]
  | some f =>
      dsimp only
      cases stop? (visits options rowType f.body) <;> simp

theorem extend_eq_self_iff {items : List Item} : g.extend items = g ↔ items = [] := by
  constructor
  · intro h
    have hcolumns : g.columns ++ Projection.columns items = g.columns := congrArg Gathered.columns h
    exact List.map_eq_nil_iff.mp (List.append_right_eq_self.mp hcolumns)
  · rintro rfl
    exact extend_nil g

/-- Which labels are taken makes no difference to what a projection binds. -/
theorem values_gather_visitsOf (p : Expr) (taken taken' : List String) :
    values (gather taken (offered (visitsOf options rowType p))) =
      values (gather taken' (offered (visitsOf options rowType p))) := by
  rw [values_eq_map_bindings, values_eq_map_bindings, bindings_gather_visitsOf,
    bindings_gather_visitsOf]

/-- A projection ends in the same way and binds the same values whether or not items were added
before it.  It adds the same items if no container in it has one of their labels for its public
name. -/
theorem project_extend (items : List Item) (q : Expr) (g : Gathered) :
    ((g.extend items).project options rowType q).2 = (g.project options rowType q).2 ∧
      ∃ added added', ((g.extend items).project options rowType q).1 =
          (g.extend items).extend added ∧
        (g.project options rowType q).1 = g.extend added' ∧ values added = values added' ∧
        ((∀ o ∈ offered (visitsOf options rowType q), ∀ name ∈ items.map (·.label),
          o.name? = some name → name ∈ g.labels) → added = added') := by
  rw [project_eq, project_eq]
  refine ⟨rfl, _, _, rfl, rfl, values_gather_visitsOf q _ _,
    fun hfree => gather_congr fun o ho name hname => ?_⟩
  rw [labels_extend, List.mem_append]
  refine ⟨fun hmem => ?_, .inl⟩
  rcases hmem with hold | hnew
  · exact hold
  · exact hfree o ho name hnew hname

/-- A projection stops at an error after the places before it.

* The lists keep what these places add, so they are as before exactly if each of them offers nothing
  or is a container whose public name was a label already.
* A later projection ends in the same way and binds the same values as without the one that stopped.
  It adds the same columns if no container in it has a kept label for its public name. -/
theorem project_of_error (h : (g.project options rowType p).2 = .error cause) :
    ∃ (places : List (Option Offer)) (after : List Visit),
      visitsOf options rowType p = places.map .ok ++ .error cause :: after ∧
      (g.project options rowType p).1 = g.extend (gather g.labels places.reduceOption) ∧
      ((g.project options rowType p).1 = g ↔
        ∀ o ∈ places.reduceOption, ∃ name ∈ g.labels, o.name? = some name) ∧
      ∀ q, ((g.project options rowType p).1.project options rowType q).2 =
          (g.project options rowType q).2 ∧
        ∃ added added', ((g.project options rowType p).1.project options rowType q).1 =
            (g.project options rowType p).1.extend added ∧
          (g.project options rowType q).1 = g.extend added' ∧ values added = values added' ∧
          ((∀ o ∈ offered (visitsOf options rowType q),
            ∀ name ∈ (gather g.labels places.reduceOption).map (·.label),
              o.name? = some name → name ∈ g.labels) → added = added') := by
  have hending : ending options rowType p = .error cause := by rwa [project_eq] at h
  obtain ⟨places, after, hvisits⟩ := stop?_eq_some_iff.mp (ending_eq_error_iff.mp hending)
  have hkept : (g.project options rowType p).1 =
      g.extend (gather g.labels places.reduceOption) := by
    rw [project_eq, hvisits, offered_of_stop]
  refine ⟨places, after, hvisits, hkept, ?_, fun q => ?_⟩
  · rw [hkept, extend_eq_self_iff, gather_eq_nil_iff]
    exact forall₂_congr fun o _ => Offer.item?_eq_none_iff
  · rw [hkept]
    exact project_extend _ q g

section

/-- The number of a row in a container with the given public name. -/
def numberUnder (name : String) : Expr :=
  let row : Expr := .param ⟨"x", numberedType⟩
  let type : TypeRef := .named "NamedProperty"
  row.functionOver (.record type
    [(.of type "Name", .const (.text name)), (.of type "Value", row.access "Id")])

/-- The value and the number before the stop stay in the lists, and a container that has the label
of the number for its public name comes too late. -/
theorem project_of_error_halfProjection :
    let options := Options.default.withContainersNamed ["NamedProperty"]
    let g : Gathered := ⟨[⟨"Old", "?"⟩], [.integer 1]⟩
    let kept := (g.project options numberedType halfProjection).1
    kept = ⟨[⟨"Old", "?"⟩, ⟨"Fixed", "?"⟩, ⟨"Id", "Id"⟩], [.integer 1, .text "k"]⟩ ∧
      (∀ q, (kept.project options numberedType q).2 = (g.project options numberedType q).2) ∧
      (kept.project options numberedType (numberUnder "Id")).1 = kept ∧
      (g.project options numberedType (numberUnder "Id")).1 =
        ⟨[⟨"Old", "?"⟩, ⟨"Id", "Id"⟩], [.integer 1]⟩ := by
  intro options g kept
  have hstop : (g.project options numberedType halfProjection).2 =
      .error (.noSuchMember "missing") := rfl
  obtain ⟨places, after, -, -, -, hlater⟩ := project_of_error hstop
  exact ⟨rfl, fun q => (hlater q).1, rfl, rfl⟩

end

end Gathered

end BoundSql
