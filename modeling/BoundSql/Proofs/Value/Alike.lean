import BoundSql.Proofs.Outcome
import BoundSql.Value.Basic
import Mathlib.Data.List.Forall2

set_option autoImplicit false

/-!
# Alike values

Two values are alike when they differ only in plain values: both are null, or both are plain, or
both are arrays or objects of the same shape whose items or members are alike.
-/

namespace BoundSql.Value

/-- Is it a plain value: neither null nor a container of values? -/
def isPlain : Value → Bool
  | .null | .array _ | .object _ => false
  | _ => true

/-- The values differ only in the plain values that they hold. -/
inductive Alike : Value → Value → Prop where
  | null : Alike .null .null
  | array {items others : List Value} (length : items.length = others.length)
      (alike : ∀ v w, (v, w) ∈ items.zip others → Alike v w) : Alike (.array items) (.array others)
  /-- Objects with members of the same names, and alike members under each name. -/
  | object {members others : List (String × Value)}
      (keys : ∀ name, (members.lookup name).isSome = (others.lookup name).isSome)
      (alike : ∀ name v w, members.lookup name = some v → others.lookup name = some w →
        Alike v w) : Alike (.object members) (.object others)
  | plain {v w : Value} (left : v.isPlain = true) (right : w.isPlain = true) : Alike v w

/-- A value is alike itself. -/
theorem Alike.refl : ∀ v : Value, Alike v v
  | .null => .null
  | .array items => by
      refine .array rfl fun v w hmem => ?_
      obtain ⟨i, hi, heq⟩ := List.mem_iff_getElem.mp hmem
      rw [List.getElem_zip] at heq
      obtain ⟨rfl, rfl⟩ := Prod.mk.inj heq
      have hlt := List.sizeOf_lt_of_mem (List.getElem_mem (List.lt_length_left_of_zip hi))
      exact Alike.refl _
  | .object members => by
      refine .object (fun _ => rfl) fun name v w hv hw => ?_
      obtain rfl : v = w := Option.some.inj (hv.symm.trans hw)
      have hmem : (name, v) ∈ members := by
        obtain ⟨before, after, hmembers, _⟩ := List.lookup_eq_some_iff.mp hv
        simp [hmembers]
      have hlt : sizeOf v < sizeOf members := by
        have hpair := List.sizeOf_lt_of_mem hmem
        simp only [Prod.mk.sizeOf_spec] at hpair
        omega
      exact Alike.refl v
  | .boolean _ | .integer _ | .float _ | .decimal _ | .text _ | .moment _ | .guid _
  | .query _ _ => .plain rfl rfl
termination_by v => sizeOf v

theorem Alike.isNull_eq {v w : Value} (h : Alike v w) : v.isNull = w.isNull := by
  have hplain {u : Value} (hu : u.isPlain = true) : u.isNull = false := by
    cases u <;> simp [isPlain, isNull] at hu ⊢
  cases h with
  | null => rfl
  | array length alike => rfl
  | object keys alike => rfl
  | plain left right => rw [hplain left, hplain right]

theorem forall₂_alike_iff {items others : List Value} :
    List.Forall₂ Alike items others ↔
      items.length = others.length ∧ ∀ v w, (v, w) ∈ items.zip others → Alike v w := by
  rw [List.forall₂_iff_zip]

/-- Leaving out null keeps lists of alike values alike. -/
theorem forall₂_alike_filter {items others : List Value} (h : List.Forall₂ Alike items others) :
    List.Forall₂ Alike (items.filter (!·.isNull)) (others.filter (!·.isNull)) := by
  induction h with
  | nil => exact .nil
  | @cons v w items others hvw _ ih =>
      cases hnull : w.isNull with
      | true => simpa [hvw.isNull_eq, hnull] using ih
      | false => simpa [hvw.isNull_eq, hnull] using ⟨hvw, ih⟩

end BoundSql.Value
