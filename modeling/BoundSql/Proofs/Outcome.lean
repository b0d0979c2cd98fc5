import Mathlib.Data.List.Forall2

set_option autoImplicit false

/-!
# Outcomes

A compilation ends with a result or with the cause of its refusal.  A result of several steps
together comes from a result of each.  Two compilations agree when both are refused, whatever the
causes, or both have results that are related.
-/

namespace BoundSql

variable {ε α β : Type}

/-- Two steps succeed together exactly when the first does and the second does on its result. -/
theorem bind_eq_ok_iff {x : Except ε α} {f : α → Except ε β} {b : β} :
    (x >>= f) = .ok b ↔ ∃ a, x = .ok a ∧ f a = .ok b := by
  cases x with
  | error e => simp [bind, Except.bind]
  | ok a => simp [bind, Except.bind]

/-- A changed result comes from a result. -/
theorem map_eq_ok_iff {x : Except ε α} {f : α → β} {b : β} :
    f <$> x = .ok b ↔ ∃ a, x = .ok a ∧ f a = b := by
  cases x with
  | error e => simp [Functor.map, Except.map]
  | ok a => simp [Functor.map, Except.map]

/-- A list of results comes from a result for each item. -/
theorem mapM_eq_ok_iff {f : α → Except ε β} {xs : List α} :
    ∀ {ys : List β}, xs.mapM f = .ok ys ↔ List.Forall₂ (fun x y => f x = .ok y) xs ys := by
  induction xs with
  | nil =>
      intro ys
      rw [List.mapM_nil, List.forall₂_nil_left_iff]
      exact ⟨fun h => (Except.ok.inj h).symm, fun h => by rw [h]; rfl⟩
  | cons x xs ih =>
      intro ys
      rw [List.mapM_cons, bind_eq_ok_iff, List.forall₂_cons_left_iff]
      constructor
      · rintro ⟨y, hy, h⟩
        obtain ⟨rest, hrest, h⟩ := bind_eq_ok_iff.mp h
        exact ⟨y, rest, hy, ih.mp hrest, (Except.ok.inj h).symm⟩
      · rintro ⟨y, rest, hy, hrest, rfl⟩
        exact ⟨y, hy, bind_eq_ok_iff.mpr ⟨rest, ih.mpr hrest, rfl⟩⟩

/-- Lists that are related item by item to one list are so to each other. -/
theorem forall₂_comp {γ : Type} {R : α → β → Prop} {S : β → γ → Prop} {T : α → γ → Prop}
    (h : ∀ x y z, R x y → S y z → T x z) {xs : List α} {ys : List β} {zs : List γ}
    (hxs : List.Forall₂ R xs ys) (hzs : List.Forall₂ S ys zs) : List.Forall₂ T xs zs := by
  induction hxs generalizing zs with
  | nil =>
      cases hzs
      exact .nil
  | cons hx _ ih =>
      cases hzs with
      | cons hz hrest => exact .cons (h _ _ _ hx hz) (ih hrest)

/-- Options are related when both are none or both are of related values. -/
theorem eq_none_or_exists_of_rel {R : α → β → Prop} {x : Option α} {y : Option β}
    (h : Option.Rel R x y) : x = none ∧ y = none ∨ ∃ a b, x = some a ∧ y = some b ∧ R a b := by
  cases h with
  | none => exact .inl ⟨rfl, rfl⟩
  | some related => exact .inr ⟨_, _, rfl, rfl, related⟩

/-- Both are refused, or both have a result and the results are related. -/
inductive Agree {α β : Type} (R : α → β → Prop) : Except ε α → Except ε β → Prop where
  | ok {a : α} {b : β} (related : R a b) : Agree R (.ok a) (.ok b)
  | error (e e' : ε) : Agree R (.error e) (.error e')

namespace Agree

variable {α' β' : Type} {R : α → β → Prop} {S : α' → β' → Prop}

theorem bind {x : Except ε α} {y : Except ε β} {f : α → Except ε α'} {g : β → Except ε β'}
    (h : Agree R x y) (hnext : ∀ a b, R a b → Agree S (f a) (g b)) :
    Agree S (x >>= f) (y >>= g) := by
  cases h with
  | ok related => exact hnext _ _ related
  | error e e' => exact .error e e'

theorem map {x : Except ε α} {y : Except ε β} {f : α → α'} {g : β → β'}
    (h : Agree R x y) (hnext : ∀ a b, R a b → S (f a) (g b)) : Agree S (f <$> x) (g <$> y) := by
  cases h with
  | ok related => exact .ok (hnext _ _ related)
  | error e e' => exact .error e e'

theorem mono {R' : α → β → Prop} {x : Except ε α} {y : Except ε β} (h : Agree R x y)
    (himp : ∀ a b, R a b → R' a b) : Agree R' x y := by
  cases h with
  | ok related => exact .ok (himp _ _ related)
  | error e e' => exact .error e e'

/-- Two compilations agree on equal results when neither has a result that the other has not. -/
theorem of_ok_iff {x y : Except ε α} (h : ∀ a, x = .ok a ↔ y = .ok a) : Agree (· = ·) x y := by
  cases x with
  | ok a =>
      rw [(h a).mp rfl]
      exact .ok rfl
  | error e =>
      cases y with
      | ok b => exact absurd ((h b).mpr rfl) (by simp)
      | error e' => exact .error e e'

/-- Two compilations agree when each result of the first comes with a related one of the second, and
the second has none by itself. -/
theorem of_exists {x : Except ε α} {y : Except ε β} (h : ∀ a, x = .ok a → ∃ b, y = .ok b ∧ R a b)
    (hback : ∀ b, y = .ok b → ∃ a, x = .ok a) : Agree R x y := by
  cases x with
  | ok a =>
      obtain ⟨b, rfl, related⟩ := h a rfl
      exact .ok related
  | error e =>
      cases y with
      | ok b =>
          obtain ⟨a, ha⟩ := hback b rfl
          cases ha
      | error e' => exact .error e e'

end Agree

end BoundSql
