import Mathlib.Algebra.Group.Int.Defs
import Mathlib.Algebra.Group.Nat.Defs

set_option autoImplicit false

/-!
# Floats of large integers

An integer that does not fit 64 signed bits but fits 64 unsigned ones is converted to a float by
scaling, rounding and packing.  No step leaves the finite floats: the exponent stays far below the
range of the format, and only an exponent at the end of the range marks an infinity or a
not-a-number (`isFinite_ofNat`).
-/

namespace BoundSql.Decimal

open Float.Model Float.Model.UnpackedFloat

/-! ## Rounding -/

theorem mantissa_shiftRight_le (em : ExtendedMantissa) (k : Nat) :
    (em >>> k).mantissa ≤ em.mantissa := by
  induction k with
  | zero => exact Nat.le_refl _
  | succ k ih => exact Nat.le_trans (Nat.div_le_self _ 2) ih

theorem roundedMantissa_le (em : ExtendedMantissa) : em.roundedMantissa ≤ em.mantissa + 1 := by
  obtain ⟨m, roundBit, stickyBit⟩ := em
  cases roundBit <;> cases stickyBit <;>
    simp [ExtendedMantissa.roundedMantissa, ExtendedMantissa.accuracy,
      Accuracy.roundToNearestEven]
  omega

/-- The float is zero, or finite with an exponent up to a bound. -/
inductive IsUpTo (bound : Int) : UnpackedFloat → Prop where
  | zero (sign : Sign) : IsUpTo bound (.zero sign)
  | finite (sign : Sign) (m : Nat) {e : Int} (positive : 0 < m) (le : e ≤ bound) :
      IsUpTo bound (.finite sign m e positive)

section

variable {m bits : Nat} {e bound : Int}

/-- Shifting to the target exponent makes the mantissa no larger, and raises the exponent no further
than the bits of the mantissa ask for. -/
theorem shiftToTargetExponent_le (hm : m < 2 ^ bits) (nonzero : bits ≠ 0) (low : -1074 ≤ bound)
    (he : e ≤ bound) (fits : e + bits ≤ bound + 53) :
    (shiftToTargetExponent Format.binary64 m e .exact).1.mantissa ≤ m ∧
      (shiftToTargetExponent Format.binary64 m e .exact).2 ≤ bound := by
  have hlog : m.log2 < bits := by
    by_cases hzero : m = 0
    · subst hzero
      simpa using Nat.pos_of_ne_zero nonzero
    · exact (Nat.log2_lt hzero).mpr hm
  have htarget : Format.binary64.targetExponent (totalExponent m e) =
      max (m.log2 + 1 + e - 53) (-1074) := rfl
  refine ⟨mantissa_shiftRight_le _ _, ?_⟩
  simp only [shiftToTargetExponent, shiftToExponent, htarget]
  omega

/-- Rounding makes zero or a finite float.  It shifts twice, since the mantissa that the first shift
leaves may gain a bit when it is rounded. -/
theorem isUpTo_roundWithAccuracy (sign : Sign) (hm : m < 2 ^ bits) (nonzero : bits ≠ 0)
    (low : -1074 ≤ bound) (he : e ≤ bound) (fits : e + bits ≤ bound + 53) :
    IsUpTo (bound + bits) (roundWithAccuracy Format.binary64 sign m e .exact) := by
  obtain ⟨hmantissa, hexponent⟩ := shiftToTargetExponent_le hm nonzero low he fits
  unfold roundWithAccuracy
  generalize shiftToTargetExponent Format.binary64 m e .exact = shifted at *
  obtain ⟨em, e'⟩ := shifted
  dsimp only at *
  have hrounded : em.roundedMantissa < 2 ^ (bits + 1) := by
    have hle := roundedMantissa_le em
    have hpos := Nat.two_pow_pos bits
    omega
  have hlast : (shiftToTargetExponent Format.binary64 em.roundedMantissa e' .exact).2 ≤
      bound + bits :=
    (shiftToTargetExponent_le hrounded (by omega) (by omega) (by omega) (by omega)).2
  by_cases hzero :
      (shiftToTargetExponent Format.binary64 em.roundedMantissa e' .exact).1.mantissa = 0
  · rw [dif_pos hzero]
    exact .zero sign
  · rw [dif_neg hzero]
    exact .finite sign _ _ hlast

end

/-! ## Packing -/

theorem isFinite_unpack {b : BitVec Format.binary64.numBits} (h : unpackExponent b ≠ -1#_) :
    (unpack Format.binary64 b).isFinite = true := by
  unfold UnpackedFloat.unpack
  dsimp only
  rw [if_neg h]
  by_cases hexponent : unpackExponent b = 0#_
  · rw [if_pos hexponent]
    by_cases hmantissa : unpackMantissa b = 0#_
    · rw [dif_pos hmantissa]
      rfl
    · rw [dif_neg hmantissa]
      rfl
  · rw [if_neg hexponent]
    rfl

/-- A float whose exponent is within the range of the format is finite when it is packed. -/
theorem isFinite_pack {u : UnpackedFloat} {bound : Int} (h : IsUpTo bound u) (range : bound < 972) :
    (pack u).isFinite = true := by
  apply isFinite_unpack
  change unpackExponent (UnpackedFloat.pack Format.binary64 u) ≠ -1#_
  cases h with
  | zero sign =>
      unfold UnpackedFloat.pack packedZero
      rw [unpackExponent_packComponents]
      decide
  | @finite sign m e positive le =>
      have hbias : (Format.binary64.exponentBias : Int) = 1023 := rfl
      have hbits : (Format.binary64.mantissaBitsWithoutImplicit : Int) = 52 := rfl
      unfold UnpackedFloat.pack
      dsimp only
      rw [hbias]
      generalize hfield : (e + 1023 + (Format.binary64.mantissaBitsWithoutImplicit : Int)).toNat =
        field
      have hlt : field + 1 < 2 ^ 11 := by omega
      rw [if_neg (Nat.not_le.mpr hlt)]
      split
      · rw [unpackExponent_packComponents]
        intro heq
        have hfields := congrArg BitVec.toNat heq
        simp at hfields
        omega
      · rw [unpackExponent_packComponents]
        decide

/-! ## Conversion -/

theorem shiftLeft_lt {n : Nat} (fits : n < 2 ^ 64) : n <<< 53 < 2 ^ 117 := by
  rw [Nat.shiftLeft_eq]
  omega

theorem mul_finite (format : Format) {s t : Sign} {m n : Nat} {e f : Int} (hm : 0 < m)
    (hn : 0 < n) :
    UnpackedFloat.mul format (.finite s m e hm) (.finite t n f hn) =
      roundWithAccuracy format (s * t) (m * n) (e + f) .exact := rfl

/-- An integer is scaled up by the precision and down again, which rounds it at the exponent of its
last bit. -/
theorem isUpTo_ofScientific {n : Nat} (positive : 0 < n) (fits : n < 2 ^ 64) :
    IsUpTo 128 (UnpackedFloat.ofScientific Format.binary64 n 0) := by
  have hlow : ¬ (0 : Int) < -((2 ^ Format.binary64.exponentBits : Int) + n.log2) := by
    have hpower : (2 ^ Format.binary64.exponentBits : Int) = 2048 := rfl
    omega
  have hbits : Format.binary64.mantissaBits = 53 := rfl
  have hscaled : n <<< 53 * 10 ^ (0 : Int).toNat < 2 ^ 117 := by
    simpa using shiftLeft_lt fits
  unfold UnpackedFloat.ofScientific
  rw [dif_neg (Nat.ne_of_gt positive), if_neg (by decide), if_neg hlow, if_pos (Int.le_refl 0),
    mul_finite, hbits]
  generalize n <<< 53 * 10 ^ (0 : Int).toNat = m at hscaled ⊢
  -- The mantissa has at most 117 bits, and its last bit stands at the exponent -53.
  have hrounded : IsUpTo (11 + (117 : Nat))
      (roundWithAccuracy Format.binary64 .positive m (-53) .exact) :=
    isUpTo_roundWithAccuracy .positive hscaled (by decide) (by decide) (by decide) (by decide)
  exact hrounded

/-- An integer beyond those that are converted exactly in one step has a finite float, if it fits 64
bits. -/
theorem isFinite_ofNat {n : Nat} (large : 2 ^ 53 ≤ n) (fits : n < 2 ^ 64) :
    (Float.ofNat n).isFinite = true := by
  have hmodel : Float.ofNat n =
      .ofModel (pack (UnpackedFloat.ofScientific Format.binary64 n 0)) := by
    change Float.ofScientific n false 0 = _
    unfold Float.ofScientific
    rw [dif_neg fun h => absurd h.1 (Nat.not_lt.mpr large)]
    rfl
  have hpositive : 0 < n := Nat.lt_of_lt_of_le (Nat.two_pow_pos 53) large
  rw [hmodel]
  exact isFinite_pack (isUpTo_ofScientific hpositive fits) (by decide)

end BoundSql.Decimal
