set_option autoImplicit false

/-!
# The fewest digits that read back

A positive double is `mantissa * 2 ^ exponent`.  The reals that round to it form an interval whose
ends belong to it exactly when the mantissa is even.  The chosen decimal lies on the coarsest grid
of multiples of a power of ten that meets this interval, hence has the fewest digits; of two such
multiples it is the nearer one, and an exact tie is decided by the caller.  All arithmetic is
exact.
-/

namespace BoundSql.Decimal

/-- A nonnegative finite double as `mantissa * 2 ^ exponent`. -/
structure Binary where
  mantissa : Nat
  exponent : Int
  deriving DecidableEq, Repr, Inhabited

/-- The magnitude that the fraction and exponent fields of 64 bits describe. -/
def Binary.ofBits (bits : UInt64) : Binary :=
  let fraction := bits.toNat % Nat.pow 2 52
  let field := bits.toNat / Nat.pow 2 52 % Nat.pow 2 11
  if field = 0 then ⟨fraction, -1074⟩ else ⟨Nat.pow 2 52 + fraction, Int.ofNat field - 1075⟩

/-- Where a decimal half way between two neighbours on the grid goes. -/
inductive Tie where
  | up
  | toEven
  deriving DecidableEq, Repr, Inhabited

/-- A nonnegative decimal `coefficient * 10 ^ exponent`. -/
structure Scaled where
  coefficient : Nat
  exponent : Int
  deriving DecidableEq, Repr, Inhabited

namespace Binary

/-- The distance down to the end of the rounding interval, in quarters of the last binary place.
It is halved where the mantissa is the least of its exponent, because the double below is nearer
there. -/
def quartersBelow (b : Binary) : Nat :=
  if b.mantissa = Nat.pow 2 52 ∧ b.exponent ≠ -1074 then 1 else 2

/-- The multiple of `10 ^ k` that stands for the double, if the grid of those multiples meets the
rounding interval.  Both sides of every comparison are scaled to integers. -/
def onGrid (tie : Tie) (b : Binary) (k : Int) : Option Nat :=
  let numerator := Nat.pow 2 (b.exponent - 2).toNat * Nat.pow 10 (-k).toNat
  let denominator := Nat.pow 2 (2 - b.exponent).toNat * Nat.pow 10 k.toNat
  let value := 4 * b.mantissa * numerator
  let low := (4 * b.mantissa - b.quartersBelow) * numerator
  let high := (4 * b.mantissa + 2) * numerator
  let inside (n : Nat) : Bool :=
    if b.mantissa % 2 = 0 then low ≤ n * denominator && n * denominator ≤ high
    else low < n * denominator && n * denominator < high
  let below := value / denominator
  let above := below + 1
  match inside below, inside above with
  | false, false => none
  | true, false => some below
  | false, true => some above
  | true, true =>
    let twiceRest := 2 * (value % denominator)
    if twiceRest < denominator then some below
    else if denominator < twiceRest then some above
    else
      match tie with
      | .up => some above
      | .toEven => some (if below % 2 = 0 then below else above)

/-- An exponent of ten above every multiple that can lie in the rounding interval. -/
def topExponent (b : Binary) : Int := ((b.mantissa.log2 : Int) + b.exponent + 1) * 3 / 10 + 3

/-- The decimal with the fewest digits that reads back as the double, the nearest of those.
Seventeen digits always suffice, so the search over ever finer grids ends well before its bound.
-/
def shortest (tie : Tie) (b : Binary) : Scaled :=
  if b.mantissa = 0 then ⟨0, 0⟩
  else
    ((List.range 32).findSome? fun (step : Nat) =>
      (b.onGrid tie (b.topExponent - step)).map fun n =>
        ({ coefficient := n, exponent := b.topExponent - step } : Scaled)).getD ⟨0, 0⟩

/-- The nearest integer, a half going away from zero. -/
def roundHalfUp (b : Binary) : Nat :=
  if 0 ≤ b.exponent then b.mantissa * Nat.pow 2 b.exponent.toNat
  else (2 * b.mantissa + Nat.pow 2 (-b.exponent).toNat) / (2 * Nat.pow 2 (-b.exponent).toNat)

end Binary

end BoundSql.Decimal
