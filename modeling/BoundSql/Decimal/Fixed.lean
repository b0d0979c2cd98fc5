import BoundSql.Decimal.Layout

set_option autoImplicit false

/-!
# Fixed-point decimals

An exact decimal such as an amount of money: an integer mantissa and a count of decimal places.
Two of them are equal as numbers, so `1.50` equals `1.5`, but each is written with all of its
places.
-/

namespace BoundSql.Decimal

/-- The number `mantissa / 10 ^ scale`. -/
structure Fixed where
  mantissa : Int
  scale : Nat
  deriving DecidableEq, Repr, Inhabited

namespace Fixed

/-- Equality of the numbers, whatever their scales. -/
def beq (a b : Fixed) : Bool :=
  a.mantissa * Int.pow 10 b.scale == b.mantissa * Int.pow 10 a.scale

instance : BEq Fixed := ⟨beq⟩

/-- The number with all of its decimal places. -/
def text (d : Fixed) : String :=
  let sign := if d.mantissa < 0 then "-" else ""
  sign ++ String.ofList (positionalText false (Text.decimal d.mantissa.natAbs) (-(d.scale : Int)))

/-- The magnitude as a float.  Whole part and fraction are converted on their own and added, and a
sum with a fraction is rounded to the decimal places of the number. -/
def magnitude (d : Fixed) : Float :=
  let m := d.mantissa.natAbs
  let power := Nat.pow 10 d.scale
  if d.scale = 0 then Float.ofNat m
  else
    let whole := Float.ofNat (m / power)
    let fraction := Float.ofNat (m % power) / Float.ofNat power
    if fraction == 0 then whole
    else
      let places := (whole + fraction) * Float.ofNat power
      Float.ofNat (Binary.ofBits places.toBits).roundHalfUp / Float.ofNat power

/-- The number as a float. -/
def toFloat (d : Fixed) : Float := if d.mantissa < 0 then -d.magnitude else d.magnitude

end Fixed

end BoundSql.Decimal
