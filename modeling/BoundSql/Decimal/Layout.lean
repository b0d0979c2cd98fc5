import BoundSql.Decimal.Shortest
import BoundSql.Text.Digits

set_option autoImplicit false

/-!
# Layouts of float texts

A layout says how the chosen digits of a float are written: which magnitudes are written out in
positions, whether a whole number ends in `.0`, and which way a tie between two shortest decimals
goes.  The library has two: `Layout.plain` for messages and rendered trees, and `Layout.json` for
JSON numbers.
-/

namespace BoundSql.Decimal

/-- The choices that turn a float into text. -/
structure Layout where
  tie : Tie
  /-- Is a number whose leading digit stands for this power of ten written without an exponent? -/
  positional : Int → Bool
  /-- Does a whole number in positions end in `.0`? -/
  pointZero : Bool

/-- The text of digits that stand for `digits * 10 ^ exponent`, each digit in its position. -/
def positionalText (pointZero : Bool) (ds : List Char) (exponent : Int) : List Char :=
  if 0 ≤ exponent then
    ds ++ List.replicate exponent.toNat '0' ++ (if pointZero then ['.', '0'] else [])
  else
    let places := (-exponent).toNat
    let padded := Text.zeroPadded (places + 1) ds
    padded.take (padded.length - places) ++ '.' :: padded.drop (padded.length - places)

/-- The text with one digit in front of the point and a signed power of ten behind. -/
def scientificText (ds : List Char) (leading : Int) : List Char :=
  let mark := if leading < 0 then ['e', '-'] else ['e', '+']
  let power := mark ++ Text.decimal leading.natAbs
  match ds with
  | [] => power
  | [d] => d :: power
  | d :: rest => d :: '.' :: rest ++ power

/-- The text of a nonnegative decimal. -/
def Layout.scaledText (layout : Layout) (s : Scaled) : List Char :=
  let ds := Text.decimal s.coefficient
  let leading := s.exponent + (ds.length : Int) - 1
  if layout.positional leading then positionalText layout.pointZero ds s.exponent
  else scientificText ds leading

/-- The text of a float. -/
def Layout.text (layout : Layout) (x : Float) : String :=
  if x.isNaN then "NaN"
  else
    let sign := if x.toBits.toNat / Nat.pow 2 63 = 1 then "-" else ""
    if x.isInf then sign ++ "inf"
    else sign ++ String.ofList (layout.scaledText ((Binary.ofBits x.toBits).shortest layout.tie))

/-- Every digit in its position, and a whole number like an integer. -/
def Layout.plain : Layout where
  tie := .up
  positional _ := true
  pointZero := false

/-- Positions from `0.00001` up to sixteen digits before the point, powers of ten beyond; a whole
number keeps `.0`, so that it does not read back as an integer. -/
def Layout.json : Layout where
  tie := .toEven
  positional leading := -5 ≤ leading && leading < 16
  pointZero := true

end BoundSql.Decimal
