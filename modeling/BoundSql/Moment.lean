import BoundSql.Text.Digits

set_option autoImplicit false

/-!
# Moments

A moment is a local date and time together with its offset east of UTC.  Two moments are equal when
they are the same instant.  The text is that of RFC 3339.
-/

namespace BoundSql

/-- A local date and time and its offset from UTC in seconds.  A nanosecond count of a whole
second or more marks a leap second. -/
structure Moment where
  year : Int
  month : Nat
  day : Nat
  hour : Nat
  minute : Nat
  second : Nat
  nanosecond : Nat
  offset : Int
  deriving DecidableEq, Repr, Inhabited

namespace Moment

/-- Days of the proleptic Gregorian calendar, counted from 1 March of the year zero.  The year
starts in March, so that the leap day is its last. -/
def dayNumber (m : Moment) : Int :=
  let year := if m.month ≤ 2 then m.year - 1 else m.year
  let month := (m.month + 9) % 12
  let dayOfYear : Nat := (153 * month + 2) / 5 + m.day
  365 * year + Int.fdiv year 4 - Int.fdiv year 100 + Int.fdiv year 400 + dayOfYear - 1

/-- The seconds since the start of the calendar in UTC, and the nanoseconds beyond them. -/
def instant (m : Moment) : Int × Nat :=
  (m.dayNumber * 86400 + m.hour * 3600 + m.minute * 60 + m.second - m.offset, m.nanosecond)

/-- Equality of the instants. -/
def beq (a b : Moment) : Bool := a.instant == b.instant

instance : BEq Moment := ⟨beq⟩

/-- The number with zeros in front up to `width` digits. -/
def padded (width n : Nat) : String := String.ofList (Text.zeroPadded width (Text.decimal n))

/-- Four digits, with a sign outside the years 0 to 9999. -/
def yearText (year : Int) : String :=
  let sign := if year < 0 then "-" else if 9999 < year then "+" else ""
  sign ++ padded 4 year.natAbs

/-- The fraction of a second in thousandths, millionths or billionths, the coarsest exact one. -/
def fractionText (nanosecond : Nat) : String :=
  if nanosecond = 0 then ""
  else if nanosecond % 1000000 = 0 then "." ++ padded 3 (nanosecond / 1000000)
  else if nanosecond % 1000 = 0 then "." ++ padded 6 (nanosecond / 1000)
  else "." ++ padded 9 nanosecond

/-- The offset rounded to a whole minute, under the sign it had before. -/
def offsetText (offset : Int) : String :=
  let minutes := (offset.natAbs + 30) / 60
  (if offset < 0 then "-" else "+") ++ padded 2 (minutes / 60) ++ ":" ++ padded 2 (minutes % 60)

/-- The text of RFC 3339; a leap second has the number 60. -/
def text (m : Moment) : String :=
  let leap := m.nanosecond / 1000000000
  yearText m.year ++ "-" ++ padded 2 m.month ++ "-" ++ padded 2 m.day
    ++ "T" ++ padded 2 m.hour ++ ":" ++ padded 2 m.minute ++ ":" ++ padded 2 (m.second + leap)
    ++ fractionText (m.nanosecond - leap * 1000000000) ++ offsetText m.offset

end Moment

end BoundSql
