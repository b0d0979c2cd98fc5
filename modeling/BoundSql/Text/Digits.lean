set_option autoImplicit false

/-!
# Digits

Numbers as lists of digits, decimal and hexadecimal, and back.  Hexadecimal digits are written in
lower case and read in either.
-/

namespace BoundSql.Text

/-- The decimal digits of a number, the leading one first. -/
def decimal (n : Nat) : List Char := Nat.toDigits 10 n

/-- The number that decimal digits write. -/
def ofDecimal (ds : List Char) : Nat := ds.foldl (fun n c => 10 * n + (c.toNat - '0'.toNat)) 0

/-- The hexadecimal digits of a number, the leading one first. -/
def hexadecimal (n : Nat) : List Char := Nat.toDigits 16 n

/-- The value of a hexadecimal digit. -/
def hexValue? (c : Char) : Option Nat :=
  if '0' ≤ c ∧ c ≤ '9' then some (c.toNat - '0'.toNat)
  else if 'a' ≤ c ∧ c ≤ 'f' then some (c.toNat - 'a'.toNat + 10)
  else if 'A' ≤ c ∧ c ≤ 'F' then some (c.toNat - 'A'.toNat + 10)
  else none

/-- The number that hexadecimal digits write. -/
def ofHexadecimal? (ds : List Char) : Option Nat :=
  ds.foldlM (fun n c => (hexValue? c).map (16 * n + ·)) 0

/-- The digits with zeros in front up to a width. -/
def zeroPadded (width : Nat) (ds : List Char) : List Char :=
  List.replicate (width - ds.length) '0' ++ ds

end BoundSql.Text
