import BoundSql.Text.Digits

set_option autoImplicit false

/-!
# Unique ids

A unique id is 128 bits.  Its text is 32 hexadecimal digits in lower case, in groups of 8, 4, 4, 4
and 12 with hyphens between; digits of either case are read.
-/

namespace BoundSql

/-- A 128-bit id. -/
structure Guid where
  bits : BitVec 128
  deriving DecidableEq, Repr, Inhabited

namespace Guid

/-- The characters of a list in groups of the given sizes. -/
def groups : List Nat → List Char → List (List Char)
  | [], _ => []
  | n :: ns, cs => cs.take n :: groups ns (cs.drop n)

/-- The sizes of the groups of digits. -/
def groupSizes : List Nat := [8, 4, 4, 4, 12]

/-- The hyphenated text in lower case. -/
def text (g : Guid) : String :=
  let ds := Text.zeroPadded 32 (Text.hexadecimal g.bits.toNat)
  String.ofList (List.intercalate ['-'] (groups groupSizes ds))

/-- Reads a hyphenated text. -/
def ofText? (text : String) : Option Guid :=
  let cs := text.toList
  let ds := cs.filter (· ≠ '-')
  if cs.length = 36 ∧ ds.length = 32 ∧ List.intercalate ['-'] (groups groupSizes ds) = cs then
    (Text.ofHexadecimal? ds).map fun n => ⟨BitVec.ofNat 128 n⟩
  else none

end Guid

end BoundSql
