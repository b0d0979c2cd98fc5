import BoundSql.Decimal.Layout
import BoundSql.Json.Basic

set_option autoImplicit false

/-!
# JSON as text

Two layouts: compact, without any blank, and pretty, with one item on a line and two blanks for each
level.  Strings escape the quote, the backslash and the control characters below the blank only.
-/

namespace BoundSql.Json

/-- How a character is written inside a string. -/
def escapeChar (c : Char) : List Char :=
  if c = '"' then ['\\', '"']
  else if c = '\\' then ['\\', '\\']
  else if c = '\x08' then ['\\', 'b']
  else if c = '\t' then ['\\', 't']
  else if c = '\n' then ['\\', 'n']
  else if c = '\x0c' then ['\\', 'f']
  else if c = '\r' then ['\\', 'r']
  else if c.toNat < 32 then '\\' :: 'u' :: Text.zeroPadded 4 (Text.hexadecimal c.toNat)
  else [c]

/-- A string in quotes. -/
def quote (s : String) : String :=
  "\"" ++ String.ofList (s.toList.flatMap escapeChar) ++ "\""

mutual

/-- The value without blanks. -/
def compact : Json → String
  | .null => "null"
  | .boolean b => if b then "true" else "false"
  | .integer n => toString n
  | .float x => Decimal.Layout.json.text x
  | .text s => quote s
  | .array items => "[" ++ compactItems items ++ "]"
  | .object members => "\x7b" ++ compactMembers members ++ "\x7d"
termination_by structural j => j

/-- The items divided by commas. -/
def compactItems : List Json → String
  | [] => ""
  | [item] => item.compact
  | item :: items => item.compact ++ "," ++ compactItems items
termination_by structural js => js

/-- The members divided by commas. -/
def compactMembers : List (String × Json) → String
  | [] => ""
  | [(key, value)] => quote key ++ ":" ++ value.compact
  | (key, value) :: members => quote key ++ ":" ++ value.compact ++ "," ++ compactMembers members
termination_by structural js => js

end

/-- The start of a line at a level of nesting. -/
def newLine (level : Nat) : String := "\n" ++ String.ofList (List.replicate (2 * level) ' ')

mutual

/-- The value with one item on a line, inside `level` containers. -/
def prettyAt (level : Nat) : Json → String
  | .null => "null"
  | .boolean b => if b then "true" else "false"
  | .integer n => toString n
  | .float x => Decimal.Layout.json.text x
  | .text s => quote s
  | .array [] => "[]"
  | .array (item :: items) => "[" ++ prettyItems (level + 1) (item :: items) ++ newLine level ++ "]"
  | .object [] => "\x7b\x7d"
  | .object (member :: members) =>
    "\x7b" ++ prettyMembers (level + 1) (member :: members) ++ newLine level ++ "\x7d"
termination_by structural j => j

/-- The items, each on a line of its own. -/
def prettyItems (level : Nat) : List Json → String
  | [] => ""
  | [item] => newLine level ++ item.prettyAt level
  | item :: items => newLine level ++ item.prettyAt level ++ "," ++ prettyItems level items
termination_by structural js => js

/-- The members, each on a line of its own. -/
def prettyMembers (level : Nat) : List (String × Json) → String
  | [] => ""
  | [(key, value)] => newLine level ++ quote key ++ ": " ++ value.prettyAt level
  | (key, value) :: members =>
    newLine level ++ quote key ++ ": " ++ value.prettyAt level ++ "," ++ prettyMembers level members
termination_by structural js => js

end

/-- The value with one item on a line, indented by nesting. -/
def pretty (j : Json) : String := j.prettyAt 0

end BoundSql.Json
