import BoundSql.TypeRef

set_option autoImplicit false

/-!
# Display of values

How a value appears in rendered trees, messages and aliases.  It is for reading: a text stands
without quotes, and an object shows only that it is one.
-/

namespace BoundSql.Value

mutual

/-- The text of a value. -/
def display : Value → String
  | .null => "null"
  | .boolean b => if b then "true" else "false"
  | .integer n => toString n.toInt
  | .float x => Decimal.Layout.plain.text x
  | .decimal d => d.text
  | .text s => s
  | .moment m => m.text
  | .guid g => g.text
  | .array items => "[" ++ displayItems items ++ "]"
  | .object _ => TypeRef.closure.name
  | .query dataset _ => dataset
termination_by structural v => v

/-- The texts of the items, divided by commas. -/
def displayItems : List Value → String
  | [] => ""
  | [item] => item.display
  | item :: items => item.display ++ ", " ++ displayItems items
termination_by structural vs => vs

end

end BoundSql.Value
