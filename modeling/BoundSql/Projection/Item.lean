import BoundSql.CompileError
import BoundSql.Filter.Clause

set_option autoImplicit false

/-!
# Selected items

A selected item is a label together with what it shows: a column of the row, a value to be bound,
or null.  A `Column` is the item as text.  Collecting the items of a projection can stop at an
error; what was collected before it is kept.
-/

namespace BoundSql

/-- A selected column as text. -/
structure Column where
  label : String
  /-- The column of the row, `?` for a placeholder, or `NULL`. -/
  value : String
  deriving DecidableEq, Repr, Inhabited

namespace Column

/-- A column under its own name. -/
def identity (name : String) : Column := ⟨name, name⟩

/-- The text of a column in the list of selected columns. -/
def text (c : Column) : String := c.value ++ " AS " ++ c.label

end Column

namespace Projection

/-- What a selected item shows. -/
inductive Source where
  | column (name : String)
  | bound (value : Value)
  | null
  deriving Inhabited

/-- A selected item. -/
structure Item where
  label : String
  source : Source
  deriving Inhabited

/-- The text of a source. -/
def Source.text : Source → String
  | .column name => name
  | .bound _ => "?"
  | .null => Filter.nullText

/-- The value that a source binds. -/
def Source.value? : Source → Option Value
  | .bound value => some value
  | _ => none

/-- The item as text. -/
def Item.column (item : Item) : Column := ⟨item.label, item.source.text⟩

/-- A column of the row under its own name. -/
def Item.identity (name : String) : Item := ⟨name, .column name⟩

theorem Item.column_identity (name : String) :
    (Item.identity name).column = Column.identity name := rfl

/-- The items as text. -/
def columns (items : List Item) : List Column := items.map Item.column

/-- The values that the items bind, in order. -/
def values (items : List Item) : List Value := items.filterMap (·.source.value?)

/-! ## Collecting -/

/-- Items that were collected, and the error that stopped the collection if there was one. -/
structure Collected where
  items : List Item
  error : Option CompileError
  deriving Inhabited

/-- A way to collect items when some labels are taken already. -/
abbrev Collector := List String → Collected

namespace Collector

/-- Nothing to collect. -/
def done : Collector := fun _ => ⟨[], none⟩

/-- One item. -/
def item (i : Item) : Collector := fun _ => ⟨[i], none⟩

/-- One item, unless its label is taken. -/
def newItem (i : Item) : Collector := fun taken =>
  ⟨if taken.contains i.label then [] else [i], none⟩

/-- A stop. -/
def fail (e : CompileError) : Collector := fun _ => ⟨[], some e⟩

/-- What a result says, or a stop at its error. -/
def ofResult {α : Type} (result : Except CompileError α) (next : α → Collector) : Collector :=
  match result with
  | .ok a => next a
  | .error e => fail e

/-- The items of the first and then, unless it stopped, those of the second, for which the labels of
the first are taken too. -/
def andThen (first second : Collector) : Collector := fun taken =>
  let before := first taken
  match before.error with
  | some e => ⟨before.items, some e⟩
  | none =>
    let after := second (taken ++ before.items.map (·.label))
    ⟨before.items ++ after.items, after.error⟩

/-- One after another. -/
def all : List Collector → Collector
  | [] => done
  | c :: cs => c.andThen (all cs)

theorem done_andThen (c : Collector) : done.andThen c = c := by
  funext taken
  simp [andThen, done]

theorem andThen_done (c : Collector) : c.andThen done = c := by
  funext taken
  cases h : c taken with
  | mk items error => cases error <;> simp [andThen, done, h]

/-- What is taken after two steps is the same however they are grouped. -/
theorem andThen_assoc (a b c : Collector) : (a.andThen b).andThen c = a.andThen (b.andThen c) := by
  funext taken
  cases ha : a taken with
  | mk items error =>
    cases error with
    | some e => simp [andThen, ha]
    | none =>
      cases hb : b (taken ++ items.map (·.label)) with
      | mk items' error' => cases error' <;> simp [andThen, ha, hb]

theorem all_append (cs ds : List Collector) : all (cs ++ ds) = (all cs).andThen (all ds) := by
  induction cs with
  | nil => simp [all, done_andThen]
  | cons c cs ih => simp [all, ih, andThen_assoc]

end Collector

end Projection

end BoundSql
