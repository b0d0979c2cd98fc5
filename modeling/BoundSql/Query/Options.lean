import BoundSql.TypeRef

set_option autoImplicit false

/-!
# Options

What a query compiler can be told: which types are dynamic containers, what stands for the dots in
the alias of a nested member, and whether ordering is written.
-/

namespace BoundSql

/-- The options of a compilation. -/
structure Options where
  /-- Is the type a dynamic container of name and value pairs? -/
  isContainer : TypeRef → Bool
  /-- What stands for the dots of a path in its alias. -/
  dotSeparator : String
  /-- Is the ordering written? -/
  ordering : Bool

namespace Options

/-- No containers, `_DOT_` for dots, and ordering written. -/
def default : Options := ⟨fun _ => false, "_DOT_", true⟩

instance : Inhabited Options := ⟨default⟩

/-- The containers are the types with these names. -/
def withContainersNamed (names : List String) (options : Options) : Options :=
  { options with isContainer := fun type => names.contains type.name }

/-- The containers are the types with names that begin like this. -/
def withContainerStart (start : String) (options : Options) : Options :=
  { options with isContainer := fun type => start.toList.isPrefixOf type.name.toList }

end Options

end BoundSql
