import BoundSql.Command.Run

set_option autoImplicit false

/-!
# Environments

Where a command runs: the files that it can see and its standard input.  In an environment the
program is a function from its arguments to its outcome.
-/

namespace BoundSql.Command

/-- Where a command runs. -/
structure Environment where
  files : FileSystem
  /-- The bytes of the standard input; none where it is a terminal. -/
  standardInput : Option ByteArray
  deriving Inhabited

namespace Environment

/-- Reads an input. -/
def read (env : Environment) : InputSource → Input
  | .standard =>
    match env.standardInput with
    | none => .ok none
    | some bytes => Input.ofBytes bytes
  | .file path =>
    match env.files.read path with
    | .ok bytes => Input.ofBytes bytes
    | .error e => .error (.file e)

/-- The outcome of the program in an environment. -/
def answer (env : Environment) (args : List String) : Outcome :=
  Id.run (Command.answer (fun source => pure (env.read source)) args)

end Environment

end BoundSql.Command
