import BoundSql.Command.Files
import BoundSql.CompileError
import BoundSql.Document.Error
import BoundSql.Json.Token

set_option autoImplicit false

/-!
# Why a command fails

The failures of the program's commands, and the wording of each as it goes to the error output.
-/

namespace BoundSql

/-- Why an input could not be read. -/
inductive InputError where
  | file (e : Command.FileError)
  | notUtf8
  | other (description : String)
  deriving DecidableEq, Repr, Inhabited

/-- The wording of an input error. -/
def InputError.message : InputError → String
  | .file e => e.message
  | .notUtf8 => "stream did not contain valid UTF-8"
  | .other description => description

/-- Why a command fails. -/
inductive CommandError where
  | compile (e : CompileError)
  | json (e : Json.SyntaxError)
  | input (e : InputError)
  | document (e : DocumentError)
  | noInput
  | unknownTopic (name : String)
  deriving Inhabited

/-- The wording of a failure. -/
def CommandError.message : CommandError → String
  | .compile e => "Compile error: " ++ e.message
  | .json e => "Invalid JSON: " ++ e.message
  | .input e => "IO error: " ++ e.message
  | .document e => "Invalid query document: " ++ e.message
  | .noInput => "No input provided. Pass a file or pipe a query document to stdin."
  | .unknownTopic name =>
    "Unknown topic: '" ++ name ++ "'\nRun 'esql docs' to see available topics."

end BoundSql
