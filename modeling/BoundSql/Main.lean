import BoundSql.Command.Run

set_option autoImplicit false

/-!
# The program

Reads the arguments and the input, and writes what the library answers.
-/

namespace BoundSql.Program

open BoundSql.Command

/-- The bytes of a stream up to its end. -/
partial def readAll (stream : IO.FS.Stream) (done : ByteArray) : IO ByteArray := do
  let chunk ← stream.read 65536
  if chunk.isEmpty then return done else readAll stream (done ++ chunk)

/-- The number by which the system knows an error.  Some calls give it with a minus. -/
def systemCode? : IO.Error → Option Nat
  | .noFileOrDirectory _ code _ => some code.toInt32.toInt.natAbs
  | .inappropriateType _ code _ => some code.toInt32.toInt.natAbs
  | .permissionDenied _ code _ => some code.toInt32.toInt.natAbs
  | .invalidArgument _ code _ => some code.toInt32.toInt.natAbs
  | _ => none

/-- The error of an input that the system did not give. -/
def inputError (e : IO.Error) : InputError :=
  match (systemCode? e).bind FileError.ofCode? with
  | some known => .file known
  | none => .other (toString e)

/-- Reads an input. -/
def readInput : InputSource → IO Input
  | .standard => do
    let stdin ← IO.getStdin
    if ← stdin.isTty then return .ok none
    return Input.ofBytes (← readAll stdin ByteArray.empty)
  | .file path => do
    try
      return Input.ofBytes (← IO.FS.readBinFile path)
    catch e =>
      return .error (inputError e)

end BoundSql.Program

open BoundSql.Command BoundSql.Program in
/-- The program. -/
def main (args : List String) : IO UInt32 := do
  let outcome ← answer readInput args
  IO.print outcome.stdout
  IO.eprint outcome.stderr
  return outcome.code
