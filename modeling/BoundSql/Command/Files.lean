import BoundSql.Text.Segments

set_option autoImplicit false

/-!
# Files

A file system as a value: what stands at each location, and the directory from which the paths lead
that do not start at the root.  A path is followed name by name, and the first name that leads
nowhere decides how the reading fails.
-/

namespace BoundSql.Command

/-- Why the system cannot give the content of a file. -/
inductive FileError where
  | notFound
  | accessDenied
  | notDirectory
  | isDirectory
  | nameTooLong
  deriving DecidableEq, Repr, Inhabited

namespace FileError

/-- Every file error. -/
def all : List FileError := [.notFound, .accessDenied, .notDirectory, .isDirectory, .nameTooLong]

/-- The number by which the system knows an error. -/
def code : FileError → Nat
  | .notFound => 2
  | .accessDenied => 13
  | .notDirectory => 20
  | .isDirectory => 21
  | .nameTooLong => 36

/-- The error with a number. -/
def ofCode? (code : Nat) : Option FileError := all.find? (·.code = code)

/-- What the system says about an error. -/
def description : FileError → String
  | .notFound => "No such file or directory"
  | .accessDenied => "Permission denied"
  | .notDirectory => "Not a directory"
  | .isDirectory => "Is a directory"
  | .nameTooLong => "File name too long"

/-- The wording of a file error. -/
def message (e : FileError) : String :=
  e.description ++ " (os error " ++ toString e.code ++ ")"

end FileError

/-- What stands at a location. -/
inductive FileEntry where
  | directory
  | file (content : ByteArray)
  deriving Inhabited

/-- A location is the list of the names that lead to it from the root. -/
structure FileSystem where
  /-- What stands at the locations below the root; nothing stands anywhere else. -/
  entries : List (List String × FileEntry)
  /-- Where the paths start that do not start at the root. -/
  workingDirectory : List String
  deriving Inhabited

namespace FileSystem

/-- What stands at a location. -/
def entry? (fs : FileSystem) : List String → Option FileEntry
  | [] => some .directory
  | location => fs.entries.lookup location

/-- The most bytes that a name may have. -/
def nameLimit : Nat := 255

/-- The most bytes that a path may have. -/
def pathLimit : Nat := 4095

/-- Where names lead from a location.  Only a directory can be left, an empty name and a dot stay in
it, and two dots lead to the directory that holds it. -/
def follow (fs : FileSystem) (location : List String) :
    List String → Except FileError (List String)
  | [] => .ok location
  | name :: names =>
    match fs.entry? location with
    | none => .error .notFound
    | some (.file _) => .error .notDirectory
    | some .directory =>
      if name = "" ∨ name = "." then fs.follow location names
      else if name = ".." then fs.follow location.dropLast names
      else if nameLimit < name.utf8ByteSize then .error .nameTooLong
      else
        match fs.entry? (location ++ [name]) with
        | none => .error .notFound
        | some _ => fs.follow (location ++ [name]) names

/-- Where a path starts. -/
def start (fs : FileSystem) (path : String) : List String :=
  if path.toList.head? = some '/' then [] else fs.workingDirectory

/-- The content of the file that a path names. -/
def read (fs : FileSystem) (path : String) : Except FileError ByteArray :=
  if path = "" then .error .notFound
  else if pathLimit < path.utf8ByteSize then .error .nameTooLong
  else
    match fs.follow (fs.start path) (Text.segmentsAt '/' path) with
    | .error e => .error e
    | .ok location =>
      match fs.entry? location with
      | some (.file content) => .ok content
      | some .directory => .error .isDirectory
      | none => .error .notFound

end FileSystem

end BoundSql.Command
