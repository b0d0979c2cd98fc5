set_option autoImplicit false

/-!
# Arguments

The arguments of the program are read from left to right: first the options of the program, then
the name of a command, then the options and operands of the command.  The first argument that does
not fit is an error.  Asking for the version or for help ends the reading at once.
-/

namespace BoundSql.Command

/-- How a document is to be compiled. -/
structure CompileRequest where
  /-- The file to read; none, or a minus, stands for the standard input. -/
  file : Option String
  /-- Show the request body. -/
  body : Bool
  /-- Only judge the document. -/
  validateOnly : Bool
  /-- Leave the ordering out. -/
  noOrderBy : Bool
  dotSeparator : Option String
  deriving DecidableEq, Repr, Inhabited

/-- What the program is asked to do. -/
inductive Invocation where
  | compile (request : CompileRequest)
  | docs
  | doc (topic : String)
  | version
  | help
  deriving DecidableEq, Repr, Inhabited

/-- Why the arguments cannot be understood. -/
inductive UsageError where
  | noCommand
  | unknownCommand (name : String)
  | unknownOption (text : String)
  | repeatedOption (text : String)
  | missingValue (option : String)
  | missingTopic
  | unexpectedOperand (text : String)
  deriving DecidableEq, Repr, Inhabited

/-- The wording of a usage error. -/
def UsageError.message : UsageError → String
  | .noCommand => "a command is required: compile, docs or doc"
  | .unknownCommand name => "unrecognized command '" ++ name ++ "'"
  | .unknownOption text => "unexpected argument '" ++ text ++ "'"
  | .repeatedOption text => "the option '" ++ text ++ "' is given twice"
  | .missingValue option => "the option '" ++ option ++ "' needs a value"
  | .missingTopic => "a topic is required"
  | .unexpectedOperand text => "unexpected argument '" ++ text ++ "'"

/-- What the options and operands so far have set. -/
structure Settings where
  verbose : Bool
  body : Bool
  validateOnly : Bool
  noOrderBy : Bool
  dotSeparator : Option String
  operands : List String
  deriving DecidableEq, Repr, Inhabited

/-- Before the first argument. -/
def Settings.empty : Settings := ⟨false, false, false, false, none, []⟩

/-- A switch, an option without a value. -/
inductive Switch where
  | verbose
  | body
  | validateOnly
  | noOrderBy
  | version
  | help
  deriving DecidableEq, Repr, Inhabited

/-- The part of the arguments that is being read. -/
inductive Level where
  /-- In front of the command. -/
  | program
  | compile
  | docs
  | doc
  deriving DecidableEq, Repr, Inhabited

namespace Level

/-- The switch that a letter stands for. -/
def letter? (level : Level) (c : Char) : Option Switch :=
  if c = 'v' then some .verbose
  else if c = 'h' then some .help
  else if c = 'V' ∧ level = .program then some .version
  else if c = 'b' ∧ level = .compile then some .body
  else none

/-- The switch that a name stands for. -/
def name? (level : Level) (name : String) : Option Switch :=
  if name = "verbose" then some .verbose
  else if name = "help" then some .help
  else if name = "version" ∧ level = .program then some .version
  else if name = "body" ∧ level = .compile then some .body
  else if name = "validate-only" ∧ level = .compile then some .validateOnly
  else if name = "no-order-by" ∧ level = .compile then some .noOrderBy
  else none

/-- How many operands there may be. -/
def operandLimit : Level → Nat
  | .program => 0
  | .compile => 1
  | .docs => 0
  | .doc => 1

end Level

/-- Why the reading ends before its end. -/
inductive Stop where
  | asked (invocation : Invocation)
  | usage (e : UsageError)
  deriving DecidableEq, Repr, Inhabited

/-- Sets a switch that has not been set yet. -/
def set (text : String) (wasSet : Bool) (g : Settings) : Except Stop Settings :=
  if wasSet then .error (.usage (.repeatedOption text)) else .ok g

/-- Turns a switch on; no switch may be turned on twice. -/
def turnOn (text : String) (g : Settings) : Switch → Except Stop Settings
  | .verbose => set text g.verbose { g with verbose := true }
  | .body => set text g.body { g with body := true }
  | .validateOnly => set text g.validateOnly { g with validateOnly := true }
  | .noOrderBy => set text g.noOrderBy { g with noOrderBy := true }
  | .version => .error (.asked .version)
  | .help => .error (.asked .help)

/-- Turns on the switches of letters behind one minus. -/
def turnOnLetters (level : Level) (text : String) (g : Settings) (letters : List Char) :
    Except Stop Settings :=
  letters.foldlM (fun g c =>
    match level.letter? c with
    | some switch => turnOn text g switch
    | none => .error (.usage (.unknownOption text))) g

/-- Takes the separator for dots. -/
def takeSeparator (g : Settings) (separator : String) : Except Stop Settings :=
  set "--dot-separator" g.dotSeparator.isSome { g with dotSeparator := some separator }

/-- Takes an operand, if there may be one more. -/
def takeOperand (level : Level) (g : Settings) (text : String) : Except Stop Settings :=
  if g.operands.length < level.operandLimit then .ok { g with operands := g.operands ++ [text] }
  else .error (.usage (.unexpectedOperand text))

/-- May the argument be the value of the option in front of it?  It may not look like an option. -/
def isValue (text : String) : Bool :=
  match text.toList with
  | '-' :: _ :: _ => false
  | _ => true

/-- The text behind the option with this name and an equals sign. -/
def attached? (option text : String) : Option String :=
  let mark := option.toList ++ ['=']
  if mark.isPrefixOf text.toList then some (String.ofList (text.toList.drop mark.length)) else none

/-- The separator for dots that is attached to its option. -/
def attachedSeparator? (level : Level) (name : String) : Option String :=
  if level = .compile then attached? "dot-separator" name else none

/-- An argument that is no value of an option in front of it. -/
inductive Argument where
  /-- Everything behind it is an operand. -/
  | endOfOptions
  | long (name : String)
  | letters (cs : List Char)
  | operand
  deriving DecidableEq, Repr, Inhabited

/-- What an argument looks like. -/
def Argument.ofText (text : String) : Argument :=
  match text.toList with
  | ['-', '-'] => .endOfOptions
  | '-' :: '-' :: name => .long (String.ofList name)
  | ['-'] => .operand
  | '-' :: cs => .letters cs
  | _ => .operand

/-- Reads the options and operands of a command. -/
def gather (level : Level) (g : Settings) : List String → Except Stop Settings
  | [] => .ok g
  | text :: rest =>
    match Argument.ofText text with
    | .endOfOptions => rest.foldlM (takeOperand level) g
    | .operand =>
      match takeOperand level g text with
      | .error e => .error e
      | .ok g => gather level g rest
    | .letters cs =>
      match turnOnLetters level text g cs with
      | .error e => .error e
      | .ok g => gather level g rest
    | .long name =>
      if level = .compile ∧ name = "dot-separator" then
        match rest with
        | [] => .error (.usage (.missingValue text))
        | value :: rest =>
          if isValue value then
            match takeSeparator g value with
            | .error e => .error e
            | .ok g => gather level g rest
          else .error (.usage (.missingValue text))
      else
        match attachedSeparator? level name, level.name? name with
        | some value, _ =>
          match takeSeparator g value with
          | .error e => .error e
          | .ok g => gather level g rest
        | none, some switch =>
          match turnOn text g switch with
          | .error e => .error e
          | .ok g => gather level g rest
        | none, none => .error (.usage (.unknownOption text))

/-- What a command with these options and operands asks for. -/
def invocation (level : Level) (g : Settings) : Except Stop Invocation :=
  match level, g.operands with
  | .program, _ => .error (.usage .noCommand)
  | .compile, operands =>
    .ok (.compile ⟨operands.head?, g.body, g.validateOnly, g.noOrderBy, g.dotSeparator⟩)
  | .docs, _ => .ok .docs
  | .doc, topic :: _ => .ok (.doc topic)
  | .doc, [] => .error (.usage .missingTopic)

/-- The level of a command. -/
def level? : String → Option Level
  | "compile" => some .compile
  | "docs" => some .docs
  | "doc" => some .doc
  | _ => none

/-- Reads a command with its options and operands. -/
def readCommand (level : Level) (args : List String) : Except Stop Invocation := do
  invocation level (← gather level Settings.empty args)

/-- Does the name stand for a command, or for the help on commands? -/
def isCommand (name : String) : Bool := (level? name).isSome || name = "help"

/-- Reads what help is asked for: the program, or a command.  No command has commands of its own. -/
def readHelp : List String → Stop
  | [] => .asked .help
  | name :: names =>
    if isCommand name then
      match names with
      | [] => .asked .help
      | name :: _ => .usage (.unknownCommand name)
    else .usage (.unknownCommand name)

/-- Reads the arguments of the program. -/
def read (g : Settings) : List String → Except Stop Invocation
  | [] => .error (.usage .noCommand)
  | text :: rest =>
    match Argument.ofText text with
    | .operand =>
      match level? text with
      | some level => readCommand level rest
      | none =>
        .error (if text = "help" then readHelp rest else .usage (.unknownCommand text))
    | .endOfOptions => .error (.usage .noCommand)
    | .letters cs =>
      match turnOnLetters .program text g cs with
      | .error e => .error e
      | .ok g => read g rest
    | .long name =>
      match Level.program.name? name with
      | some switch =>
        match turnOn text g switch with
        | .error e => .error e
        | .ok g => read g rest
      | none => .error (.usage (.unknownOption text))

/-- What the arguments ask for. -/
def parse (args : List String) : Except UsageError Invocation :=
  match read Settings.empty args with
  | .ok invocation => .ok invocation
  | .error (.asked invocation) => .ok invocation
  | .error (.usage e) => .error e

end BoundSql.Command
