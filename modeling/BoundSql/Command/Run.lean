import BoundSql.Command.Arguments
import BoundSql.Command.Error
import BoundSql.Document.Reading
import BoundSql.Json.Parser
import BoundSql.Manual
import BoundSql.Query.Compile

set_option autoImplicit false

/-!
# Running commands

What the program answers to its arguments and the input that it reads.  The answer is an exit code
and two texts; how an input is read is left to the caller.
-/

namespace BoundSql.Command

/-- How a document is to be compiled, apart from where it comes from and how the result is shown. -/
structure CompileOptions where
  validateOnly : Bool
  noOrderBy : Bool
  dotSeparator : Option String
  deriving DecidableEq, Repr, Inhabited

/-- The options of a request. -/
def CompileRequest.options (r : CompileRequest) : CompileOptions :=
  ⟨r.validateOnly, r.noOrderBy, r.dotSeparator⟩

/-- The options for the query of a document. -/
def CompileOptions.queryOptions (o : CompileOptions) : Options :=
  let base := Options.default.withContainersNamed dynamicContainerNames
  { base with ordering := !o.noOrderBy, dotSeparator := o.dotSeparator.getD base.dotSeparator }

/-- What became of a document. -/
inductive CompileResult where
  /-- The document is sound, and no more was asked. -/
  | valid
  | compiled (statement : Statement)
  deriving Inhabited

/-- Compiles the text of a document, if there is one. -/
def compileText (o : CompileOptions) : Option String → Except CommandError CompileResult
  | none => .error .noInput
  | some text =>
    match Json.parse text with
    | .error e => .error (.json e)
    | .ok json =>
      match Document.ofJson json with
      | .error e => .error (.document e)
      | .ok document =>
        if o.validateOnly then .ok .valid
        else
          match Query.compileFor o.queryOptions document.chain document.descriptor with
          | .error e => .error (.compile e)
          | .ok statement => .ok (.compiled statement)

/-- The manual's text about a topic. -/
def topicText (name : String) : Except CommandError String :=
  match Manual.Topic.ofName? name with
  | some topic => .ok topic.text
  | none => .error (.unknownTopic name)

/-- How the result of a compilation is shown: the text and the parameters, or the request body. -/
def resultText (body : Bool) : CompileResult → String
  | .valid => "Document is valid\n"
  | .compiled statement =>
    if body then statement.requestBody.pretty ++ "\n"
    else statement.sql ++ "\n" ++ statement.paramsJson.compact ++ "\n"

/-- Where an input comes from. -/
inductive InputSource where
  | standard
  | file (path : String)
  deriving DecidableEq, Repr, Inhabited

/-- The input that an invocation reads. -/
def Invocation.source? : Invocation → Option InputSource
  | .compile request =>
    match request.file with
    | none => some .standard
    | some path => if path = "-" then some .standard else some (.file path)
  | _ => none

/-- What the reading of an input gives: its text, nothing where there is no input, or an error. -/
abbrev Input := Except InputError (Option String)

/-- The input that consists of these bytes. -/
def Input.ofBytes (bytes : ByteArray) : Input :=
  match String.fromUTF8? bytes with
  | some text => .ok (some text)
  | none => .error .notUtf8

/-- The answer of the program. -/
structure Outcome where
  code : UInt32
  stdout : String
  stderr : String
  deriving DecidableEq, Repr, Inhabited

/-- The outcome of a command with this result. -/
def Outcome.ofResult : Except CommandError String → Outcome
  | .ok text => ⟨0, text, ""⟩
  | .error e => ⟨1, "", e.message ++ "\n"⟩

/-- The outcome of arguments that cannot be understood. -/
def Outcome.ofUsageError (e : UsageError) : Outcome := ⟨2, "", "error: " ++ e.message ++ "\n"⟩

/-- The line about the version. -/
def versionText : String := "esql 0.1.0\n"

/-- The outcome of an invocation with the input that was read. -/
def Invocation.run (invocation : Invocation) (input : Input) : Outcome :=
  match invocation with
  | .version => ⟨0, versionText, ""⟩
  | .help => ⟨0, Manual.usageText, ""⟩
  | .docs => ⟨0, Manual.overview, ""⟩
  | .doc topic => Outcome.ofResult (topicText topic)
  | .compile request =>
    match input with
    | .error e => Outcome.ofResult (.error (.input e))
    | .ok text => Outcome.ofResult (resultText request.body <$> compileText request.options text)

/-- The program: the outcome of its arguments, where `read` reads the inputs. -/
def answer {m : Type → Type} [Monad m] (read : InputSource → m Input) (args : List String) :
    m Outcome :=
  match parse args with
  | .error e => pure (Outcome.ofUsageError e)
  | .ok invocation =>
    match invocation.source? with
    | none => pure (invocation.run (.ok none))
    | some source => invocation.run <$> read source

end BoundSql.Command
