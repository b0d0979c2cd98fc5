import BoundSql.Json.Token

set_option autoImplicit false

/-!
# JSON values from tokens

The reader takes one token at a time and keeps the containers that are still open in a list,
innermost first.  What may come next is a `Place`; a token that does not fit its place is an
error, and so are more open containers than the limit.
-/

namespace BoundSql.Json

/-- A container whose end has not come yet. -/
inductive OpenContainer where
  /-- An array with its items so far in reverse. -/
  | array (items : List Json)
  /-- An object between two of its members. -/
  | object (members : List (String × Json))
  /-- An object in which the value of a key is due. -/
  | member (members : List (String × Json)) (key : String)
  deriving Inhabited

/-- What may come next. -/
inductive Place where
  /-- A value. -/
  | value
  /-- A value or the end of an empty array. -/
  | firstItem
  /-- A key. -/
  | key
  /-- A key or the end of an empty object. -/
  | firstKey
  /-- The colon behind a key. -/
  | colon
  /-- A comma or the end of a container. -/
  | afterValue
  /-- Nothing: the value is complete. -/
  | finished (value : Json)
  deriving Inhabited

/-- A reading under way. -/
structure Reading where
  place : Place
  containers : List OpenContainer
  deriving Inhabited

namespace Reading

/-- The reading before the first token. -/
def start : Reading := ⟨.value, []⟩

/-- Puts a complete value into the innermost open container. -/
def complete (value : Json) : List OpenContainer → Except SyntaxError Reading
  | [] => .ok ⟨.finished value, []⟩
  | .array items :: outer => .ok ⟨.afterValue, .array (value :: items) :: outer⟩
  | .member members key :: outer =>
    .ok ⟨.afterValue, .object (putMember key value members) :: outer⟩
  | .object _ :: _ => .error .misplacedToken

/-- Opens a container, unless `limit` of them are open. -/
def openContainer (limit : Nat) (place : Place) (container : OpenContainer)
    (outer : List OpenContainer) : Except SyntaxError Reading :=
  if outer.length < limit then .ok ⟨place, container :: outer⟩ else .error .tooDeep

/-- A token where a value is due. -/
def takeValue (limit : Nat) (containers : List OpenContainer) : Token → Except SyntaxError Reading
  | .scalar value => complete value containers
  | .openArray => openContainer limit .firstItem (.array []) containers
  | .openObject => openContainer limit .firstKey (.object []) containers
  | _ => .error .misplacedToken

/-- A token where a key is due. -/
def takeKey (containers : List OpenContainer) : Token → Except SyntaxError Reading
  | .scalar (.text key) =>
    match containers with
    | .object members :: outer => .ok ⟨.colon, .member members key :: outer⟩
    | _ => .error .misplacedToken
  | _ => .error .misplacedToken

/-- The reading after one more token. -/
def step (limit : Nat) (r : Reading) (token : Token) : Except SyntaxError Reading :=
  match r.place, token, r.containers with
  | .value, token, containers => takeValue limit containers token
  | .firstItem, .closeArray, .array items :: outer => complete (.array items.reverse) outer
  | .firstItem, token, containers => takeValue limit containers token
  | .firstKey, .closeObject, .object members :: outer => complete (.object members) outer
  | .firstKey, token, containers => takeKey containers token
  | .key, token, containers => takeKey containers token
  | .colon, .colon, containers => .ok ⟨.value, containers⟩
  | .afterValue, .comma, .array items :: outer => .ok ⟨.value, .array items :: outer⟩
  | .afterValue, .comma, .object members :: outer => .ok ⟨.key, .object members :: outer⟩
  | .afterValue, .closeArray, .array items :: outer => complete (.array items.reverse) outer
  | .afterValue, .closeObject, .object members :: outer => complete (.object members) outer
  | _, _, _ => .error .misplacedToken

end Reading

/-- The value that tokens write, with at most `limit` containers inside one another. -/
def ofTokens (limit : Nat) (tokens : List Token) : Except SyntaxError Json := do
  match (← tokens.foldlM (Reading.step limit) Reading.start).place with
  | .finished value => return value
  | _ => throw .unexpectedEnd

/-- How many containers of a document may stand inside one another. -/
def depthLimit : Nat := 127

/-- Reads a text that holds one value, with at most `limit` containers inside one another. -/
def parseWithin (limit : Nat) (text : String) : Except SyntaxError Json := do
  ofTokens limit (← Token.scan text)

/-- Reads a text that holds one value. -/
def parse (text : String) : Except SyntaxError Json := parseWithin depthLimit text

end BoundSql.Json
