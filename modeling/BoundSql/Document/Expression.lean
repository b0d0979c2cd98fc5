import BoundSql.Document.TypeTable
import BoundSql.Expr.Build

set_option autoImplicit false

/-!
# Expressions of a document

An expression is written as an object with the fields that say what it is; any other JSON value is
a literal.  The fields are tried in a fixed order, so that an object with the fields of several
kinds is an expression of the first of them.
-/

namespace BoundSql.Document

/-- What the expressions of a document refer to. -/
structure Scope where
  /-- The type of the rows. -/
  rowType : TypeRef
  /-- The object with the captured variables. -/
  closure : Value
  deriving Inhabited

namespace Scope

/-- The row, which is the parameter of every lambda of a document. -/
def row (s : Scope) : Expr := .param ⟨"$it", s.rowType⟩

/-- The column that a dotted path leads to. -/
def column (s : Scope) (path : String) : Expr := s.row.accessPath path

/-- The captured value that a dotted path leads to. -/
def capturedPath (s : Scope) (path : String) : Expr := (Expr.const s.closure).accessPath path

/-- The lambda over the row with this body. -/
def functionOf (s : Scope) (body : Expr) : Expr := s.row.functionOver body

end Scope

/-- What was read, or why nothing could be. -/
abbrev Reading (α : Type) : Type := Except DocumentError α

/-- The text under a key, if a text stands there. -/
def textAt? (members : List (String × Json)) (key : String) : Option String :=
  members.lookup key >>= Json.asText?

/-- The reading of a field that has to be there. -/
def field {α : Type} (readings : List (String × Reading α)) (key : String) : Reading α :=
  match readings.lookup key with
  | some reading => reading
  | none => .error (.missingField key)

/-- The binary expression with this sign; one that compares texts tests their comparison against
0. -/
def binaryOf (comparesTexts : Bool) (op : BinaryOp) (left right : Expr) : Expr :=
  if comparesTexts then .binary op (Expr.textCompare left right) (.const (.integer 0))
  else .binary op left right

/-- Does the object ask for a comparison of texts? -/
def comparesTexts (members : List (String × Json)) : Bool :=
  match members.lookup "compare" with
  | some (.boolean b) => b
  | _ => false

/-- The kinds of expressions that an object can write. -/
inductive Form where
  | column (path : String)
  | captured (path : String)
  | static (name : String)
  | literal (value : Json)
  | operation (symbol : String)
  | membership
  | conditional
  /-- No field says what it is. -/
  | unknown
  deriving Inhabited

/-- The kind of expression that an object with these members writes: that of the first field
found. -/
def Form.ofMembers (members : List (String × Json)) : Form :=
  ([(textAt? members "col").map Form.column,
    (textAt? members "captured").map Form.captured,
    (textAt? members "static").map Form.static,
    (members.lookup "value").map Form.literal,
    (textAt? members "op").map Form.operation,
    (members.lookup "in").map fun _ => Form.membership,
    (members.lookup "if").map fun _ => Form.conditional].findSome? id).getD .unknown

/-- The expression of an object with these members and the readings of them. -/
def ofFields (scope : Scope) (members : List (String × Json))
    (readings : List (String × Reading Expr)) : Reading Expr :=
  match Form.ofMembers members with
  | .column path => .ok (scope.column path)
  | .captured path => .ok (scope.capturedPath path)
  | .static name => .ok (Expr.ofStatic scope.rowType name)
  | .literal value => .ok (.const (Value.ofJson value))
  | .operation symbol =>
    match BinaryOp.ofSymbol? symbol with
    | none => .error (.unknownOperator symbol)
    | some op => do
      let left ← field readings "left"
      let right ← field readings "right"
      return binaryOf (comparesTexts members) op left right
  | .membership => do
    let item ← field readings "item"
    let list ← field readings "in"
    return Expr.contains list item
  | .conditional => do
    let test ← field readings "if"
    let ifTrue ← field readings "then"
    let ifFalse ← field readings "else"
    return .cond test ifTrue ifFalse
  | .unknown => .error (.unreadable members)

mutual

/-- The expression that a JSON value writes. -/
def expression (scope : Scope) : Json → Reading Expr
  | .object members => ofFields scope members (expressions scope members)
  | literal => .ok (.const (Value.ofJson literal))
termination_by structural j => j

/-- The expressions that the members of an object write, each under its key. -/
def expressions (scope : Scope) : List (String × Json) → List (String × Reading Expr)
  | [] => []
  | (key, value) :: members => (key, expression scope value) :: expressions scope members
termination_by structural ms => ms

end

end BoundSql.Document
