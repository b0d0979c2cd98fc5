import BoundSql.Json.Basic
import BoundSql.Text.Digits

set_option autoImplicit false

/-!
# JSON tokens

The words of a JSON text: brackets, commas, colons, names, numbers and strings.  Blanks between them
are dropped; only the space, the tab, the line feed and the carriage return are blanks.  A word is
taken as long as its characters go on and is judged as a whole.
-/

namespace BoundSql.Json

/-- Why a text is not JSON. -/
inductive SyntaxError where
  /-- A character that starts no token. -/
  | strayCharacter (c : Char)
  | unknownName (word : String)
  | malformedNumber (word : String)
  | numberOutOfRange (word : String)
  | unclosedString
  | controlCharacter (c : Char)
  | malformedEscape
  /-- A token that may not stand where it stands. -/
  | misplacedToken
  | tooDeep
  | unexpectedEnd
  deriving DecidableEq, Repr, Inhabited

/-- The wording of a syntax error. -/
def SyntaxError.message : SyntaxError → String
  | .strayCharacter c => "unexpected character '" ++ String.singleton c ++ "'"
  | .unknownName word => "unknown name '" ++ word ++ "'"
  | .malformedNumber word => "malformed number '" ++ word ++ "'"
  | .numberOutOfRange word => "number out of range '" ++ word ++ "'"
  | .unclosedString => "unclosed string"
  | .controlCharacter c =>
    "bare control character U+" ++ String.ofList (Text.zeroPadded 4 (Text.hexadecimal c.toNat))
      ++ " in a string"
  | .malformedEscape => "malformed escape in a string"
  | .misplacedToken => "misplaced token"
  | .tooDeep => "nesting too deep"
  | .unexpectedEnd => "unexpected end"

/-- A word of a JSON text. -/
inductive Token where
  | openArray
  | closeArray
  | openObject
  | closeObject
  | comma
  | colon
  /-- A value that is one word; a string may also be a key. -/
  | scalar (value : Json)
  deriving Inhabited

namespace Token

/-! ## Numbers -/

/-- The float nearest to `coefficient * 10 ^ exponent`, none if it is beyond all floats.  Magnitudes
far outside the range of floats are decided from their length alone. -/
def nearestFloat? (coefficient : Nat) (exponent : Int) : Option Float :=
  let length : Int := ((Text.decimal coefficient).length : Int) + exponent
  if coefficient = 0 ∨ length < -400 then some 0
  else if 400 < length then none
  else
    let x := Float.ofScientific coefficient (decide (exponent < 0)) exponent.natAbs
    if x.isInf then none else some x

/-- The parts of a number: its sign, the digits before and after the point, and the power of ten;
the last two are absent where they are not written. -/
structure Numeral where
  negative : Bool
  whole : List Char
  fraction : Option (List Char)
  power : Option Int
  deriving DecidableEq, Repr, Inhabited

/-- Reads the power of ten behind the mark `e`. -/
def power? : List Char → Option Int
  | '+' :: ds => if ds ≠ [] ∧ ds.all Char.isDigit then some (Text.ofDecimal ds) else none
  | '-' :: ds => if ds ≠ [] ∧ ds.all Char.isDigit then some (-(Text.ofDecimal ds : Int)) else none
  | ds => if ds ≠ [] ∧ ds.all Char.isDigit then some (Text.ofDecimal ds) else none

/-- Reads a number: no sign but the minus, no needless zero in front, and digits on both sides of a
point. -/
def numeral? (word : List Char) : Option Numeral := do
  let negative := word.head? = some '-'
  let unsigned := if negative then word.drop 1 else word
  let whole := unsigned.takeWhile Char.isDigit
  let rest := unsigned.dropWhile Char.isDigit
  guard (whole ≠ [] ∧ (whole.head? = some '0' → whole = ['0']))
  let (fraction, rest) ←
    match rest with
    | '.' :: tail =>
      let ds := tail.takeWhile Char.isDigit
      if ds = [] then none else some (some ds, tail.dropWhile Char.isDigit)
    | rest => some (none, rest)
  match rest with
  | [] => some ⟨negative, whole, fraction, none⟩
  | mark :: tail =>
    guard (mark = 'e' ∨ mark = 'E')
    return ⟨negative, whole, fraction, some (← power? tail)⟩

/-- The float that a number writes. -/
def Numeral.float? (n : Numeral) : Option Float :=
  let places := n.fraction.getD []
  let exponent := n.power.getD 0 - (places.length : Int)
  (nearestFloat? (Text.ofDecimal (n.whole ++ places)) exponent).map fun x =>
    if n.negative then -x else x

/-- The value of a number: an integer if it is written as one and fits 64 bits, signed when negative
and unsigned otherwise; a float in every other case, and so for negative zero. -/
def Numeral.value? (n : Numeral) : Option Json :=
  let magnitude := Text.ofDecimal n.whole
  if n.fraction = none ∧ n.power = none ∧
      (if n.negative then 0 < magnitude ∧ magnitude ≤ Nat.pow 2 63
        else magnitude < Nat.pow 2 64) then
    some (.integer (if n.negative then -(magnitude : Int) else magnitude))
  else n.float?.map .float

/-! ## Strings -/

/-- The character that a letter behind a backslash stands for. -/
def simpleEscape? : Char → Option Char
  | '"' => some '"'
  | '\\' => some '\\'
  | '/' => some '/'
  | 'b' => some '\x08'
  | 'f' => some '\x0c'
  | 'n' => some '\n'
  | 'r' => some '\r'
  | 't' => some '\t'
  | _ => none

/-- Is the 16-bit unit the first half of a pair? -/
def isHighHalf (unit : Nat) : Bool := 0xd800 ≤ unit && unit < 0xdc00

/-- Is the 16-bit unit the second half of a pair? -/
def isLowHalf (unit : Nat) : Bool := 0xdc00 ≤ unit && unit < 0xe000

/-- The character that two halves of a pair make. -/
def joinHalves (high low : Nat) : Char :=
  Char.ofNat (0x10000 + (high - 0xd800) * 0x400 + (low - 0xdc00))

/-- The characters that the inside of a string stands for, in front of which `done` stands in
reverse. Two escaped halves of a pair make one character, and a half alone is an error. -/
def unescape (done : List Char) : List Char → Except SyntaxError (List Char)
  | [] => .ok done.reverse
  | '\\' :: 'u' :: a :: b :: c :: d :: rest =>
    match Text.ofHexadecimal? [a, b, c, d] with
    | none => .error .malformedEscape
    | some unit =>
      if isHighHalf unit then
        match rest with
        | '\\' :: 'u' :: e :: f :: g :: h :: rest =>
          match Text.ofHexadecimal? [e, f, g, h] with
          | none => .error .malformedEscape
          | some low =>
            if isLowHalf low then
              unescape (joinHalves unit low :: done) rest
            else .error .malformedEscape
        | _ => .error .malformedEscape
      else if isLowHalf unit then .error .malformedEscape
      else unescape (Char.ofNat unit :: done) rest
  | '\\' :: c :: rest =>
    match simpleEscape? c with
    | none => .error .malformedEscape
    | some c => unescape (c :: done) rest
  | ['\\'] => .error .malformedEscape
  | c :: rest => if c.toNat < 32 then .error (.controlCharacter c) else unescape (c :: done) rest

/-- Splits the text behind an opening quote into the inside of the string and what follows the
closing quote; `inside` stands in front of it in reverse. -/
def closeQuote? (inside : List Char) : List Char → Option (List Char × List Char)
  | [] => none
  | '"' :: rest => some (inside.reverse, rest)
  | '\\' :: c :: rest => closeQuote? (c :: '\\' :: inside) rest
  | c :: rest => closeQuote? (c :: inside) rest

theorem length_of_closeQuote? {inside cs raw rest : List Char}
    (h : closeQuote? inside cs = some (raw, rest)) : rest.length < cs.length := by
  fun_induction closeQuote? inside cs with
  | case1 => simp at h
  | case2 inside rest' =>
    simp only [Option.some.injEq, Prod.mk.injEq] at h
    simp [h.2]
  | case3 inside c rest' ih =>
    have := ih h
    simp only [List.length_cons]
    omega
  | case4 inside c rest' _ _ ih =>
    have := ih h
    simp only [List.length_cons]
    omega

/-! ## The whole text -/

/-- The blanks between tokens. -/
def isGap (c : Char) : Bool := c == ' ' || c == '\t' || c == '\n' || c == '\r'

/-- The characters of numbers. -/
def isNumberChar (c : Char) : Bool :=
  c.isDigit || c == '+' || c == '-' || c == '.' || c == 'e' || c == 'E'

/-- The token that a name stands for. -/
def ofName (word : List Char) : Except SyntaxError Token :=
  if word = ['n', 'u', 'l', 'l'] then .ok (.scalar .null)
  else if word = ['t', 'r', 'u', 'e'] then .ok (.scalar (.boolean true))
  else if word = ['f', 'a', 'l', 's', 'e'] then .ok (.scalar (.boolean false))
  else .error (.unknownName (String.ofList word))

/-- The token that a number stands for. -/
def ofNumber (word : List Char) : Except SyntaxError Token :=
  match numeral? word with
  | none => .error (.malformedNumber (String.ofList word))
  | some n =>
    match n.value? with
    | none => .error (.numberOutOfRange (String.ofList word))
    | some value => .ok (.scalar value)

/-- The token of one character. -/
def ofMark? : Char → Option Token
  | '[' => some .openArray
  | ']' => some .closeArray
  | '\x7b' => some .openObject
  | '\x7d' => some .closeObject
  | ',' => some .comma
  | ':' => some .colon
  | _ => none

private theorem length_dropWhile_le_self (p : Char → Bool) (cs : List Char) :
    (cs.dropWhile p).length ≤ cs.length := (List.dropWhile_sublist p).length_le

/-- The tokens of a text, behind those of `done`, which stand in reverse. -/
def scanAfter (done : List Token) (text : List Char) : Except SyntaxError (List Token) :=
  match text with
  | [] => .ok done.reverse
  | c :: rest =>
    if isGap c then scanAfter done rest
    else if c = '"' then
      match _closed : closeQuote? [] rest with
      | none => .error .unclosedString
      | some (raw, after) =>
        match unescape [] raw with
        | .error e => .error e
        | .ok cs => scanAfter (.scalar (.text (String.ofList cs)) :: done) after
    else if c.isDigit || c == '-' then
      match ofNumber (c :: rest.takeWhile isNumberChar) with
      | .error e => .error e
      | .ok token => scanAfter (token :: done) (rest.dropWhile isNumberChar)
    else if c.isAlpha then
      match ofName (c :: rest.takeWhile Char.isAlpha) with
      | .error e => .error e
      | .ok token => scanAfter (token :: done) (rest.dropWhile Char.isAlpha)
    else
      match ofMark? c with
      | none => .error (.strayCharacter c)
      | some token => scanAfter (token :: done) rest
termination_by text.length
decreasing_by
  · simp
  · have := length_of_closeQuote? _closed
    simp only [List.length_cons]
    omega
  · have := length_dropWhile_le_self isNumberChar rest
    simp only [List.length_cons]
    omega
  · have := length_dropWhile_le_self Char.isAlpha rest
    simp only [List.length_cons]
    omega
  · simp

/-- The tokens of a text. -/
def scan (text : String) : Except SyntaxError (List Token) := scanAfter [] text.toList

end Token

end BoundSql.Json
