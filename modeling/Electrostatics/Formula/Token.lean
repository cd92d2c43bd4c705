import Electrostatics.Decimal.Numeral

namespace Electrostatics

/-!
# Tokens of a formula

A formula is a sequence of lexemes between blanks.  A lexeme is always the longest
one that starts at its place, so its length is measured first and its token read
from that many characters.  The first character at which no lexeme starts is
reported with its byte offset.
-/

/-- A token of a formula. -/
inductive Token where
  | number (value : Decimal)
  | identifier (name : String)
  | plus
  | minus
  | star
  | slash
  | caret
  | doubleStar
  | leftParenthesis
  | rightParenthesis
  | comma
  deriving Repr, DecidableEq

/-- A token and the byte offset of its lexeme. -/
structure PlacedToken where
  token : Token
  position : Nat
  deriving Repr, DecidableEq

/-- A character at which no lexeme starts, and its byte offset. -/
structure StrayCharacter where
  character : Char
  position : Nat
  deriving Repr, DecidableEq

namespace Token

/-- The characters that may stand between lexemes. -/
def isBlank (character : Char) : Bool :=
  character == ' ' || character == '\t' || character == '\r' ||
    character == '\n' || character == '\x0c'

/-- The characters that may start a name. -/
def startsName (character : Char) : Bool :=
  character.isAlpha || character == '_'

/-- The characters that may continue a name. -/
def continuesName (character : Char) : Bool :=
  character.isAlphanum || character == '_'

/-- The length of the name at the start of a text, zero when none starts there. -/
def nameLength : List Char → Nat
  | [] => 0
  | first :: rest =>
      if startsName first then
        1 + (rest.takeWhile continuesName).length
      else
        0

/-- The operator or bracket of one character. -/
def ofSymbol? : Char → Option Token
  | '+' => some .plus
  | '-' => some .minus
  | '*' => some .star
  | '/' => some .slash
  | '^' => some .caret
  | '(' => some .leftParenthesis
  | ')' => some .rightParenthesis
  | ',' => some .comma
  | _ => none

/-- The length of the operator or bracket at the start of a text, zero when none starts there. -/
def symbolLength : List Char → Nat
  | '*' :: '*' :: _ => 2
  | first :: _ => if (ofSymbol? first).isSome then 1 else 0
  | [] => 0

/-- The length of the longest lexeme at the start of a text, zero when none starts there. -/
def lexemeLength (text : List Char) : Nat :=
  let number := Decimal.numeralLength text
  if number ≠ 0 then
    number
  else
    let name := nameLength text
    if name ≠ 0 then
      name
    else
      symbolLength text

/-- The token of a whole lexeme. -/
def ofLexeme (lexeme : List Char) : Token :=
  if Decimal.numeralLength lexeme ≠ 0 then
    .number (Decimal.ofNumeral lexeme)
  else if lexeme = ['*', '*'] then
    .doubleStar
  else
    match lexeme with
    | [only] => (ofSymbol? only).getD (.identifier (String.ofList lexeme))
    | _ => .identifier (String.ofList lexeme)

/-- The number of bytes that a text takes. -/
def byteLength : List Char → Nat
  | [] => 0
  | character :: rest => character.utf8Size + byteLength rest

/--
The tokens of a text from a byte offset on.  The first argument counts the
characters that still belong to the lexeme read last.
-/
def scanFrom :
    (pending position : Nat) →
    List Char →
    Except StrayCharacter (List PlacedToken)
  | _, _, [] => .ok []
  | pending + 1, position, character :: rest =>
      scanFrom pending (position + character.utf8Size) rest
  | 0, position, character :: rest =>
      let next := position + character.utf8Size
      if isBlank character then
        scanFrom 0 next rest
      else
        match lexemeLength (character :: rest) with
        | 0 => .error { character := character, position := position }
        | more + 1 =>
            let lexeme := (character :: rest).take (more + 1)
            (scanFrom more next rest).map
              (List.cons { token := ofLexeme lexeme, position := position })

/-- The tokens of a text, before products are made explicit. -/
def scan (text : List Char) : Except StrayCharacter (List PlacedToken) :=
  scanFrom 0 0 text

/-- Whether a product sign is understood between two neighbouring tokens. -/
def impliesProduct : Token → Token → Bool
  | .number _, .identifier _ => true
  | .rightParenthesis, .number _ => true
  | .rightParenthesis, .identifier _ => true
  | .rightParenthesis, .leftParenthesis => true
  | _, _ => false

/-- Write the understood product signs out, each at the place of the token behind it. -/
def insertProducts : List PlacedToken → List PlacedToken
  | [] => []
  | [only] => [only]
  | first :: second :: rest =>
      if impliesProduct first.token second.token then
        first :: { token := .star, position := second.position } ::
          insertProducts (second :: rest)
      else
        first :: insertProducts (second :: rest)

/-- The tokens of a formula with every product sign written out. -/
def tokenize (formula : String) : Except StrayCharacter (List PlacedToken) :=
  (scan formula.toList).map insertProducts

end Token

end Electrostatics
