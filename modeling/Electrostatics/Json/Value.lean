import Electrostatics.Decimal.Numeral

namespace Electrostatics

/-!
# JSON values

Settings come in and results go out as JSON.  A number keeps its literal, so that
nothing is lost between reading and interpreting it, and an object keeps its members
in order and with repetitions.  Escapes can name half of a surrogate pair, which is
no character; what holds such a half is a value, but one that nothing can be read from.
-/

/-- A JSON value. -/
inductive Json where
  | null
  | boolean (value : Bool)
  | number (literal : String)
  | string (value : String)
  | array (items : List Json)
  | object (members : List (String × Json))
  /-- A string with half of a surrogate pair, or an object with such a string for a name. -/
  | unreadable
  deriving Inhabited

namespace Json

/-- The values of the members of a name, in order. -/
def membersNamed (name : String) (members : List (String × Json)) : List Json :=
  (members.filter (fun member => member.1 == name)).map Prod.snd

/-- The length of the whole part of a number literal: a zero, or digits that start with another. -/
def wholeLength : List Char → Nat
  | '0' :: _ => 1
  | text => (Decimal.leadingDigits text).length

/-- Whether a text is empty or a complete exponent. -/
def isExponent (text : List Char) : Bool :=
  Decimal.exponentLength text = text.length

/-- Whether a text is a number literal without its sign. -/
def isUnsignedNumber (text : List Char) : Bool :=
  let whole := wholeLength text
  if whole = 0 then
    false
  else
    match text.drop whole with
    | '.' :: afterPoint =>
        let fraction := (Decimal.leadingDigits afterPoint).length
        fraction ≠ 0 && isExponent (afterPoint.drop fraction)
    | rest => isExponent rest

/-- Whether a text is a number literal. -/
def isNumberLiteral : List Char → Bool
  | '-' :: rest => isUnsignedNumber rest
  | text => isUnsignedNumber text

/-- The sign and the exact magnitude of a number. -/
def decimal? : Json → Option (Bool × Decimal)
  | .number literal =>
      match literal.toList with
      | '-' :: rest => some (true, Decimal.ofNumeral rest)
      | text => some (false, Decimal.ofNumeral text)
  | _ => none

/-- The number of items or samples that a literal without sign, point and exponent states. -/
def natural? : Json → Option Nat
  | .number literal =>
      let text := literal.toList
      if text.all Char.isDigit then some (Decimal.digitsValue text) else none
  | _ => none

end Json

end Electrostatics
