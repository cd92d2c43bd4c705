namespace Electrostatics

/-!
# Decimal numbers and their written form

A number in a formula, on the command line or in a settings file is written in
decimal: digits with an optional point, then an optional exponent.  This module
measures such a numeral at the start of a text and reads its exact value.  No
rounding happens here; a number type rounds when it takes the value in.
-/

/-- The exact non-negative number `coefficient * 10 ^ exponent`. -/
structure Decimal where
  coefficient : Nat
  exponent : Int
  deriving Repr, DecidableEq, Inhabited

namespace Decimal

/-- A power of ten. -/
def powerOfTen (exponent : Nat) : Nat :=
  Nat.pow 10 exponent

/-- The run of decimal digits at the start of a text. -/
def leadingDigits (text : List Char) : List Char :=
  text.takeWhile Char.isDigit

/-- The number that a run of decimal digits writes, most significant first. -/
def digitsValue (digits : List Char) : Nat :=
  digits.foldl (fun value digit => 10 * value + (digit.toNat - '0'.toNat)) 0

/-- The length of an optional sign at the start of a text. -/
def signLength : List Char → Nat
  | '+' :: _ => 1
  | '-' :: _ => 1
  | _ => 0

/--
The length of the mantissa at the start of a text: digits with an optional point
and further digits, or a point followed by digits.  It is zero when no mantissa
starts there.
-/
def mantissaLength (text : List Char) : Nat :=
  let whole := (leadingDigits text).length
  match text.drop whole with
  | '.' :: afterPoint =>
      let fraction := (leadingDigits afterPoint).length
      if whole = 0 ∧ fraction = 0 then
        0
      else
        whole + 1 + fraction
  | _ => whole

/--
The length of an exponent at the start of a text: the letter e in either case, an
optional sign and digits.  Without a digit there is no exponent, so that a number
may be followed by the constant `e`.
-/
def exponentLength : List Char → Nat
  | [] => 0
  | mark :: afterMark =>
      if mark = 'e' ∨ mark = 'E' then
        let sign := signLength afterMark
        let digits := (leadingDigits (afterMark.drop sign)).length
        if digits = 0 then 0 else 1 + sign + digits
      else
        0

/-- The length of the longest numeral at the start of a text, zero when none starts there. -/
def numeralLength (text : List Char) : Nat :=
  let mantissa := mantissaLength text
  if mantissa = 0 then
    0
  else
    mantissa + exponentLength (text.drop mantissa)

/-- The digits behind the point of a mantissa. -/
def fractionDigits (text : List Char) : List Char :=
  match text.drop (leadingDigits text).length with
  | '.' :: afterPoint => leadingDigits afterPoint
  | _ => []

/-- The value of an exponent that is known to be complete or absent. -/
def exponentValue : List Char → Int
  | [] => 0
  | _ :: '-' :: digits => -(digitsValue (leadingDigits digits) : Int)
  | _ :: '+' :: digits => digitsValue (leadingDigits digits)
  | _ :: digits => digitsValue (leadingDigits digits)

/-- The exact value of a text that is a numeral as a whole. -/
def ofNumeral (text : List Char) : Decimal :=
  let fraction := fractionDigits text
  { coefficient := digitsValue (leadingDigits text ++ fraction)
    exponent := exponentValue (text.drop (mantissaLength text)) - (fraction.length : Int) }

/-- Read a whole text as an unsigned numeral. -/
def ofText? (text : List Char) : Option Decimal :=
  if text ≠ [] ∧ numeralLength text = text.length then
    some (ofNumeral text)
  else
    none

end Decimal

end Electrostatics
