import Electrostatics.Formula.Token
import Electrostatics.Formula.Vocabulary
import Electrostatics.Number.Double

namespace Electrostatics

/-!
# What can be wrong with a formula

A formula is rejected for a `ParseError`; an accepted one can still have no value at
a point, for an `EvaluationError`.  The wording of both is here and nowhere else.
-/

/-- What the parser could have accepted where it met something else. -/
inductive Expectation where
  | operand
  | argumentList
  | closing
  | nextArgument
  | endOfFormula
  deriving Repr, DecidableEq

/-- The wording of an expectation. -/
def Expectation.text : Expectation → String
  | .operand => "a number, variable, function or '('"
  | .argumentList => "'(' after function name"
  | .closing => "')'"
  | .nextArgument => "',' or ')'"
  | .endOfFormula => "an operator or end of formula"

/-- Why a formula is rejected; positions are byte offsets. -/
inductive ParseError where
  | empty
  | unknownSymbol (name : String) (position : Nat)
  | unexpectedCharacter (found : Char) (position : Nat)
  | unexpectedToken (found : Token) (expected : Expectation) (position : Nat)
  | unexpectedEnd (expected : Expectation)
  | wrongArity (callable : Callable) (found : Nat)
  | invalidVariable (name : String)
  deriving Repr, DecidableEq

/-- The text of a token in an error; a number is shown as the double it stands for. -/
def Token.text : Token → String
  | .number value => doubleText (Binary64.ofDecimal false value)
  | .identifier name => name
  | .plus => "+"
  | .minus => "-"
  | .star => "*"
  | .slash => "/"
  | .caret => "^"
  | .doubleStar => "**"
  | .leftParenthesis => "("
  | .rightParenthesis => ")"
  | .comma => ","

/-- The wording of a parse error. -/
def ParseError.message : ParseError → String
  | .empty => "formula is empty"
  | .unknownSymbol name position =>
      "unknown symbol '" ++ name ++ "' at position " ++ toString position
  | .unexpectedCharacter found position =>
      "unexpected character '" ++ String.singleton found ++
        "' at position " ++ toString position
  | .unexpectedToken found expected position =>
      "unexpected '" ++ found.text ++ "' at position " ++ toString position ++
        ", expected " ++ expected.text
  | .unexpectedEnd expected =>
      "formula ended unexpectedly, expected " ++ expected.text
  | .wrongArity callable found =>
      callable.name ++ "() takes " ++ callable.arityText ++
        " argument(s), got " ++ toString found
  | .invalidVariable name =>
      "'" ++ name ++
        "' cannot be bound as a variable (use x, y, z, r, rho, theta or phi)"

/-- Why an accepted formula has no value at a point. -/
inductive EvaluationError where
  /-- An argument outside the domain of a function. -/
  | outsideDomain (function : UnaryFunction)
  /-- A negative base with an exponent that is no whole number. -/
  | fractionalPower
  | divisionByZero
  /-- A result too large for the number type, or undefined. -/
  | notFinite
  deriving Repr, DecidableEq

/-- What is wrong with an argument outside the domain of a function. -/
def UnaryFunction.domainText : UnaryFunction → String
  | .tan => "infinite for x = pi/2 + n*pi"
  | .sec => "infinite for x = pi/2 + n*pi"
  | .cot => "infinite for x = n*pi"
  | .csc => "infinite for x = n*pi"
  | .asin => "undefined for |x| > 1"
  | .acos => "undefined for |x| > 1"
  | .csch => "infinite for x = 0"
  | .coth => "infinite for x = 0"
  | .acosh => "complex value for x < 1"
  | .atanh => "undefined for |x| >= 1"
  | .sqrt => "undefined for x < 0"
  | .ln => "undefined for x <= 0"
  | .log10 => "undefined for x <= 0"
  | _ => "undefined"

/-- The wording of an evaluation error. -/
def EvaluationError.message : EvaluationError → String
  | .outsideDomain function => function.name ++ "(x): " ++ function.domainText
  | .fractionalPower =>
      "pow(x): undefined for negative base with non-integer exponent"
  | .divisionByZero => "division by zero"
  | .notFinite => "result is not a finite number"

end Electrostatics
