namespace Electrostatics

/-!
# The vocabulary of formulas

A formula speaks of seven coordinates, two constants and a closed list of
functions.  Every other name is unknown, which is what makes formulas safe to
accept from a user.
-/

/-- A coordinate that a formula may read. -/
inductive Coordinate where
  | x
  | y
  | z
  /-- The distance handed in by the caller. -/
  | r
  /-- The distance from the origin. -/
  | rho
  /-- The elevation above the plane of the first two coordinates. -/
  | theta
  /-- The azimuth. -/
  | phi
  deriving Repr, DecidableEq

namespace Coordinate

/-- Every coordinate, in the order in which they are listed to a user. -/
def all : List Coordinate :=
  [.x, .y, .z, .r, .rho, .theta, .phi]

/-- The name of a coordinate in a formula. -/
def name : Coordinate → String
  | .x => "x"
  | .y => "y"
  | .z => "z"
  | .r => "r"
  | .rho => "rho"
  | .theta => "theta"
  | .phi => "phi"

/-- The coordinate of a name. -/
def named? (name : String) : Option Coordinate :=
  all.find? (fun coordinate => coordinate.name == name)

end Coordinate

/-- A named constant. -/
inductive Constant where
  | circleRatio
  | naturalBase
  deriving Repr, DecidableEq

/-- A function of one argument. -/
inductive UnaryFunction where
  | sin
  | cos
  | tan
  | cot
  | sec
  | csc
  | asin
  | acos
  | atan
  | sinh
  | cosh
  | tanh
  | sech
  | csch
  | coth
  | asinh
  | acosh
  | atanh
  | sqrt
  | abs
  | ln
  | log10
  | exp
  /-- The sign of the argument. -/
  | sgn
  | floor
  | ceil
  | round
  /-- The step from zero to one at the origin. -/
  | step
  deriving Repr, DecidableEq

namespace UnaryFunction

/-- The name under which a function is written back. -/
def name : UnaryFunction → String
  | .sin => "sin"
  | .cos => "cos"
  | .tan => "tan"
  | .cot => "cot"
  | .sec => "sec"
  | .csc => "csc"
  | .asin => "asin"
  | .acos => "acos"
  | .atan => "atan"
  | .sinh => "sinh"
  | .cosh => "cosh"
  | .tanh => "tanh"
  | .sech => "sech"
  | .csch => "csch"
  | .coth => "coth"
  | .asinh => "asinh"
  | .acosh => "acosh"
  | .atanh => "atanh"
  | .sqrt => "sqrt"
  | .abs => "abs"
  | .ln => "ln"
  | .log10 => "log10"
  | .exp => "exp"
  | .sgn => "sgn"
  | .floor => "floor"
  | .ceil => "ceil"
  | .round => "round"
  | .step => "h"

/-- Every function of one argument. -/
def all : List UnaryFunction :=
  [.sin, .cos, .tan, .cot, .sec, .csc, .asin, .acos, .atan,
    .sinh, .cosh, .tanh, .sech, .csch, .coth, .asinh, .acosh, .atanh,
    .sqrt, .abs, .ln, .log10, .exp, .sgn, .floor, .ceil, .round, .step]

/-- The function of a name; the natural logarithm and the step have a second spelling each. -/
def named? (name : String) : Option UnaryFunction :=
  if name = "log" then
    some .ln
  else if name = "step" then
    some .step
  else
    all.find? (fun function => function.name == name)

end UnaryFunction

/-- A function of two arguments. -/
inductive BinaryFunction where
  /-- The angle of a point, its height given first. -/
  | atan2
  /-- The magnitude of the first argument with the sign of the second. -/
  | sign
  deriving Repr, DecidableEq

/-- The name of a function of two arguments. -/
def BinaryFunction.name : BinaryFunction → String
  | .atan2 => "atan2"
  | .sign => "sign"

/-- A binary operator. -/
inductive BinaryOperator where
  | add
  | sub
  | mul
  | div
  | pow
  deriving Repr, DecidableEq

/-- The sign of an operator in the text of a tree. -/
def BinaryOperator.text : BinaryOperator → String
  | .add => "+"
  | .sub => "-"
  | .mul => "*"
  | .div => "/"
  | .pow => "^"

/-- What may stand before a list of arguments. -/
inductive Callable where
  | unary (function : UnaryFunction)
  | atan2
  /-- The sign of one argument, or the transfer of a sign between two. -/
  | sign
  deriving Repr, DecidableEq

/-- The name of a callable in an error about its arguments. -/
def Callable.name : Callable → String
  | .unary function => function.name
  | .atan2 => BinaryFunction.atan2.name
  | .sign => BinaryFunction.sign.name

/-- The numbers of arguments that a callable takes, as they are told to a user. -/
def Callable.arityText : Callable → String
  | .unary _ => "1"
  | .atan2 => "2"
  | .sign => "1 or 2"

/-- What a name stands for. -/
inductive Meaning where
  | coordinate (coordinate : Coordinate)
  | constant (constant : Constant)
  | callable (callable : Callable)
  deriving Repr, DecidableEq

/--
The meaning of a name.  Only the circle ratio may be written in either case.
-/
def Meaning.named? (name : String) : Option Meaning :=
  match Coordinate.named? name with
  | some found => some (.coordinate found)
  | none =>
      if name.toList.map Char.toLower = ['p', 'i'] then
        some (.constant .circleRatio)
      else if name = "e" then
        some (.constant .naturalBase)
      else if name = "atan2" then
        some (.callable .atan2)
      else if name = "sign" then
        some (.callable .sign)
      else
        (UnaryFunction.named? name).map (fun function => .callable (.unary function))

end Electrostatics
