import Electrostatics.Formula.Expr
import Electrostatics.Formula.Fault
import Electrostatics.Number.Scalar

namespace Electrostatics

/-!
# The value of a formula at a point

Evaluation is strict and goes from left to right, so the first operand that has no
value decides the error.  It runs over every number type.
-/

open scoped Scalar

/-- A point: three Cartesian coordinates and the distance that the caller supplies. -/
structure Point (α : Type) where
  x : α
  y : α
  z : α
  r : α
  deriving Repr

variable {α : Type}

/-- A value, unless its argument is outside the domain of a function. -/
def UnaryFunction.unless
    (function : UnaryFunction)
    (outside : Bool)
    (value : α) :
    Except EvaluationError α :=
  if outside then .error (.outsideDomain function) else .ok value

variable [Scalar α]

/-- The sign of a value as a number; zero for an undefined one. -/
def signOf (value : α) : α :=
  if 0 < value then 1 else if value < 0 then -1 else 0

variable [Elementary α]

/-- The distance of a position from the third axis. -/
def axialDistance (x y : α) : α :=
  Elementary.sqrt (x * x + y * y)

/-- The value of a coordinate at a point. -/
def Point.coordinate (point : Point α) : Coordinate → α
  | .x => point.x
  | .y => point.y
  | .z => point.z
  | .r => point.r
  | .rho =>
      Elementary.sqrt (point.x * point.x + point.y * point.y + point.z * point.z)
  | .theta => Elementary.atan2 point.z (axialDistance point.x point.y)
  | .phi => Elementary.atan2 point.y point.x

/-- The value of a constant. -/
def Constant.value {α : Type} [Elementary α] : Constant → α
  | .circleRatio => Elementary.circleRatio
  | .naturalBase => Elementary.naturalBase

/-- Apply a function of one argument. -/
def UnaryFunction.apply
    (function : UnaryFunction)
    (x : α) :
    Except EvaluationError α :=
  match function with
  | .sin => .ok (Elementary.sin x)
  | .cos => .ok (Elementary.cos x)
  | .tan =>
      function.unless (Elementary.cos x == 0) (Elementary.sin x / Elementary.cos x)
  | .cot =>
      function.unless (Elementary.sin x == 0) (Elementary.cos x / Elementary.sin x)
  | .sec => function.unless (Elementary.cos x == 0) (1 / Elementary.cos x)
  | .csc => function.unless (Elementary.sin x == 0) (1 / Elementary.sin x)
  | .asin => function.unless (1 < Scalar.magnitude x) (Elementary.asin x)
  | .acos => function.unless (1 < Scalar.magnitude x) (Elementary.acos x)
  | .atan => .ok (Elementary.atan x)
  | .sinh => .ok (Elementary.sinh x)
  | .cosh => .ok (Elementary.cosh x)
  | .tanh => .ok (Elementary.tanh x)
  | .sech => .ok (1 / Elementary.cosh x)
  | .csch => function.unless (x == 0) (1 / Elementary.sinh x)
  | .coth => function.unless (x == 0) (1 / Elementary.tanh x)
  | .asinh => .ok (Elementary.asinh x)
  | .acosh => function.unless (x < 1) (Elementary.acosh x)
  | .atanh => function.unless (1 ≤ Scalar.magnitude x) (Elementary.atanh x)
  | .sqrt => function.unless (x < 0) (Elementary.sqrt x)
  | .abs => .ok (Scalar.magnitude x)
  | .ln => function.unless (x ≤ 0) (Elementary.ln x)
  | .log10 => function.unless (x ≤ 0) (Elementary.log10 x)
  | .exp => .ok (Elementary.exp x)
  | .sgn => .ok (signOf x)
  | .floor => .ok (Scalar.floor x)
  | .ceil => .ok (Scalar.ceiling x)
  | .round => .ok (Scalar.round x)
  | .step => .ok (if 0 ≤ x then 1 else 0)

/-- Apply a function of two arguments. -/
def BinaryFunction.apply (function : BinaryFunction) (first second : α) : α :=
  match function with
  | .atan2 => Elementary.atan2 first second
  | .sign =>
      if second < 0 then -Scalar.magnitude first else Scalar.magnitude first

/-- The largest exponent that is taken as a whole number. -/
def wholeExponentLimit : Nat := 2147483647

/--
A power.  A whole exponent of moderate size multiplies, so that it also suits a
negative base; any other exponent needs the power function.
-/
def raise (base exponent : α) : Except EvaluationError α :=
  if base < 0 ∧ Scalar.isWhole exponent = false then
    .error .fractionalPower
  else if base == 0 ∧ exponent < 0 then
    .error .divisionByZero
  else if Scalar.isWhole exponent ∧
      Scalar.magnitude exponent ≤ (wholeExponentLimit : α) then
    .ok (Scalar.powerInt base (Scalar.toWhole exponent))
  else
    .ok (Elementary.power base exponent)

/-- Apply an operator. -/
def BinaryOperator.apply
    (operator : BinaryOperator)
    (left right : α) :
    Except EvaluationError α :=
  match operator with
  | .add => .ok (left + right)
  | .sub => .ok (left - right)
  | .mul => .ok (left * right)
  | .div => if right == 0 then .error .divisionByZero else .ok (left / right)
  | .pow => raise left right

/-- The value of a tree at a point. -/
def Expr.evaluate (point : Point α) : Expr → Except EvaluationError α
  | .number value => .ok (Scalar.ofDecimal value)
  | .constant name => .ok name.value
  | .coordinate name => .ok (point.coordinate name)
  | .negation operand => do
      let value ← operand.evaluate point
      .ok (-value)
  | .operation operator left right => do
      let first ← left.evaluate point
      let second ← right.evaluate point
      operator.apply first second
  | .call function argument => do
      let value ← argument.evaluate point
      function.apply value
  | .callPair function first second => do
      let left ← first.evaluate point
      let right ← second.evaluate point
      .ok (function.apply left right)

end Electrostatics
