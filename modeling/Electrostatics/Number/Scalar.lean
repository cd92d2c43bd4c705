import Electrostatics.Decimal.Numeral

namespace Electrostatics

/-!
# Number types

Every numerical rule of the library is written once, for any type with the
operations of `Scalar`.  The class asks for operations only and promises no law, so
a rule runs on doubles as it stands, while a statement about exact arithmetic reads
the same definition over a field.  The functions of analysis are a class of their
own, because exact fields need not have them.
-/

/-- Arithmetic, comparison and rounding, without any law. -/
class Scalar (α : Type) extends
    Add α, Sub α, Mul α, Div α, Neg α, NatCast α, BEq α, LT α, LE α where
  /-- Strict comparison can be decided. -/
  decideLT : DecidableLT α
  /-- Weak comparison can be decided. -/
  decideLE : DecidableLE α
  /-- The absolute value. -/
  magnitude : α → α
  /-- The nearest whole number that is not larger. -/
  floor : α → α
  /-- The nearest whole number that is not smaller. -/
  ceiling : α → α
  /-- The nearest whole number, a half going away from zero. -/
  round : α → α
  /-- Whether the value is an ordinary number, neither infinite nor undefined. -/
  isFinite : α → Bool
  /-- The whole part as a count: zero for negative and undefined values. -/
  toCount : α → Nat
  /-- The value of a decimal. -/
  ofDecimal : Decimal → α

/-- The functions and constants of analysis, without any law. -/
class Elementary (α : Type) where
  /-- The ratio of a circle's circumference to its diameter. -/
  circleRatio : α
  /-- The base of the natural logarithm. -/
  naturalBase : α
  sqrt : α → α
  sin : α → α
  cos : α → α
  asin : α → α
  acos : α → α
  atan : α → α
  sinh : α → α
  cosh : α → α
  tanh : α → α
  asinh : α → α
  acosh : α → α
  atanh : α → α
  exp : α → α
  ln : α → α
  log10 : α → α
  /-- The angle of the point whose height comes first and whose width second. -/
  atan2 : α → α → α
  /-- A power with a real exponent. -/
  power : α → α → α

namespace Scalar

variable {α : Type} [Scalar α]

/-- Strict comparison of a number type is decided by its own rule. -/
instance : DecidableLT α :=
  Scalar.decideLT

/-- Weak comparison of a number type is decided by its own rule. -/
instance : DecidableLE α :=
  Scalar.decideLE

/-- Whole-number literals of a number type, in scope where the namespace is opened. -/
scoped instance numeral (value : Nat) : OfNat α value :=
  ⟨(value : α)⟩

/-- A value compares equal to itself unless it is undefined. -/
def isNumber (value : α) : Bool :=
  value == value

/-- Whether a value is an ordinary whole number. -/
def isWhole (value : α) : Bool :=
  isFinite value && floor value == value

/-- The larger of a bound and a value; the bound when the value is undefined. -/
def atLeast (bound value : α) : α :=
  if bound < value then value else bound

/-- Hold a value within `limit` of zero; an undefined value passes. -/
def clamp (limit value : α) : α :=
  let raised := if value < -limit then -limit else value
  if limit < raised then limit else raised

/-- The quotient that stands above every ordinary number of doubles. -/
def unbounded : α :=
  (1 : α) / (0 : α)

/--
Multiply a product by a power, squaring the base and halving the exponent.  The last
square, which nothing would use, is not taken.
-/
def multiplyPower (product base : α) (exponent : Nat) : α :=
  let grown := if exponent % 2 = 1 then product * base else product
  if exponent / 2 = 0 then
    grown
  else
    multiplyPower grown (base * base) (exponent / 2)
termination_by exponent
decreasing_by omega

/-- A power with a whole exponent; a negative one divides at the end. -/
def powerInt (base : α) (exponent : Int) : α :=
  let product := multiplyPower (1 : α) base exponent.natAbs
  if exponent < 0 then 1 / product else product

/-- The whole number in a value that is known to hold one of moderate size. -/
def toWhole (value : α) : Int :=
  if value < 0 then -(toCount (-value) : Int) else (toCount value : Int)

end Scalar

end Electrostatics
