import Electrostatics.Number.Scalar
import Electrostatics.Decimal.Layout

namespace Electrostatics

/-!
# Doubles as a number type

Doubles carry the operations of `Scalar` and `Elementary` as the machine has them.
-/

/-- The arithmetic of doubles. -/
instance : Scalar Float where
  add := Float.add
  sub := Float.sub
  mul := Float.mul
  div := Float.div
  neg := Float.neg
  natCast := Float.ofNat
  beq := Float.beq
  lt := fun left right => left < right
  le := fun left right => left ≤ right
  decideLT := fun left right => Float.decLt left right
  decideLE := fun left right => Float.decLe left right
  magnitude := Float.abs
  floor := Float.floor
  ceiling := Float.ceil
  round := Binary64.roundToWhole
  isFinite := Float.isFinite
  toCount := fun value => value.toUInt64.toNat
  ofDecimal := Binary64.ofDecimal false

/-- The functions of analysis on doubles. -/
instance : Elementary Float where
  circleRatio := 3.141592653589793
  naturalBase := 2.718281828459045
  sqrt := Float.sqrt
  sin := Float.sin
  cos := Float.cos
  asin := Float.asin
  acos := Float.acos
  atan := Float.atan
  sinh := Float.sinh
  cosh := Float.cosh
  tanh := Float.tanh
  asinh := Float.asinh
  acosh := Float.acosh
  atanh := Float.atanh
  exp := Float.exp
  ln := Float.log
  log10 := Float.log10
  atan2 := Float.atan2
  power := Float.pow

/-- The plain text of a double: the shortest digits that read back, without an exponent. -/
def doubleText (value : Float) : String :=
  Decimal.Layout.plain.format value

/-- The scientific text of a double: the shortest digits that read back. -/
def doubleScientificText (value : Float) : String :=
  Decimal.Layout.scientific.format value

end Electrostatics
