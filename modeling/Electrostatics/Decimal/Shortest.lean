import Electrostatics.Decimal.Binary64

namespace Electrostatics.Decimal

/-!
# Decimal digits of a double

Three questions are answered here in whole-number arithmetic: which decimal with a
given number of significant digits is nearest to a fraction, which with a given
number of places, and which is the shortest decimal that reads back as the same
double.
-/

/-- Compare `left * 10 ^ exponent` with a fraction. -/
def compareToFraction
    (left : Nat)
    (exponent : Int)
    (numerator denominator : Nat) :
    Ordering :=
  if 0 ≤ exponent then
    compare (left * powerOfTen exponent.toNat * denominator) numerator
  else
    compare (left * denominator) (numerator * powerOfTen (-exponent).toNat)

/-- Move an estimate of a decimal exponent down while its power of ten is too large. -/
def lowerExponent (numerator denominator : Nat) : Nat → Int → Int
  | 0, exponent => exponent
  | steps + 1, exponent =>
      if compareToFraction 1 exponent numerator denominator = .gt then
        lowerExponent numerator denominator steps (exponent - 1)
      else
        exponent

/-- Move an estimate of a decimal exponent up while the next power of ten still fits. -/
def raiseExponent (numerator denominator : Nat) : Nat → Int → Int
  | 0, exponent => exponent
  | steps + 1, exponent =>
      if compareToFraction 1 (exponent + 1) numerator denominator = .gt then
        exponent
      else
        raiseExponent numerator denominator steps (exponent + 1)

/--
The exponent of the leading decimal digit of a positive fraction.  The binary
logarithm gives an estimate that is off by at most one within the range of doubles;
both directions are then corrected.
-/
def leadingExponent (numerator denominator : Nat) : Int :=
  let estimate := Binary64.floorLog2 numerator denominator * 30103 / 100000
  raiseExponent numerator denominator 4 (lowerExponent numerator denominator 4 estimate)

/-- A fraction divided by a power of ten, as a numerator and a denominator. -/
def scaledFraction (numerator denominator : Nat) (exponent : Int) : Nat × Nat :=
  if 0 ≤ exponent then
    (numerator, denominator * powerOfTen exponent.toNat)
  else
    (numerator * powerOfTen (-exponent).toNat, denominator)

/-- Move trailing zeros of the coefficient into the exponent, at most as many as given. -/
def trimZeros : Nat → Decimal → Decimal
  | 0, value => value
  | steps + 1, value =>
      if value.coefficient ≠ 0 ∧ value.coefficient % 10 = 0 then
        trimZeros steps
          { coefficient := value.coefficient / 10
            exponent := value.exponent + 1 }
      else
        value

/--
A positive fraction rounded to a number of significant digits, a tie going to the
even digit.  Rounding up to a power of ten keeps the number of digits.
-/
def toSignificant (digits numerator denominator : Nat) : Decimal :=
  let exponent := leadingExponent numerator denominator - (digits : Int) + 1
  let scaled := scaledFraction numerator denominator exponent
  let rounded := roundQuotient .toEven scaled.1 scaled.2
  if rounded = powerOfTen digits then
    { coefficient := powerOfTen (digits - 1)
      exponent := exponent + 1 }
  else
    { coefficient := rounded
      exponent := exponent }

/-- A fraction rounded to a number of decimal places, a tie going to the even digit. -/
def toPlaces (places numerator denominator : Nat) : Decimal :=
  { coefficient := roundQuotient .toEven (numerator * powerOfTen places) denominator
    exponent := -(places : Int) }

/-- A finite magnitude `significand * 2 ^ exponent` as a numerator and a denominator. -/
def fractionOf (significand : Nat) (exponent : Int) : Nat × Nat :=
  if 0 ≤ exponent then
    (significand * Binary64.powerOfTwo exponent.toNat, 1)
  else
    (significand, Binary64.powerOfTwo (-exponent).toNat)

/--
The reals that read back as a given double, written with four times the fraction of
the double so that both ends are whole.  The ends belong to it when a tie goes to
this double.
-/
structure ReadBack where
  low : Nat
  value : Nat
  high : Nat
  denominator : Nat
  closed : Bool

/--
The reals nearest to a positive double.  Below a power of two the doubles lie twice
as dense, so the gap there is halved, except at the smallest exponent.
-/
def readBack (significand : Nat) (exponent : Int) : ReadBack :=
  let scale := if 0 ≤ exponent then Binary64.powerOfTwo exponent.toNat else 1
  let denominator := if 0 ≤ exponent then 1 else Binary64.powerOfTwo (-exponent).toNat
  let dense :=
    decide (significand = Binary64.hiddenBit ∧ Binary64.leastExponent < exponent)
  { low := (4 * significand - (if dense then 1 else 2)) * scale
    value := 4 * significand * scale
    high := (4 * significand + 2) * scale
    denominator := 4 * denominator
    closed := significand % 2 = 0 }

/-- Whether the decimal `left * 10 ^ exponent` reads back as the double. -/
def ReadBack.holds (interval : ReadBack) (left : Nat) (exponent : Int) : Bool :=
  let fromLow := compareToFraction left exponent interval.low interval.denominator
  let fromHigh := compareToFraction left exponent interval.high interval.denominator
  if interval.closed then
    fromLow != .lt && fromHigh != .gt
  else
    fromLow == .gt && fromHigh == .lt

/--
Of the two multiples of a power of ten around the double, one that reads back as it:
the nearer one when both do, and the one that the tie asks for when they are equally
near.
-/
def ReadBack.onGrid? (tie : Tie) (interval : ReadBack) (exponent : Int) : Option Decimal :=
  let scaled := scaledFraction interval.value interval.denominator exponent
  let below := scaled.1 / scaled.2
  let nearest := roundQuotient tie scaled.1 scaled.2
  let other := if nearest = below then below + 1 else below
  if interval.holds nearest exponent then
    some { coefficient := nearest, exponent := exponent }
  else if interval.holds other exponent then
    some { coefficient := other, exponent := exponent }
  else
    none

/-- Try finer and finer grids, `steps` of them, starting at a power of ten. -/
def ReadBack.search (tie : Tie) (interval : ReadBack) : Nat → Int → Decimal
  | 0, exponent =>
      let scaled := scaledFraction interval.value interval.denominator exponent
      { coefficient := roundQuotient tie scaled.1 scaled.2
        exponent := exponent }
  | steps + 1, exponent =>
      match interval.onGrid? tie exponent with
      | some found => found
      | none => interval.search tie steps (exponent - 1)

/--
The shortest decimal that reads back as a positive finite double, and of those of
that length the nearest; of two equally near ones the tie decides.  Seventeen digits
always suffice.
-/
def shortest (tie : Tie) (significand : Nat) (exponent : Int) : Decimal :=
  let interval := readBack significand exponent
  let leading := leadingExponent interval.value interval.denominator
  trimZeros 20 (interval.search tie 16 leading)

end Electrostatics.Decimal
