import Electrostatics.Decimal.Numeral
import Electrostatics.Decimal.Rounding

namespace Electrostatics.Binary64

/-!
# The exact value of a double

A finite double is a whole significand times a power of two.  This module takes a
double apart into these two numbers, and in the other direction finds the double
nearest to a fraction, with a tie going to the even significand.  Both directions
work on the bits and on natural numbers only, so neither rounds twice.  Rounding a
double to a whole number goes there and back.
-/

/-- What the bits of a double say. -/
inductive Parts where
  | undefined : Parts
  | infinite (negative : Bool) : Parts
  | finite (negative : Bool) (significand : Nat) (exponent : Int) : Parts
  deriving Repr, DecidableEq

/-- A power of two. -/
def powerOfTwo (exponent : Nat) : Nat :=
  Nat.pow 2 exponent

/-- The exponent of the unit in the last place of the smallest doubles. -/
def leastExponent : Int := -1074

/-- The significand at which a double is normal. -/
def hiddenBit : Nat := powerOfTwo 52

/--
Take a double apart.  A finite one has the value `significand * 2 ^ exponent`, with
the sign kept apart so that the two zeros differ.
-/
def parts (value : Float) : Parts :=
  let bits := value.toBits.toNat
  let negative := decide (powerOfTwo 63 ≤ bits)
  let field := bits / hiddenBit % 2048
  let stored := bits % hiddenBit
  if field = 2047 then
    if stored = 0 then .infinite negative else .undefined
  else if field = 0 then
    .finite negative stored leastExponent
  else
    .finite negative (hiddenBit + stored) ((field : Int) - 1 + leastExponent)

/-- The largest `k` with `2 ^ k ≤ numerator / denominator`, for positive arguments. -/
def floorLog2 (numerator denominator : Nat) : Int :=
  let guess : Int := (numerator.log2 : Int) - (denominator.log2 : Int)
  let reached :=
    if 0 ≤ guess then
      denominator * powerOfTwo guess.toNat ≤ numerator
    else
      denominator ≤ numerator * powerOfTwo (-guess).toNat
  if reached then guess else guess - 1

/-- The sign bit of a double. -/
def signBit (negative : Bool) : Nat :=
  if negative then powerOfTwo 63 else 0

/-- The bits of positive infinity, also the first bit pattern that is too large to be finite. -/
def infinityBits : Nat := 2047 * hiddenBit

/-- The double of a sign and a bit pattern that saturates at infinity. -/
def ofMagnitudeBits (negative : Bool) (magnitude : Nat) : Float :=
  Float.ofBits (UInt64.ofNat (signBit negative + min magnitude infinityBits))

/--
The double nearest to a fraction.  The significand is rounded once at the exponent of
its unit; one that rounds up to the next power of two carries into the exponent field
by itself, because the fields are adjacent.
-/
def nearest (negative : Bool) (numerator denominator : Nat) : Float :=
  if numerator = 0 then
    ofMagnitudeBits negative 0
  else
    let unit := max (floorLog2 numerator denominator - 52) leastExponent
    let significand :=
      if 0 ≤ unit then
        roundQuotient .toEven numerator (denominator * powerOfTwo unit.toNat)
      else
        roundQuotient .toEven (numerator * powerOfTwo (-unit).toNat) denominator
    ofMagnitudeBits negative ((unit - leastExponent).toNat * hiddenBit + significand)

/--
The whole number nearest to a double, a half going away from zero and zero keeping the
sign.  A double without places behind the point is taken as it is.
-/
def roundToWhole (value : Float) : Float :=
  match parts value with
  | .finite negative significand exponent =>
      if exponent < 0 then
        nearest negative
          (roundQuotient .away significand (powerOfTwo (-exponent).toNat)) 1
      else
        value
  | .infinite _ => value
  | .undefined => value

/-- The number of decimal digits at which a magnitude surely over- or underflows. -/
def decimalReach : Int := 400

/--
The double nearest to a decimal with a sign.  Exponents far outside the range of
doubles are settled without writing the power of ten out.
-/
def ofDecimal (negative : Bool) (value : Decimal) : Float :=
  if value.coefficient = 0 then
    ofMagnitudeBits negative 0
  else
    let lowest := value.exponent + (value.coefficient.log2 : Int) / 4
    let highest := value.exponent + (value.coefficient.log2 : Int)
    if decimalReach < lowest then
      ofMagnitudeBits negative infinityBits
    else if highest < -decimalReach then
      ofMagnitudeBits negative 0
    else if 0 ≤ value.exponent then
      nearest negative (value.coefficient * Decimal.powerOfTen value.exponent.toNat) 1
    else
      nearest negative value.coefficient (Decimal.powerOfTen (-value.exponent).toNat)

end Electrostatics.Binary64
