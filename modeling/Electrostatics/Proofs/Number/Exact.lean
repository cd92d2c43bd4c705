import Mathlib.Algebra.Order.Floor.Ring
import Mathlib.Algebra.Order.Ring.Abs
import Mathlib.Algebra.Order.Round
import Mathlib.Tactic.FieldSimp
import Mathlib.Tactic.Ring
import Electrostatics.Proofs.Number.Clamp

namespace Electrostatics.Exact

/-!
# Exact arithmetic

Every rule of the library can be read over an ordered field, such as the rational or the
real numbers.  There nothing is rounded and every number is finite.  The instance is
scoped, and where its scope is open the operations of a field are written as its own; they
are those of the number type by definition.
-/

variable {K : Type} [Field K] [LinearOrder K] [FloorRing K]

/-- A power function that multiplies where the exponent counts factors. -/
class WholePowers (K : Type) [Field K] [Elementary K] : Prop where
  power_natCast :
    ∀ (base : K) (count : Nat), Elementary.power base (count : K) = base ^ count

/-- The nearest whole number, a half going away from zero. -/
def roundHalfAway (value : K) : K :=
  if value < 0 then -(round (-value) : K) else (round value : K)

/-- The arithmetic of an ordered field as a number type. -/
scoped instance arithmetic : Scalar K where
  decideLT := inferInstance
  decideLE := inferInstance
  beq := fun left right => decide (left = right)
  magnitude := fun value => |value|
  floor := fun value => (⌊value⌋ : K)
  ceiling := fun value => (⌈value⌉ : K)
  round := roundHalfAway
  isFinite := fun _ => true
  toCount := fun value => ⌊value⌋.toNat
  ofDecimal := fun value => (value.coefficient : K) * (10 : K) ^ value.exponent

attribute [scoped instance (low)]
  Scalar.toAdd Scalar.toSub Scalar.toMul Scalar.toDiv Scalar.toNeg Scalar.toNatCast
  Scalar.toBEq Scalar.toLT Scalar.toLE Scalar.instDecidableLT Scalar.instDecidableLE

open scoped Exact

/-! ## The rules of number types over a field -/

@[simp]
theorem numeral_zero : @OfNat.ofNat K 0 (Scalar.numeral 0) = 0 :=
  Nat.cast_zero

@[simp]
theorem numeral_one : @OfNat.ofNat K 1 (Scalar.numeral 1) = 1 :=
  Nat.cast_one

@[simp]
theorem numeral_ofNat
    (count : Nat)
    [count.AtLeastTwo] :
    @OfNat.ofNat K count (Scalar.numeral count) = OfNat.ofNat count :=
  rfl

omit [LinearOrder K] [FloorRing K] in
/-- The odd bit of an exponent takes the base in once. -/
theorem grown_eq
    (product base : K)
    (exponent : Nat) :
    (if exponent % 2 = 1 then product * base else product) =
      product * base ^ (exponent % 2) := by
  rcases Nat.mod_two_eq_zero_or_one exponent with even | odd
  · simp [even]
  · simp [odd]

theorem multiplyPower_eq
    (product base : K)
    (exponent : Nat) :
    Scalar.multiplyPower product base exponent = product * base ^ exponent := by
  fun_induction Scalar.multiplyPower product base exponent with
  | case1 product base exponent grown last =>
      have bit : exponent % 2 = exponent := by omega
      exact (grown_eq product base exponent).trans (by rw [bit])
  | case2 product base exponent grown more inductionHypothesis =>
      have halves : exponent % 2 + 2 * (exponent / 2) = exponent := Nat.mod_add_div exponent 2
      calc
        Scalar.multiplyPower grown (base * base) (exponent / 2)
            = grown * (base * base) ^ (exponent / 2) := inductionHypothesis
        _ = product * base ^ (exponent % 2) * (base * base) ^ (exponent / 2) :=
          congrArg (· * (base * base) ^ (exponent / 2)) (grown_eq product base exponent)
        _ = product * base ^ exponent := by
          rw [← pow_two, ← pow_mul, mul_assoc, ← pow_add, halves]

/-- A whole power is the power of the field. -/
theorem powerInt_eq
    (base : K)
    (exponent : Int) :
    Scalar.powerInt base exponent = base ^ exponent := by
  simp only [Scalar.powerInt, multiplyPower_eq, numeral_one, one_mul]
  split
  case isTrue negative =>
    obtain ⟨count, rfl⟩ := Int.exists_eq_neg_ofNat negative.le
    simp
  case isFalse positive =>
    obtain ⟨count, rfl⟩ := Int.eq_ofNat_of_zero_le (not_lt.mp positive)
    simp

variable [IsStrictOrderedRing K]

/-- A whole number that is held at least at another one is the larger of the two. -/
theorem floor_atLeast (bound whole : Int) :
    ⌊Scalar.atLeast (bound : K) (whole : K)⌋ = max bound whole := by
  unfold Scalar.atLeast
  by_cases beyond : bound < whole
  · rw [if_pos (Int.cast_lt.mpr beyond), Int.floor_intCast, max_eq_right beyond.le]
  · rw [if_neg (mt Int.cast_lt.mp beyond), Int.floor_intCast, max_eq_left (not_lt.mp beyond)]

/-- A value within the limit is not changed by it. -/
theorem clamp_eq_self
    {limit value : K}
    (within : |value| ≤ limit) :
    Scalar.clamp limit value = value := by
  obtain ⟨above, below⟩ := abs_le.mp within
  exact Scalar.clamp_of_within ⟨not_lt.mpr above, not_lt.mpr below⟩

end Electrostatics.Exact
