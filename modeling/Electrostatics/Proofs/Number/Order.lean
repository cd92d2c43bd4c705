import Electrostatics.Proofs.Number.Exact

namespace Electrostatics

/-!
# The order of numbers

A number type may have undefined values, and these compare to nothing.  All other values
are in order, as they are over an ordered field and as doubles are.  Holding a number
within a limit puts it between the limits.
-/

open scoped Scalar

/-- A number type whose comparisons order all values that are not undefined. -/
class OrderedNumbers (α : Type) [Scalar α] : Prop where
  isFinite_zero : Scalar.isFinite (0 : α) = true
  isNumber_of_isFinite :
    ∀ {value : α}, Scalar.isFinite value = true → Scalar.isNumber value = true
  isNumber_of_pos : ∀ {value : α}, 0 < value → Scalar.isNumber value = true
  isNumber_neg : ∀ {value : α}, Scalar.isNumber value = true → Scalar.isNumber (-value) = true
  lt_irrefl : ∀ value : α, ¬ value < value
  le_of_not_lt :
    ∀ {first second : α},
      Scalar.isNumber first = true →
      Scalar.isNumber second = true →
      ¬ first < second →
      second ≤ first
  neg_le_self : ∀ {value : α}, 0 < value → -value ≤ value

/-- A number type whose numbers stand in one line, with the undefined values beside it. -/
class LinearNumbers (α : Type) [Scalar α] : Prop extends OrderedNumbers α where
  isNumber_of_lt :
    ∀ {first second : α}, first < second →
      Scalar.isNumber first = true ∧ Scalar.isNumber second = true
  le_of_lt : ∀ {first second : α}, first < second → first ≤ second
  le_trans : ∀ {first second third : α}, first ≤ second → second ≤ third → first ≤ third

namespace OrderedNumbers

variable {α : Type} [Scalar α] [OrderedNumbers α]

theorem isNumber_zero : Scalar.isNumber (0 : α) = true :=
  isNumber_of_isFinite isFinite_zero

/-- Every number is at most itself. -/
theorem le_refl
    {value : α}
    (number : Scalar.isNumber value = true) :
    value ≤ value :=
  le_of_not_lt number number (lt_irrefl value)

end OrderedNumbers

namespace Scalar

variable {α : Type} [Scalar α] [OrderedNumbers α]

/-- A number that is held within a limit lies between the limits. -/
theorem clamp_between
    {limit value : α}
    (positive : 0 < limit)
    (number : isNumber value = true) :
    -limit ≤ clamp limit value ∧ clamp limit value ≤ limit := by
  have limitNumber := OrderedNumbers.isNumber_of_pos positive
  have negativeNumber := OrderedNumbers.isNumber_neg limitNumber
  have crosses := OrderedNumbers.neg_le_self positive
  by_cases below : value < -limit
  · by_cases crossed : limit < -limit
    · have held : clamp limit value = limit := by simp [clamp, below, crossed]
      rw [held]
      exact ⟨crosses, OrderedNumbers.le_refl limitNumber⟩
    · have held : clamp limit value = -limit := by simp [clamp, below, crossed]
      rw [held]
      exact ⟨OrderedNumbers.le_refl negativeNumber, crosses⟩
  · by_cases above : limit < value
    · have held : clamp limit value = limit := by simp [clamp, below, above]
      rw [held]
      exact ⟨crosses, OrderedNumbers.le_refl limitNumber⟩
    · rw [clamp_of_within ⟨below, above⟩]
      exact
        ⟨OrderedNumbers.le_of_not_lt number negativeNumber below,
          OrderedNumbers.le_of_not_lt limitNumber number above⟩

end Scalar

open scoped Exact

/-- An ordered field has no undefined values, so all of them are in order. -/
instance Exact.orderedNumbers
    {K : Type}
    [Field K]
    [LinearOrder K]
    [FloorRing K]
    [IsStrictOrderedRing K] :
    OrderedNumbers K where
  isFinite_zero := rfl
  isNumber_of_isFinite _ := decide_eq_true rfl
  isNumber_of_pos _ := decide_eq_true rfl
  isNumber_neg _ := decide_eq_true rfl
  lt_irrefl value := lt_irrefl value
  le_of_not_lt _ _ notLess := not_lt.mp notLess
  neg_le_self positive := by
    rw [Exact.numeral_zero] at positive
    exact neg_le_self positive.le

instance Exact.linearNumbers
    {K : Type}
    [Field K]
    [LinearOrder K]
    [FloorRing K]
    [IsStrictOrderedRing K] :
    LinearNumbers K where
  isNumber_of_lt _ := ⟨decide_eq_true rfl, decide_eq_true rfl⟩
  le_of_lt less := less.le
  le_trans first second := first.trans second

end Electrostatics
