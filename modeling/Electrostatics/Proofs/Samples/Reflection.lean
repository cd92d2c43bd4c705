import Electrostatics.Proofs.Samples.Panels
import Mathlib.Algebra.BigOperators.Intervals
import Mathlib.Algebra.Group.ForwardDiff

namespace Electrostatics.Samples

/-!
# Mirrored samples

The integral of a mirrored run up to a sample and the one up to its mirror image should be
the whole.  Up to odd samples they are, since panels are mirrored to panels.  Elsewhere the
rules end differently from how they begin, and by what the two miss the whole is a forward
difference of the samples, of third order at least.
-/

open scoped Exact

variable {K : Type} [Field K] [LinearOrder K] [FloorRing K]

/-- The forward difference of the samples from an index on. -/
def forwardDifference
    (samples : Samples K)
    (order index : Nat) :
    K :=
  (fwdDiff 1)^[order] samples.get index

@[simp]
theorem forwardDifference_zero
    (samples : Samples K)
    (index : Nat) :
    samples.forwardDifference 0 index = samples.get index :=
  rfl

/-- One order more is the difference of two neighbours. -/
theorem forwardDifference_succ
    (samples : Samples K)
    (order index : Nat) :
    samples.forwardDifference (order + 1) index =
      samples.forwardDifference order (index + 1) - samples.forwardDifference order index :=
  congrFun (Function.iterate_succ_apply' (fwdDiff 1) order samples.get) index

/-- The samples read the same from both ends. -/
def Mirrored (samples : Samples K) : Prop :=
  ∀ index, 1 ≤ index → index ≤ samples.size →
    samples.get index = samples.get (samples.size + 1 - index)

namespace Mirrored

variable
  {samples : Samples K}
  {near far : Nat}

/-- Samples as far from one end as from the other are the same, outside as well. -/
theorem get_eq
    (mirrored : samples.Mirrored)
    (across : near + far = samples.size + 1) :
    samples.get near = samples.get far := by
  by_cases within : 1 ≤ near ∧ near ≤ samples.size
  · have image : samples.size + 1 - near = far := by omega
    rw [mirrored near within.1 within.2, image]
  · rw [get_outside (show near = 0 ∨ samples.size < near by omega),
      get_outside (show far = 0 ∨ samples.size < far by omega)]

/-- Up to odd samples the two integrals are the whole. -/
theorem integralTo_odd_odd
    (mirrored : samples.Mirrored)
    (h : K)
    (size : samples.size = 2 * (near + far) + 1) :
    samples.integralTo h (2 * near + 1) + samples.integralTo h (2 * far + 1) =
      samples.integralTo h samples.size := by
  induction near generalizing far with
  | zero => rw [Nat.mul_zero, Nat.zero_add, integralTo_first, zero_add, size, Nat.zero_add]
  | succ near inductionHypothesis =>
      have before :
          samples.integralTo h (2 * near + 1) + samples.integralTo h (2 * far + 3) =
            samples.integralTo h samples.size :=
        @inductionHypothesis (far + 1) (by omega)
      have grown := samples.integralTo_next h near
      have shrunk := samples.integralTo_next h far
      have first : samples.get (2 * near + 1) = samples.get (2 * far + 3) :=
        mirrored.get_eq (by omega)
      have middle : samples.get (2 * near + 2) = samples.get (2 * far + 2) :=
        mirrored.get_eq (by omega)
      have last : samples.get (2 * near + 3) = samples.get (2 * far + 1) :=
        mirrored.get_eq (by omega)
      rw [first, middle, last] at grown
      linear_combination before + grown - shrunk

/-- Up to even samples of an odd run both integrals end with the three-eighths rule. -/
theorem integralTo_even_even
    [CharZero K]
    (mirrored : samples.Mirrored)
    (h : K)
    (size : samples.size = 2 * (near + far) + 7) :
    samples.integralTo h (2 * near + 4) + samples.integralTo h (2 * far + 4) =
      samples.integralTo h samples.size +
        h / 24 *
          (samples.forwardDifference 6 (2 * near + 1) +
            samples.forwardDifference 4 (2 * near + 2)) := by
  have sizeOdd : samples.size = 2 * (near + (far + 3)) + 1 := by omega
  have panels :
      samples.integralTo h (2 * near + 1) + samples.integralTo h (2 * far + 7) =
        samples.integralTo h samples.size :=
    mirrored.integralTo_odd_odd h sizeOdd
  have nearTail := samples.integralTo_even h near
  have farTail := samples.integralTo_even h far
  have farPanels := samples.integralTo_three_panels h far
  have first : samples.get (2 * far + 1) = samples.get (2 * near + 7) :=
    mirrored.get_eq (by omega)
  have second : samples.get (2 * far + 2) = samples.get (2 * near + 6) :=
    mirrored.get_eq (by omega)
  have third : samples.get (2 * far + 3) = samples.get (2 * near + 5) :=
    mirrored.get_eq (by omega)
  have fourth : samples.get (2 * far + 4) = samples.get (2 * near + 4) :=
    mirrored.get_eq (by omega)
  have fifth : samples.get (2 * far + 5) = samples.get (2 * near + 3) :=
    mirrored.get_eq (by omega)
  have sixth : samples.get (2 * far + 6) = samples.get (2 * near + 2) :=
    mirrored.get_eq (by omega)
  have seventh : samples.get (2 * far + 7) = samples.get (2 * near + 1) :=
    mirrored.get_eq (by omega)
  rw [first, second, third, fourth] at farTail
  rw [first, second, third, fourth, fifth, sixth, seventh] at farPanels
  simp only [forwardDifference_succ, forwardDifference_zero, Nat.add_assoc, Nat.reduceAdd]
  linear_combination panels + nearTail + farTail - farPanels

/-- At the second sample of an odd run one integral is that of the parabola there. -/
theorem integralTo_second_even
    [CharZero K]
    (mirrored : samples.Mirrored)
    (h : K)
    (size : samples.size = 2 * far + 5) :
    samples.integralTo h 2 + samples.integralTo h (2 * far + 4) =
      samples.integralTo h samples.size +
        h / 24 * (samples.forwardDifference 4 1 - samples.forwardDifference 3 1) := by
  have parabola :
      samples.integralTo h 2 = h * (5 * samples.get 1 + 8 * samples.get 2 - samples.get 3) / 12 :=
    integralTo_second h (by omega)
  have tail := samples.integralTo_even h far
  have whole := samples.integralTo_two_panels h far
  have first : samples.get (2 * far + 1) = samples.get 5 := mirrored.get_eq (by omega)
  have second : samples.get (2 * far + 2) = samples.get 4 := mirrored.get_eq (by omega)
  have third : samples.get (2 * far + 3) = samples.get 3 := mirrored.get_eq (by omega)
  have fourth : samples.get (2 * far + 4) = samples.get 2 := mirrored.get_eq (by omega)
  have fifth : samples.get (2 * far + 5) = samples.get 1 := mirrored.get_eq (by omega)
  rw [first, second, third, fourth] at tail
  rw [first, second, third, fourth, fifth] at whole
  rw [size]
  simp only [forwardDifference_succ, forwardDifference_zero, Nat.reduceAdd]
  linear_combination parabola + tail - whole

/--
In an even run one integral ends with the three-eighths rule and the other does not.  Before
the first panel the whole is met, and every panel shifts it by a difference of fifth order.
-/
theorem integralTo_odd_even
    [CharZero K]
    (mirrored : samples.Mirrored)
    (h : K)
    (size : samples.size = 2 * (near + far) + 4) :
    samples.integralTo h (2 * near + 1) + samples.integralTo h (2 * far + 4) =
      samples.integralTo h samples.size +
        h / 24 * ∑ panel ∈ Finset.range near, samples.forwardDifference 5 (2 * panel + 1) := by
  induction near generalizing far with
  | zero =>
      rw [Nat.mul_zero, Nat.zero_add, integralTo_first, size, Nat.zero_add,
        Finset.sum_range_zero]
      ring
  | succ near inductionHypothesis =>
      have before :
          samples.integralTo h (2 * near + 1) + samples.integralTo h (2 * far + 6) =
            samples.integralTo h samples.size +
              h / 24 *
                ∑ panel ∈ Finset.range near, samples.forwardDifference 5 (2 * panel + 1) :=
        @inductionHypothesis (far + 1) (by omega)
      have grown := samples.integralTo_next h near
      have tail := samples.integralTo_even h far
      have panel := samples.integralTo_next h far
      have laterTail :
          samples.integralTo h (2 * far + 6) =
            samples.integralTo h (2 * far + 3) +
              3 * h / 8 *
                (samples.get (2 * far + 3) + 3 * samples.get (2 * far + 4) +
                  3 * samples.get (2 * far + 5) + samples.get (2 * far + 6)) :=
        samples.integralTo_even h (far + 1)
      have first : samples.get (2 * far + 1) = samples.get (2 * near + 6) :=
        mirrored.get_eq (by omega)
      have second : samples.get (2 * far + 2) = samples.get (2 * near + 5) :=
        mirrored.get_eq (by omega)
      have third : samples.get (2 * far + 3) = samples.get (2 * near + 4) :=
        mirrored.get_eq (by omega)
      have fourth : samples.get (2 * far + 4) = samples.get (2 * near + 3) :=
        mirrored.get_eq (by omega)
      have fifth : samples.get (2 * far + 5) = samples.get (2 * near + 2) :=
        mirrored.get_eq (by omega)
      have sixth : samples.get (2 * far + 6) = samples.get (2 * near + 1) :=
        mirrored.get_eq (by omega)
      have next : 2 * (near + 1) + 1 = 2 * near + 3 := by omega
      rw [first, second, third, fourth] at tail
      rw [first, second, third] at panel
      rw [third, fourth, fifth, sixth] at laterTail
      rw [Finset.sum_range_succ, next]
      simp only [forwardDifference_succ, forwardDifference_zero, Nat.add_assoc,
        Nat.reduceAdd] at before ⊢
      linear_combination before + grown + tail - laterTail - panel

/-- At the second sample of an even run the other integral is up to an odd sample. -/
theorem integralTo_second_odd
    [CharZero K]
    (mirrored : samples.Mirrored)
    (h : K)
    (size : samples.size = 2 * far + 4) :
    samples.integralTo h 2 + samples.integralTo h (2 * far + 3) =
      samples.integralTo h samples.size - h / 24 * samples.forwardDifference 3 1 := by
  have parabola :
      samples.integralTo h 2 = h * (5 * samples.get 1 + 8 * samples.get 2 - samples.get 3) / 12 :=
    integralTo_second h (by omega)
  have panel := samples.integralTo_next h far
  have whole := samples.integralTo_even h far
  have first : samples.get (2 * far + 1) = samples.get 4 := mirrored.get_eq (by omega)
  have second : samples.get (2 * far + 2) = samples.get 3 := mirrored.get_eq (by omega)
  have third : samples.get (2 * far + 3) = samples.get 2 := mirrored.get_eq (by omega)
  have fourth : samples.get (2 * far + 4) = samples.get 1 := mirrored.get_eq (by omega)
  rw [first, second, third] at panel
  rw [first, second, third, fourth] at whole
  rw [size]
  simp only [forwardDifference_succ, forwardDifference_zero, Nat.reduceAdd]
  linear_combination parabola + panel - whole

end Mirrored

end Electrostatics.Samples
