import Mathlib.Algebra.Ring.Parity
import Mathlib.Data.Rat.Floor
import Electrostatics.Proofs.Samples.Panels

namespace Electrostatics

/-!
# Simpson's rule of samples

Simpson's rule is written for a function and for samples, and the running integral ends with it
after an even number of intervals.  All three add the same panels, so on samples of a function
they are the same integral.  Over samples the rule is additive: it may be cut where panels meet.
An odd number of intervals is read as one more, wherever the range lies.
-/

namespace Samples

section AnyNumbers

open scoped Scalar

variable
  {α : Type}
  [Scalar α]

/-- An odd number of intervals is made even by the next sample. -/
theorem simpson_of_odd
    (samples : Samples α)
    {first last : Nat}
    (proper : first < last)
    (odd : (last - first) % 2 = 1) :
    samples.simpson first last = samples.simpson first (last + 1) := by
  have padded : evenAtLeast (last - first) = last + 1 - first := by
    rw [evenAtLeast, if_pos odd]
    omega
  have even : evenAtLeast (last + 1 - first) = last + 1 - first := if_neg (by omega)
  rw [simpson, simpson, if_neg (by omega), if_neg (by omega), padded, even]

end AnyNumbers

open scoped Exact

variable
  {K : Type}
  [Field K]
  [LinearOrder K]
  [FloorRing K]

/-- Where panels meet, Simpson's rule may be cut. -/
theorem simpson_add
    (samples : Samples K)
    (first panels further : Nat) :
    samples.simpson first (first + 2 * panels + 2 * further) =
      samples.simpson first (first + 2 * panels) +
        samples.simpson (first + 2 * panels) (first + 2 * panels + 2 * further) := by
  have whole : first + 2 * panels + 2 * further = first + 2 * (panels + further) := by omega
  rw [simpson_eq_panelSum samples (first + 2 * panels), whole, simpson_eq_panelSum,
    simpson_eq_panelSum, Quadrature.panelSum_add, add_div]
  simp only [Nat.add_assoc]

/-- The samples of a function at the ends of equal steps are read in their order. -/
theorem get_ofFn_step
    (f : K → K)
    (a h : K)
    {count steps : Nat}
    (inside : steps < count) :
    (ofFn count fun index => f (a + ((index : K) - 1) * h)).get (1 + steps) =
      Quadrature.valuesAt f a h steps := by
  have place : ((1 + steps : Nat) : K) - 1 = steps := by
    push_cast
    ring
  rw [get_ofFn _ (Nat.le_add_right 1 steps) (by omega), place, Quadrature.valuesAt]

/-- On samples of a function Simpson's rule is the one of the function. -/
theorem simpson_ofFn
    [CharZero K]
    (f : K → K)
    (a b : K)
    {panels : Nat}
    (samples : Samples K)
    (sampled :
      ∀ steps ≤ 2 * panels,
        samples.get (1 + steps) =
          Quadrature.valuesAt f a ((b - a) / (2 * panels : Nat)) steps) :
    (b - a) / (2 * panels : Nat) * samples.simpson 1 (1 + 2 * panels) =
      Quadrature.simpson f a b (2 * panels) := by
  rw [simpson_eq_panelSum, Quadrature.panelSum_congr sampled, Quadrature.simpson_eq_panelSum]
  ring

end Samples

open scoped Exact

/--
Sampled and callable Simpson agree: over an even number of intervals, with the step for unit, the
rule of the samples, the running integral at the last of them and the rule of the function are
one number.  For any samples the rule is additive where panels meet and reads an odd number of
intervals as one more, also outside of the samples, where zero is read.
-/
theorem sampled_and_callable_simpson_agree
    {K : Type}
    [Field K]
    [LinearOrder K]
    [FloorRing K]
    [IsStrictOrderedRing K] :
    (∀ (f : K → K) (a b : K) (intervals : Nat), Even intervals → 2 ≤ intervals →
        let h := (b - a) / intervals
        let samples : Samples K :=
          .ofFn (intervals + 1) fun index => f (a + ((index : K) - 1) * h)
        h * samples.simpson 1 (intervals + 1) = Quadrature.simpson f a b intervals ∧
          (samples.runningIntegral h).get (intervals + 1) =
            Quadrature.simpson f a b intervals) ∧
      ∀ samples : Samples K,
        (∀ index, index = 0 ∨ samples.size < index → samples.get index = 0) ∧
          (∀ first middle last, first ≤ middle → middle ≤ last →
            Even (middle - first) → Even (last - middle) →
            samples.simpson first last =
              samples.simpson first middle + samples.simpson middle last) ∧
          ∀ first last, first < last → Odd (last - first) →
            samples.simpson first last = samples.simpson first (last + 1) := by
  refine ⟨?_, fun samples => ⟨?_, ?_, ?_⟩⟩
  · intro f a b intervals even proper h samples
    obtain ⟨panels, rfl⟩ := even_iff_exists_two_mul.mp even
    have agree : h * samples.simpson 1 (2 * panels + 1) = Quadrature.simpson f a b (2 * panels) := by
      rw [Nat.add_comm]
      exact samples.simpson_ofFn f a b fun steps inside =>
        Samples.get_ofFn_step f a h (Nat.lt_succ_of_le inside)
    have last : 2 * panels + 1 ≤ samples.size := (Samples.size_ofFn _ _).ge
    refine ⟨agree, ?_⟩
    rw [Samples.get_runningIntegral h (Nat.le_add_left 1 _) last, Samples.integralTo_odd, agree]
  · intro index outside
    rw [Samples.get_outside outside, Exact.numeral_zero]
  · intro first middle last before behind evenBefore evenBehind
    obtain ⟨panels, beforeEq⟩ := even_iff_exists_two_mul.mp evenBefore
    obtain ⟨further, behindEq⟩ := even_iff_exists_two_mul.mp evenBehind
    obtain rfl : middle = first + 2 * panels := by omega
    obtain rfl : last = first + 2 * panels + 2 * further := by omega
    exact samples.simpson_add first panels further
  · intro first last proper odd
    exact samples.simpson_of_odd proper (Nat.odd_iff.mp odd)

/--
A kink at one, from zero to five by four intervals, and three samples in ranges that start before
the first of them and end behind the last.
-/
theorem simpson_over_a_kink_and_beyond_three_samples :
    let kink : ℚ → ℚ := fun x => |x - 1|
    let h : ℚ := (5 - 0) / (4 : Nat)
    let sampled : Samples ℚ := .ofFn 5 fun index => kink (0 + ((index : ℚ) - 1) * h)
    let three : Samples ℚ := .ofList [1, 2, 4]
    h * sampled.simpson 1 5 = 25 / 3 ∧
      (sampled.runningIntegral h).get 5 = 25 / 3 ∧
      Quadrature.simpson kink 0 5 4 = 25 / 3 ∧
      three.simpson 0 6 = 2 + 6 ∧
      three.simpson 0 5 = 8 := by
  intro kink h sampled three
  obtain ⟨rules, ofSamples⟩ := sampled_and_callable_simpson_agree (K := ℚ)
  obtain ⟨bySamples, byIntegral⟩ := rules kink 0 5 4 (by decide) (by decide)
  obtain ⟨-, cut, padded⟩ := ofSamples three
  have callable : Quadrature.simpson kink 0 5 4 = 25 / 3 := by decide +kernel
  have before : three.simpson 0 2 = 2 := by decide +kernel
  have behind : three.simpson 2 6 = 6 := by decide +kernel
  have whole : three.simpson 0 6 = 2 + 6 := by
    rw [cut 0 2 6 (by decide) (by decide) (by decide) (by decide), before, behind]
  refine ⟨bySamples.trans callable, byIntegral.trans callable, callable, whole, ?_⟩
  rw [padded 0 5 (by decide) (by decide), whole]
  norm_num

end Electrostatics
