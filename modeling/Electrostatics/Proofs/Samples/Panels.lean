import Electrostatics.Proofs.Quadrature.PanelSums
import Electrostatics.Proofs.Samples.Agreement
import Mathlib.Tactic.LinearCombination

namespace Electrostatics.Samples

/-!
# Panels

In exact arithmetic the running integral is built of panels, two intervals each.  Up to an
odd sample it grows by a panel at a time, and up to an even one it ends with the three
intervals of the three-eighths rule.
-/

open scoped Exact

variable {K : Type} [Field K] [LinearOrder K] [FloorRing K]

/-- The loop over the inner samples is their weighted sum. -/
theorem addAlternating_eq
    (samples : Samples K)
    (start count offset : Nat)
    (sum : K) :
    samples.addAlternating start count offset sum =
      sum +
        ∑ index ∈ Finset.Ico offset (offset + count),
          Quadrature.simpsonWeight index * samples.get (start + index) := by
  induction count generalizing offset sum with
  | zero => rw [Nat.add_zero, Finset.Ico_self, Finset.sum_empty, add_zero]; rfl
  | succ count inductionHypothesis =>
      have further : offset < offset + (count + 1) := by omega
      have behind : offset + (count + 1) = offset + 1 + count := by omega
      rw [addAlternating, inductionHypothesis, Finset.sum_eq_sum_Ico_succ_bot further, behind,
        ← add_assoc]
      rfl

/-- Over an even number of intervals Simpson's rule is the sum over its panels. -/
theorem simpson_eq_panelSum
    (samples : Samples K)
    (first panels : Nat) :
    samples.simpson first (first + 2 * panels) =
      Quadrature.panelSum (fun index => samples.get (first + index)) panels / 3 := by
  cases panels with
  | zero => simp [simpson, Quadrature.panelSum]
  | succ panels =>
      have intervals : first + 2 * (panels + 1) - first = 2 * (panels + 1) := by omega
      have even : evenAtLeast (2 * (panels + 1)) = 2 * (panels + 1) := if_neg (by omega)
      have inner : 1 + (2 * (panels + 1) - 1) = 2 * (panels + 1) := by omega
      have loop :
          samples.simpson first (first + 2 * (panels + 1)) =
            samples.addAlternating first (2 * (panels + 1) - 1) 1
              (samples.get first + samples.get (first + 2 * (panels + 1))) / 3 := by
        rw [simpson, if_neg (by omega), intervals, even]
      rw [loop, addAlternating_eq, inner, Quadrature.panelSum_eq]
      rfl

/-- Simpson's rule grows by a panel; the sample that two panels share counts for both. -/
theorem simpson_next
    (samples : Samples K)
    (panels : Nat) :
    samples.simpson 1 (2 * panels + 3) =
      samples.simpson 1 (2 * panels + 1) +
        (samples.get (2 * panels + 1) + 4 * samples.get (2 * panels + 2) +
            samples.get (2 * panels + 3)) / 3 := by
  have longer := samples.simpson_eq_panelSum 1 (panels + 1)
  have shorter := samples.simpson_eq_panelSum 1 panels
  simp only [Quadrature.panelSum_succ, Nat.add_comm 1, Nat.mul_succ, Nat.add_assoc,
    Nat.reduceAdd] at longer shorter
  rw [longer, shorter, add_div]

/-- Up to an odd sample the running integral is Simpson's rule. -/
theorem integralTo_odd
    (samples : Samples K)
    (h : K)
    (panels : Nat) :
    samples.integralTo h (2 * panels + 1) = h * samples.simpson 1 (2 * panels + 1) := by
  cases panels with
  | zero => simp [integralTo, simpson]
  | succ panels => exact samples.integralTo_panels h panels

/-- The running integral at the first sample. -/
theorem integralTo_first
    (samples : Samples K)
    (h : K) :
    samples.integralTo h 1 = 0 :=
  Exact.numeral_zero

/-- From one odd sample to the next the running integral grows by a panel. -/
theorem integralTo_next
    (samples : Samples K)
    (h : K)
    (panels : Nat) :
    samples.integralTo h (2 * panels + 3) =
      samples.integralTo h (2 * panels + 1) +
        h / 3 *
          (samples.get (2 * panels + 1) + 4 * samples.get (2 * panels + 2) +
            samples.get (2 * panels + 3)) := by
  have next : samples.integralTo h (2 * panels + 3) = h * samples.simpson 1 (2 * panels + 3) :=
    samples.integralTo_odd h (panels + 1)
  rw [next, integralTo_odd, simpson_next]
  ring

/-- What two panels add. -/
theorem integralTo_two_panels
    (samples : Samples K)
    (h : K)
    (panels : Nat) :
    samples.integralTo h (2 * panels + 5) =
      samples.integralTo h (2 * panels + 1) +
        h / 3 *
          (samples.get (2 * panels + 1) + 4 * samples.get (2 * panels + 2) +
              2 * samples.get (2 * panels + 3) + 4 * samples.get (2 * panels + 4) +
            samples.get (2 * panels + 5)) := by
  have first := samples.integralTo_next h panels
  have second := samples.integralTo_next h (panels + 1)
  simp only [Nat.mul_add, Nat.mul_one, Nat.add_assoc, Nat.reduceAdd] at second
  linear_combination first + second

/-- What three panels add. -/
theorem integralTo_three_panels
    (samples : Samples K)
    (h : K)
    (panels : Nat) :
    samples.integralTo h (2 * panels + 7) =
      samples.integralTo h (2 * panels + 1) +
        h / 3 *
          (samples.get (2 * panels + 1) + 4 * samples.get (2 * panels + 2) +
              2 * samples.get (2 * panels + 3) + 4 * samples.get (2 * panels + 4) +
              2 * samples.get (2 * panels + 5) + 4 * samples.get (2 * panels + 6) +
            samples.get (2 * panels + 7)) := by
  have firstTwo := samples.integralTo_two_panels h panels
  have third := samples.integralTo_next h (panels + 2)
  simp only [Nat.mul_add, Nat.add_assoc, Nat.reduceMul, Nat.reduceAdd] at third
  linear_combination firstTwo + third

/-- From an odd sample to the third behind it, it grows by the three-eighths rule. -/
theorem integralTo_even
    (samples : Samples K)
    (h : K)
    (panels : Nat) :
    samples.integralTo h (2 * panels + 4) =
      samples.integralTo h (2 * panels + 1) +
        3 * h / 8 *
          (samples.get (2 * panels + 1) + 3 * samples.get (2 * panels + 2) +
            3 * samples.get (2 * panels + 3) + samples.get (2 * panels + 4)) := by
  rw [integralTo_odd]
  exact samples.integralTo_threeEighths h panels

end Electrostatics.Samples
