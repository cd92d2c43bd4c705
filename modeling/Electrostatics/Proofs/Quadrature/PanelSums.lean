import Electrostatics.Proofs.Number.Cubic
import Electrostatics.Proofs.Quadrature.Sums

namespace Electrostatics.Quadrature

/-!
# Sums over steps and panels

A composite rule names every inner place once, with a weight.  The same sum can be taken step by
step, or panel by panel of two steps each, where a place that two of them share counts for both.
In this form a longer sum is a shorter one and the rest: the two kinds of sums are combined with
each other step by step, and over a polynomial of their order each adds up to what its primitive
rises.
-/

variable
  {K : Type}
  [Field K]

/-- The sum of the trapezoid rule over values at equal steps, one step at a time. -/
def stepSum
    (values : Nat → K)
    (steps : Nat) :
    K :=
  ∑ step ∈ Finset.range steps, (values step + values (step + 1)) / (2 : Nat)

/-- The sum of Simpson's rule over values at equal steps, one panel of two steps at a time. -/
def panelSum
    (values : Nat → K)
    (panels : Nat) :
    K :=
  ∑ panel ∈ Finset.range panels,
    (values (2 * panel) + (4 : Nat) * values (2 * panel + 1) + values (2 * panel + 2))

theorem stepSum_succ
    (values : Nat → K)
    (steps : Nat) :
    stepSum values (steps + 1) =
      stepSum values steps + (values steps + values (steps + 1)) / 2 :=
  Finset.sum_range_succ _ _

theorem panelSum_succ
    (values : Nat → K)
    (panels : Nat) :
    panelSum values (panels + 1) =
      panelSum values panels +
        (values (2 * panels) + 4 * values (2 * panels + 1) + values (2 * panels + 2)) :=
  Finset.sum_range_succ _ _

theorem panelSum_congr
    {values other : Nat → K}
    {panels : Nat}
    (same : ∀ index ≤ 2 * panels, values index = other index) :
    panelSum values panels = panelSum other panels := by
  refine Finset.sum_congr rfl fun panel met => ?_
  have inside : panel < panels := Finset.mem_range.mp met
  rw [same (2 * panel) (by omega), same (2 * panel + 1) (by omega),
    same (2 * panel + 2) (by omega)]

/-- Panels behind others are panels from the place on where those end. -/
theorem panelSum_add
    (values : Nat → K)
    (panels further : Nat) :
    panelSum values (panels + further) =
      panelSum values panels + panelSum (fun index => values (2 * panels + index)) further := by
  simp only [panelSum, Finset.sum_range_add, Nat.mul_add, Nat.add_assoc]

/-- The values of a function at the ends of equal steps. -/
def valuesAt
    (f : K → K)
    (a h : K)
    (index : Nat) :
    K :=
  f (a + index * h)

@[simp]
theorem valuesAt_zero
    (f : K → K)
    (a h : K) :
    valuesAt f a h 0 = f a := by
  simp [valuesAt]

section Steps

variable
  [CharZero K]

/-- As many steps as there are lead from one end to the other. -/
theorem valuesAt_last
    (f : K → K)
    (a b : K)
    {steps : Nat}
    (proper : steps ≠ 0) :
    valuesAt f a ((b - a) / steps) steps = f b := by
  have apart : (steps : K) ≠ 0 := Nat.cast_ne_zero.mpr proper
  rw [valuesAt, mul_div_cancel₀ _ apart, add_sub_cancel]

/-- With half as many steps, the places are every other one. -/
theorem valuesAt_double
    (f : K → K)
    (a b : K)
    (panels index : Nat) :
    valuesAt f a ((b - a) / (2 * panels : Nat)) (2 * index) =
      valuesAt f a ((b - a) / panels) index := by
  have place :
      ((2 * index : Nat) : K) * ((b - a) / (2 * panels : Nat)) = index * ((b - a) / panels) := by
    push_cast
    ring
  rw [valuesAt, valuesAt, place]

/-- Half of both ends and every inner value once: the sum over the steps. -/
theorem stepSum_eq
    (values : Nat → K)
    (steps : Nat) :
    stepSum values (steps + 1) =
      (values 0 + values (steps + 1)) / 2 + ∑ index ∈ Finset.Ico 1 (steps + 1), values index := by
  induction steps with
  | zero => simp [stepSum]
  | succ steps inductionHypothesis =>
      rw [stepSum_succ, inductionHypothesis,
        Finset.sum_Ico_succ_top (Nat.le_add_left 1 steps)]
      ring

/-- In two runs over the places, one with the double step, Simpson's weights appear. -/
theorem panelSum_eq_stepSums
    (values : Nat → K)
    (panels : Nat) :
    panelSum values panels =
      4 * stepSum values (2 * panels) - 2 * stepSum (fun index => values (2 * index)) panels := by
  induction panels with
  | zero => simp [panelSum, stepSum]
  | succ panels inductionHypothesis =>
      have double : 2 * (panels + 1) = 2 * panels + 1 + 1 := by omega
      rw [panelSum_succ, inductionHypothesis, stepSum_succ, double, stepSum_succ, stepSum_succ]
      ring

/-- The steps over a line add up to what its primitive rises. -/
theorem stepSum_rise
    {curve : Cubic K}
    (straight : curve.square = 0 ∧ curve.cube = 0)
    (a h : K)
    (steps : Nat) :
    h * stepSum (valuesAt curve.eval a h) steps =
      curve.primitive (a + steps * h) - curve.primitive a := by
  induction steps with
  | zero => simp [stepSum]
  | succ steps inductionHypothesis =>
      have rise := Cubic.trapezoid_rise straight (a + steps * h) h
      have next : a + ((steps + 1 : Nat) : K) * h = a + steps * h + h := by
        push_cast
        ring
      rw [stepSum_succ, mul_add, inductionHypothesis, valuesAt, valuesAt, next, rise]
      ring

/-- The panels over a polynomial add up to what its primitive rises. -/
theorem panelSum_rise
    (curve : Cubic K)
    (a h : K)
    (panels : Nat) :
    h / 3 * panelSum (valuesAt curve.eval a h) panels =
      curve.primitive (a + (2 * panels : Nat) * h) - curve.primitive a := by
  induction panels with
  | zero => simp [panelSum]
  | succ panels inductionHypothesis =>
      have rise := curve.panel_rise (a + (2 * panels : Nat) * h) h
      have middle :
          a + ((2 * panels + 1 : Nat) : K) * h = a + (2 * panels : Nat) * h + h := by
        push_cast
        ring
      have last :
          a + ((2 * panels + 2 : Nat) : K) * h = a + (2 * panels : Nat) * h + 2 * h := by
        push_cast
        ring
      rw [panelSum_succ, mul_add, inductionHypothesis, valuesAt, valuesAt, valuesAt,
        Nat.mul_succ, middle, last]
      linear_combination rise / 3

end Steps

open scoped Exact

variable
  [LinearOrder K]
  [FloorRing K]

theorem simpsonWeight_even
    {index : Nat}
    (even : index % 2 = 0) :
    (simpsonWeight index : K) = 2 :=
  if_pos even

theorem simpsonWeight_odd
    {index : Nat}
    (odd : index % 2 = 1) :
    (simpsonWeight index : K) = 4 :=
  if_neg (by omega)

/-- Both ends, and every inner value with its weight in Simpson's rule: the sum over the panels. -/
theorem panelSum_eq
    (values : Nat → K)
    (panels : Nat) :
    panelSum values (panels + 1) =
      values 0 + values (2 * (panels + 1)) +
        ∑ index ∈ Finset.Ico 1 (2 * (panels + 1)), simpsonWeight index * values index := by
  induction panels with
  | zero =>
      rw [Nat.zero_add, Nat.mul_one, Finset.sum_Ico_succ_top (Nat.le_refl 1), Finset.Ico_self,
        Finset.sum_empty, simpsonWeight_odd (by decide)]
      simp only [panelSum, Finset.sum_range_one, Nat.mul_zero, Nat.zero_add, Nat.cast_ofNat]
      ring
  | succ panels inductionHypothesis =>
      have double : 2 * (panels + 1 + 1) = 2 * (panels + 1) + 1 + 1 := by omega
      rw [panelSum_succ, inductionHypothesis, double,
        Finset.sum_Ico_succ_top (by omega), Finset.sum_Ico_succ_top (by omega),
        simpsonWeight_even (by omega), simpsonWeight_odd (by omega)]
      ring

section Rules

variable
  [CharZero K]
  (f : K → K)
  (a b : K)

/-- Simpson's rule is the sum over its panels. -/
theorem simpson_eq_panelSum (panels : Nat) :
    simpson f a b (2 * panels) =
      (b - a) / (2 * panels : Nat) / 3 *
        panelSum (valuesAt f a ((b - a) / (2 * panels : Nat))) panels := by
  cases panels with
  | zero =>
      rw [Nat.mul_zero, simpson_of_senseless (.inl (by decide)), panelSum, Finset.sum_range_zero,
        mul_zero]
  | succ panels =>
      rw [simpson_eq (by omega), panelSum_eq, valuesAt_zero, valuesAt_last f a b (by omega)]
      simp only [innerSum, valuesAt]
      ring

/-- The trapezoid rule is the sum over its steps. -/
theorem trapezoidal_eq_stepSum (steps : Nat) :
    trapezoidal f a b steps =
      (b - a) / steps * stepSum (valuesAt f a ((b - a) / steps)) steps := by
  cases steps with
  | zero => rw [trapezoidal_of_senseless, stepSum, Finset.sum_range_zero, mul_zero]
  | succ steps =>
      rw [trapezoidal_eq (Nat.succ_ne_zero steps), stepSum_eq, valuesAt_zero,
        valuesAt_last f a b (Nat.succ_ne_zero steps)]
      simp only [innerSum, valuesAt, one_mul]
      ring

/-- Simpson's rule is extrapolated from two runs of the trapezoid rule. -/
theorem simpson_eq_trapezoidal (panels : Nat) :
    simpson f a b (2 * panels) =
      (4 * trapezoidal f a b (2 * panels) - trapezoidal f a b panels) / 3 := by
  rw [simpson_eq_panelSum, trapezoidal_eq_stepSum, trapezoidal_eq_stepSum, panelSum_eq_stepSums]
  simp only [valuesAt_double]
  push_cast
  ring

end Rules

end Electrostatics.Quadrature
