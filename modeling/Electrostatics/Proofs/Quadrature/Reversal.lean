import Mathlib.Data.Rat.Floor
import Electrostatics.Proofs.Quadrature.Panels
import Electrostatics.Proofs.Quadrature.Sums

namespace Electrostatics.Quadrature

/-!
# Integrals in the other direction

Two runs from opposite ends meet the same places in opposite orders, with steps of opposite
sign.  The weights of the composite rules and the nodes of Gauss and Legendre read the same
from both ends, and the adaptive rule splits a panel where it splits the mirrored one.
-/

variable
  {K : Type}
  [Field K]

section Sums

variable
  [CharZero K]

/-- Counted from the other end, an inner point has the other index. -/
theorem place_reversed
    (a b : K)
    {index count : Nat}
    (inside : index < count) :
    b + ((count - index : Nat) : K) * ((a - b) / count) = a + index * ((b - a) / count) := by
  have steps : (count : K) ≠ 0 := Nat.cast_ne_zero.mpr (by omega)
  rw [Nat.cast_sub inside.le]
  field_simp
  ring

/-- Sums with weights that read the same from both ends do not depend on the direction. -/
theorem innerSum_reversed
    {weight : Nat → K}
    {count : Nat}
    (mirrored : ∀ index < count, weight (count - index) = weight index)
    (f : K → K)
    (a b : K) :
    innerSum weight f b ((a - b) / count) count = innerSum weight f a ((b - a) / count) count := by
  have ends : count + 1 - count = 1 := by omega
  calc
    innerSum weight f b ((a - b) / count) count
        = ∑ index ∈ Finset.Ico 1 count,
            weight (count - index) * f (b + ((count - index : Nat) : K) * ((a - b) / count)) := by
      rw [Finset.sum_Ico_reflect (fun index => weight index * f (b + index * ((a - b) / count))) 1
        count.le_succ, ends]
      rfl
    _ = innerSum weight f a ((b - a) / count) count := by
      refine Finset.sum_congr rfl fun index met => ?_
      have inside : index < count := (Finset.mem_Ico.mp met).2
      rw [mirrored index inside, place_reversed a b inside]

end Sums

open scoped Exact

variable
  [LinearOrder K]
  [FloorRing K]

/-- With an even number of intervals, Simpson's weights read the same from both ends. -/
theorem simpsonWeight_reversed
    {index count : Nat}
    (even : count % 2 = 0)
    (inside : index < count) :
    (simpsonWeight (count - index) : K) = simpsonWeight index := by
  have parity : (count - index) % 2 = index % 2 := by omega
  rw [simpsonWeight, simpsonWeight, parity]

section Composite

variable
  [CharZero K]

theorem simpson_reversed
    (f : K → K)
    (a b : K)
    (intervals : Nat) :
    simpson f b a intervals = -simpson f a b intervals := by
  by_cases senseless : intervals < 2 ∨ intervals % 2 = 1
  · rw [simpson_of_senseless senseless, simpson_of_senseless senseless, neg_zero]
  · have even : intervals % 2 = 0 := by omega
    rw [simpson_eq senseless, simpson_eq senseless,
      innerSum_reversed fun index inside => simpsonWeight_reversed even inside]
    ring

theorem trapezoidal_reversed
    (f : K → K)
    (a b : K)
    (intervals : Nat) :
    trapezoidal f b a intervals = -trapezoidal f a b intervals := by
  rcases Nat.eq_zero_or_pos intervals with rfl | proper
  · rw [trapezoidal_of_senseless, trapezoidal_of_senseless, neg_zero]
  · rw [trapezoidal_eq proper.ne', trapezoidal_eq proper.ne', innerSum_reversed fun _ _ => rfl]
    ring

end Composite

/-- From the other end the nodes are met with the other sign. -/
theorem gaussianNodes_reversed :
    (gaussianNodes (α := K)).map (fun node => (-node.1, node.2)) = gaussianNodes.reverse := by
  simp [gaussianNodes]

theorem gaussian_reversed
    (f : K → K)
    (a b : K) :
    gaussian f b a = -gaussian f a b := by
  have mirrored :
      (gaussianNodes.map fun node => node.2 * f ((a + b) / 2 + (a - b) / 2 * node.1)) =
        (gaussianNodes.map fun node =>
          node.2 * f ((b + a) / 2 + (b - a) / 2 * node.1)).reverse := by
    rw [← List.map_reverse, ← gaussianNodes_reversed, List.map_map]
    refine List.map_congr_left fun node _ => ?_
    have place : (a + b) / 2 + (a - b) / 2 * node.1 = (b + a) / 2 + (b - a) / 2 * -node.1 := by
      ring
    rw [place]
    rfl
  rw [gaussian_eq, gaussian_eq, mirrored, List.sum_reverse]
  ring

section Panels

theorem estimate_reversed
    (f : K → K)
    (a b : K) :
    (Panel.ofFunction f b a).estimate = -(Panel.ofFunction f a b).estimate := by
  simp only [Panel.ofFunction, panel, add_comm b a]
  ring

theorem halvesEstimate_reversed
    (f : K → K)
    (a b : K) :
    halvesEstimate f b a = -halvesEstimate f a b := by
  rw [halvesEstimate, halvesEstimate, add_comm b a, estimate_reversed f _ b, estimate_reversed f a]
  ring

theorem halvesDifference_reversed
    (f : K → K)
    (a b : K) :
    halvesDifference f b a = -halvesDifference f a b := by
  rw [halvesDifference, halvesDifference, halvesEstimate_reversed, estimate_reversed]
  ring

theorem correctedEstimate_reversed
    (f : K → K)
    (a b : K) :
    correctedEstimate f b a = -correctedEstimate f a b := by
  rw [correctedEstimate, correctedEstimate, halvesEstimate_reversed, halvesDifference_reversed]
  ring

/-- A panel and its mirror image are accepted alike. -/
theorem magnitude_halvesDifference_reversed
    (f : K → K)
    (a b : K) :
    Scalar.magnitude (halvesDifference f b a) = Scalar.magnitude (halvesDifference f a b) := by
  rw [halvesDifference_reversed]
  exact abs_neg _

theorem recomputed_reversed
    (f : K → K)
    (depth : Nat)
    (tolerance a b : K) :
    recomputed f depth tolerance b a = -recomputed f depth tolerance a b := by
  induction depth generalizing tolerance a b with
  | zero =>
      rw [recomputed, recomputed, ite_self, ite_self]
      exact correctedEstimate_reversed f a b
  | succ depth inductionHypothesis =>
      rw [recomputed, recomputed, magnitude_halvesDifference_reversed]
      split
      case isTrue accepted => exact correctedEstimate_reversed f a b
      case isFalse refused =>
        rw [add_comm b a, inductionHypothesis _ _ b, inductionHypothesis _ a, ← neg_add,
          add_comm (recomputed f depth _ _ b)]

theorem adaptive_reversed
    (f : K → K)
    (a b tolerance : K)
    (depth : Nat) :
    adaptive f b a tolerance depth = -adaptive f a b tolerance depth := by
  rw [adaptive_eq, adaptive_eq]
  by_cases same : a = b
  · rw [same]
    simp
  · have apart : ¬(a == b) = true := by simpa using same
    have apartReversed : ¬(b == a) = true := by simpa using Ne.symm same
    rw [if_neg apart, if_neg apartReversed]
    exact recomputed_reversed f depth tolerance a b

end Panels

/--
Reversing the interval negates the integral, by each of the four rules and for every function,
number of intervals, tolerance and depth, also where the request makes no sense.
-/
theorem reversing_the_interval_negates_the_integral
    [IsStrictOrderedRing K]
    (f : K → K)
    (a b : K) :
    (∀ intervals, simpson f b a intervals = -simpson f a b intervals) ∧
      (∀ intervals, trapezoidal f b a intervals = -trapezoidal f a b intervals) ∧
      gaussian f b a = -gaussian f a b ∧
      ∀ tolerance depth, adaptive f b a tolerance depth = -adaptive f a b tolerance depth :=
  ⟨simpson_reversed f a b, trapezoidal_reversed f a b, gaussian_reversed f a b,
    adaptive_reversed f a b⟩

/-- A kink at one, from zero to five and back. -/
theorem integrals_of_a_kink_in_both_directions :
    let kink : ℚ → ℚ := fun x => |x - 1|
    (simpson kink 0 5 2 = 55 / 6 ∧ simpson kink 5 0 2 = -(55 / 6)) ∧
      (trapezoidal kink 0 5 3 = 55 / 6 ∧ trapezoidal kink 5 0 3 = -(55 / 6)) ∧
      gaussian kink 5 0 = -gaussian kink 0 5 ∧
      adaptive kink 0 5 (1 / 40) 3 = 611 / 72 ∧
      adaptive kink 5 0 (1 / 40) 3 = -(611 / 72) := by
  intro kink
  obtain ⟨bySimpson, byTrapezoids, byGauss, byPanels⟩ :=
    reversing_the_interval_negates_the_integral kink 0 5
  have simpsons : simpson kink 0 5 2 = 55 / 6 := by decide +kernel
  have trapezoids : trapezoidal kink 0 5 3 = 55 / 6 := by decide +kernel
  have panels : adaptive kink 0 5 (1 / 40) 3 = 611 / 72 := by decide +kernel
  exact
    ⟨⟨simpsons, simpsons ▸ bySimpson 2⟩, ⟨trapezoids, trapezoids ▸ byTrapezoids 3⟩, byGauss,
      panels, panels ▸ byPanels (1 / 40) 3⟩

end Electrostatics.Quadrature
