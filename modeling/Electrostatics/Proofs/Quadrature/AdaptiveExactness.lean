import Electrostatics.Proofs.Number.Exact
import Electrostatics.Proofs.Quadrature.Panels
import Mathlib.Algebra.Polynomial.Eval.Degree
import Mathlib.Analysis.SpecialFunctions.Integrals.Basic

namespace Electrostatics.Quadrature

/-!
# Exactness of the adaptive rule

The two halves of a panel, corrected by their difference from the whole, integrate every
polynomial up to degree five exactly.  So it does not matter for such a polynomial where the
adaptive rule stops splitting: whatever the tolerance and the allowed depth, its panels add up
to the integral.
-/

open scoped Exact

section Primitives

variable
  {K : Type}
  [Field K]

/-- The primitive of a polynomial that vanishes at zero, up to a degree. -/
def primitive
    (degree : Nat)
    (curve : Polynomial K)
    (x : K) :
    K :=
  ∑ power ∈ Finset.range (degree + 1), curve.coeff power * (x ^ (power + 1) / (power + 1))

variable
  [CharZero K]
  [LinearOrder K]
  [FloorRing K]
  {curve : Polynomial K}

/-- The corrected estimate of a panel is exact up to degree five. -/
theorem correctedEstimate_eq
    (low : curve.natDegree ≤ 5)
    (a b : K) :
    correctedEstimate curve.eval a b = primitive 5 curve b - primitive 5 curve a := by
  have value (x : K) :
      curve.eval x = ∑ power ∈ Finset.range 6, curve.coeff power * x ^ power :=
    Polynomial.eval_eq_sum_range' (Nat.lt_succ_of_le low) x
  simp only [correctedEstimate, halvesDifference, halvesEstimate, Panel.ofFunction, panel,
    primitive, value, Exact.numeral_ofNat, Finset.sum_range_succ, Finset.sum_range_zero]
  push_cast
  field_simp
  ring

/-- However a panel is split, its parts add up to what the polynomial gains over it. -/
theorem recomputed_eq
    (low : curve.natDegree ≤ 5)
    (depth : Nat)
    (tolerance a b : K) :
    recomputed curve.eval depth tolerance a b = primitive 5 curve b - primitive 5 curve a := by
  induction depth generalizing tolerance a b with
  | zero =>
      rw [recomputed, ite_self]
      exact correctedEstimate_eq low a b
  | succ depth inductionHypothesis =>
      rw [recomputed]
      split
      case isTrue accepted => exact correctedEstimate_eq low a b
      case isFalse refused =>
        rw [inductionHypothesis, inductionHypothesis]
        ring

end Primitives

/-- Over the real numbers the primitive is the integral. -/
theorem integral_eq_primitive
    {degree : Nat}
    {curve : Polynomial ℝ}
    (low : curve.natDegree ≤ degree)
    (a b : ℝ) :
    ∫ x in a..b, curve.eval x = primitive degree curve b - primitive degree curve a := by
  have value (x : ℝ) :
      curve.eval x = ∑ power ∈ Finset.range (degree + 1), curve.coeff power * x ^ power :=
    Polynomial.eval_eq_sum_range' (Nat.lt_succ_of_le low) x
  simp only [value, primitive, ← Finset.sum_sub_distrib]
  rw [intervalIntegral.integral_finsetSum fun power _ =>
    (Continuous.intervalIntegrable (by fun_prop) a b)]
  refine Finset.sum_congr rfl fun power _ => ?_
  rw [intervalIntegral.integral_const_mul, integral_pow]
  ring

/--
The adaptive rule integrates every polynomial up to degree five exactly, between any two
places and in either direction, whatever the tolerance is and however often a panel may be
split.
-/
theorem adaptive_is_exact_up_to_degree_five
    {curve : Polynomial ℝ}
    (low : curve.natDegree ≤ 5)
    (a b tolerance : ℝ)
    (depth : Nat) :
    adaptive curve.eval a b tolerance depth = ∫ x in a..b, curve.eval x := by
  rw [adaptive_eq]
  split
  case isTrue same =>
    rw [of_decide_eq_true same, intervalIntegral.integral_same, Exact.numeral_zero]
  case isFalse apart =>
    rw [recomputed_eq low, integral_eq_primitive low]

/-- The fifth power from two down to zero, with a tolerance that nothing can meet. -/
theorem adaptive_on_the_fifth_power :
    let curve : Polynomial ℝ := Polynomial.X ^ 5
    curve.natDegree ≤ 5 ∧ adaptive curve.eval 2 0 (-1) 3 = -(32 / 3) := by
  intro curve
  have low : curve.natDegree ≤ 5 := (Polynomial.natDegree_X_pow 5).le
  refine ⟨low, (adaptive_is_exact_up_to_degree_five low 2 0 (-1) 3).trans ?_⟩
  simp only [curve, Polynomial.eval_pow, Polynomial.eval_X, integral_pow]
  norm_num

end Electrostatics.Quadrature
