import Mathlib.Algebra.Polynomial.Eval.Degree
import Mathlib.Analysis.SpecialFunctions.Integrals.Basic

namespace Electrostatics

/-!
# Polynomials of degree three

The rules for integrals are exact for polynomials up to degree three at most.  Such a polynomial
is given by its four coefficients, and every elementary rule adds what the primitive rises over
its interval.  Over the real numbers that is the integral.
-/

/-- A polynomial of degree three, by its coefficients. -/
structure Cubic (K : Type) where
  constant : K
  linear : K
  square : K
  cube : K

namespace Cubic

variable {K : Type} [Field K]

/-- The value of a polynomial. -/
def eval (curve : Cubic K) (x : K) : K :=
  curve.constant + curve.linear * x + curve.square * x ^ 2 + curve.cube * x ^ 3

/-- The primitive of a polynomial that is zero at the origin. -/
def primitive (curve : Cubic K) (x : K) : K :=
  curve.constant * x + curve.linear * x ^ 2 / (2 : Nat) + curve.square * x ^ 3 / (3 : Nat) +
    curve.cube * x ^ 4 / (4 : Nat)

@[simp]
theorem primitive_zero (curve : Cubic K) :
    curve.primitive 0 = 0 := by
  simp [primitive]

/-- Minus the slope of a parabola. -/
def descent (curve : Cubic K) : Cubic K :=
  { constant := -curve.linear, linear := -(2 • curve.square), square := 0, cube := 0 }

theorem descent_linear (curve : Cubic K) :
    curve.descent.linear = -(2 * curve.square) :=
  congrArg Neg.neg (nsmul_eq_mul 2 curve.square)

/-- A polynomial by its coefficients up to degree three. -/
def ofPolynomial (curve : Polynomial K) : Cubic K where
  constant := curve.coeff 0
  linear := curve.coeff 1
  square := curve.coeff 2
  cube := curve.coeff 3

theorem eval_ofPolynomial
    {curve : Polynomial K}
    (low : curve.natDegree ≤ 3)
    (x : K) :
    (ofPolynomial curve).eval x = curve.eval x := by
  rw [Polynomial.eval_eq_sum_range' (Nat.lt_succ_of_le low)]
  simp [Finset.sum_range_succ, eval, ofPolynomial]

/-- Up to degree two there is no cube. -/
theorem ofPolynomial_cube
    {curve : Polynomial K}
    (low : curve.natDegree ≤ 2) :
    (ofPolynomial curve).cube = 0 :=
  Polynomial.coeff_eq_zero_of_natDegree_lt (Nat.lt_succ_of_le low)

/-- Up to degree one there is no square either. -/
theorem ofPolynomial_square
    {curve : Polynomial K}
    (low : curve.natDegree ≤ 1) :
    (ofPolynomial curve).square = 0 :=
  Polynomial.coeff_eq_zero_of_natDegree_lt (Nat.lt_succ_of_le low)

section Rises

variable [CharZero K]

/-- The central difference of a parabola is its slope. -/
theorem centralDifference_eq
    {curve : Cubic K}
    {h : K}
    (parabolic : curve.cube = 0)
    (apart : h ≠ 0)
    (x : K) :
    (curve.eval (x + h) - curve.eval (x - h)) / (2 * h) = -curve.descent.eval x := by
  simp only [eval, descent, parabolic]
  field_simp
  ring

/-- The trapezoid over one interval of a line. -/
theorem trapezoid_rise
    {curve : Cubic K}
    (straight : curve.square = 0 ∧ curve.cube = 0)
    (x h : K) :
    h * ((curve.eval x + curve.eval (x + h)) / 2) =
      curve.primitive (x + h) - curve.primitive x := by
  simp only [eval, primitive, straight, Nat.cast_ofNat]
  ring

/-- Simpson's rule over a panel of two intervals. -/
theorem panel_rise
    (curve : Cubic K)
    (x h : K) :
    h * (curve.eval x + 4 * curve.eval (x + h) + curve.eval (x + 2 * h)) =
      3 * (curve.primitive (x + 2 * h) - curve.primitive x) := by
  simp only [eval, primitive, Nat.cast_ofNat]
  ring

/-- The three-eighths rule over three intervals. -/
theorem threeEighths_rise
    (curve : Cubic K)
    (x h : K) :
    3 * h / 8 *
        (curve.eval x + 3 * curve.eval (x + h) + 3 * curve.eval (x + 2 * h) +
          curve.eval (x + 3 * h)) =
      curve.primitive (x + 3 * h) - curve.primitive x := by
  simp only [eval, primitive, Nat.cast_ofNat]
  ring

/-- The first interval, from the parabola through the next sample. -/
theorem first_rise
    {curve : Cubic K}
    (parabolic : curve.cube = 0)
    (h : K) :
    h * (5 * curve.eval 0 + 8 * curve.eval h - curve.eval (2 * h)) / 12 =
      curve.primitive h := by
  simp only [eval, primitive, parabolic, Nat.cast_ofNat]
  ring

end Rises

theorem hasDerivAt_primitive (curve : Cubic ℝ) (x : ℝ) :
    HasDerivAt curve.primitive (curve.eval x) x := by
  have first := (hasDerivAt_id x).const_mul curve.constant
  have second := ((hasDerivAt_pow 2 x).const_mul curve.linear).div_const 2
  have third := ((hasDerivAt_pow 3 x).const_mul curve.square).div_const 3
  have fourth := ((hasDerivAt_pow 4 x).const_mul curve.cube).div_const 4
  refine (((first.add second).add third).add fourth).congr_deriv ?_
  simp only [eval, Nat.cast_ofNat, Nat.add_one_sub_one]
  ring

/-- The integral is what the primitive rises. -/
theorem integral_eval_between (curve : Cubic ℝ) (a b : ℝ) :
    ∫ s in a..b, curve.eval s = curve.primitive b - curve.primitive a := by
  have continuous : Continuous curve.eval := by
    unfold eval
    fun_prop
  exact intervalIntegral.integral_eq_sub_of_hasDerivAt
    (fun s _ => curve.hasDerivAt_primitive s) (continuous.intervalIntegrable a b)

/-- The primitive is the integral from the origin. -/
theorem integral_eval (curve : Cubic ℝ) (x : ℝ) :
    ∫ s in (0 : ℝ)..x, curve.eval s = curve.primitive x := by
  rw [integral_eval_between, primitive_zero, sub_zero]

/-- The integral of a polynomial up to degree three. -/
theorem integral_ofPolynomial
    {curve : Polynomial ℝ}
    (low : curve.natDegree ≤ 3)
    (a b : ℝ) :
    ∫ s in a..b, curve.eval s =
      (ofPolynomial curve).primitive b - (ofPolynomial curve).primitive a := by
  simp only [← eval_ofPolynomial low]
  exact integral_eval_between _ a b

end Cubic

end Electrostatics
