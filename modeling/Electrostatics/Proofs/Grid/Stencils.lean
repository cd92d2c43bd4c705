import Electrostatics.Grid.Operator
import Electrostatics.Proofs.Number.Exact
import Mathlib.Algebra.MvPolynomial.PDeriv
import Mathlib.Algebra.Polynomial.BigOperators
import Mathlib.Algebra.Polynomial.Derivative
import Mathlib.Algebra.Polynomial.Eval.Degree

namespace Electrostatics

/-!
# Differences of polynomials

In exact arithmetic a difference quotient is the derivative of a polynomial of low degree:
two samples suffice for degree two, and the five-point rules for degree four, or five for the
second derivative.  A polynomial in several variables is differentiated along one of them on
the line on which the others are held, where it is a polynomial in one variable.
-/

open scoped Exact

section OneVariable

variable
  {K : Type}
  [Field K]
  {curve : Polynomial K}

theorem eval_of_natDegree_le
    {degree : Nat}
    (low : curve.natDegree ≤ degree)
    (t : K) :
    curve.eval t = ∑ power ∈ Finset.range (degree + 1), curve.coeff power * t ^ power :=
  Polynomial.eval_eq_sum_range' (Nat.lt_succ_of_le low) t

theorem eval_derivative_of_natDegree_le
    {degree : Nat}
    (low : curve.natDegree ≤ degree + 1)
    (t : K) :
    curve.derivative.eval t =
      ∑ power ∈ Finset.range (degree + 1),
        curve.coeff (power + 1) * (power + 1) * t ^ power := by
  have lower : curve.derivative.natDegree ≤ degree :=
    (Polynomial.natDegree_derivative_le curve).trans (by omega)
  simp only [eval_of_natDegree_le lower, Polynomial.coeff_derivative]

variable
  [CharZero K]
  {h : K}

/-- The central difference of a parabola is its slope. -/
theorem centralDifference_eq_derivative
    (low : curve.natDegree ≤ 2)
    (apart : h ≠ 0)
    (t : K) :
    (curve.eval (t + h) - curve.eval (t - h)) / (2 * h) = curve.derivative.eval t := by
  rw [eval_of_natDegree_le low, eval_of_natDegree_le low, eval_derivative_of_natDegree_le low]
  simp only [Finset.sum_range_succ, Finset.sum_range_zero]
  field_simp
  ring

variable [LinearOrder K] [FloorRing K]

/-- The five-point rule for the slope is exact up to degree four. -/
theorem fivePointFirst_eq_derivative
    (low : curve.natDegree ≤ 4)
    (apart : h ≠ 0)
    (t : K) :
    fivePointFirst (curve.eval (t - 2 * h)) (curve.eval (t - h)) (curve.eval (t + h))
        (curve.eval (t + 2 * h)) h =
      curve.derivative.eval t := by
  simp only [fivePointFirst, Exact.numeral_ofNat]
  rw [eval_derivative_of_natDegree_le low]
  simp only [eval_of_natDegree_le low, Finset.sum_range_succ, Finset.sum_range_zero]
  field_simp
  ring

/-- The five-point rule for the second derivative is exact up to degree five. -/
theorem fivePointSecond_eq_derivative
    (low : curve.natDegree ≤ 5)
    (apart : h ≠ 0)
    (t : K) :
    fivePointSecond (curve.eval (t - 2 * h)) (curve.eval (t - h)) (curve.eval t)
        (curve.eval (t + h)) (curve.eval (t + 2 * h)) h =
      curve.derivative.derivative.eval t := by
  have lower : curve.derivative.natDegree ≤ 4 :=
    (Polynomial.natDegree_derivative_le curve).trans (by omega)
  simp only [fivePointSecond, Exact.numeral_ofNat]
  rw [eval_derivative_of_natDegree_le lower]
  simp only [eval_of_natDegree_le low, Polynomial.coeff_derivative, Finset.sum_range_succ,
    Finset.sum_range_zero]
  field_simp
  ring

end OneVariable

section Lines

open MvPolynomial

variable
  {K Variable : Type}
  [Field K]
  [DecidableEq Variable]
  {place : Variable → K}
  {along : Variable}

/-- A polynomial on the line through a place along a variable. -/
noncomputable def onLine
    (place : Variable → K)
    (along : Variable) :
    MvPolynomial Variable K →ₐ[K] Polynomial K :=
  aeval (Function.update (fun other => Polynomial.C (place other)) along Polynomial.X)

theorem onLine_X_self : onLine place along (X along) = Polynomial.X := by
  simp [onLine]

theorem onLine_X_of_ne
    {other : Variable}
    (different : other ≠ along) :
    onLine place along (X other) = Polynomial.C (place other) := by
  simp [onLine, different]

/-- On the line a polynomial has the value at the place that the line reaches. -/
theorem eval_onLine
    (curve : MvPolynomial Variable K)
    (t : K) :
    (onLine place along curve).eval t = eval (Function.update place along t) curve := by
  induction curve using MvPolynomial.induction_on with
  | C value => simp [onLine]
  | add first second firstHypothesis secondHypothesis =>
      simp [firstHypothesis, secondHypothesis]
  | mul_X curve factor inductionHypothesis =>
      by_cases same : factor = along
      · subst same
        simp [inductionHypothesis, onLine_X_self]
      · simp [inductionHypothesis, onLine_X_of_ne same, same]

/-- The partial derivative is the derivative on the line. -/
theorem onLine_pderiv (curve : MvPolynomial Variable K) :
    onLine place along (pderiv along curve) = (onLine place along curve).derivative := by
  induction curve using MvPolynomial.induction_on with
  | C value => simp [onLine]
  | add first second firstHypothesis secondHypothesis =>
      simp [firstHypothesis, secondHypothesis]
  | mul_X curve factor inductionHypothesis =>
      by_cases same : factor = along
      · subst same
        rw [pderiv_mul, pderiv_X_self, map_add, map_mul, map_mul, map_one, inductionHypothesis,
          onLine_X_self, map_mul, onLine_X_self, Polynomial.derivative_mul,
          Polynomial.derivative_X]
      · rw [pderiv_mul, pderiv_X_of_ne same, mul_zero, add_zero, map_mul, inductionHypothesis,
          map_mul, onLine_X_of_ne same, Polynomial.derivative_mul, Polynomial.derivative_C,
          mul_zero, add_zero]

/-- A power of a variable counts on the line only if the line runs along it. -/
theorem natDegree_onLine_X_pow_le
    (other : Variable)
    (power : Nat) :
    (onLine place along (X other) ^ power).natDegree ≤ if other = along then power else 0 := by
  by_cases same : other = along
  · subst same
    simp [onLine_X_self]
  · simp [onLine_X_of_ne same, same]

theorem natDegree_onLine_monomial_le
    (powers : Variable →₀ Nat)
    (coefficient : K) :
    (onLine place along (monomial powers coefficient)).natDegree ≤ powers along := by
  have factored :
      onLine place along (monomial powers coefficient) =
        Polynomial.C coefficient *
          ∏ other ∈ powers.support, onLine place along (X other) ^ powers other := by
    rw [monomial_eq, Finsupp.prod, map_mul, map_prod, algHom_C, Polynomial.algebraMap_eq]
    simp only [map_pow]
  rw [factored]
  refine (Polynomial.natDegree_C_mul_le _ _).trans ?_
  calc
    (∏ other ∈ powers.support, onLine place along (X other) ^ powers other).natDegree
        ≤ ∑ other ∈ powers.support, (onLine place along (X other) ^ powers other).natDegree :=
      Polynomial.natDegree_prod_le _ _
    _ ≤ ∑ other ∈ powers.support, if other = along then powers other else 0 :=
      Finset.sum_le_sum fun other _ => natDegree_onLine_X_pow_le other (powers other)
    _ = powers along := by
      rw [Finset.sum_ite_eq']
      simp +contextual

/-- The degree on the line is at most that in its variable. -/
theorem natDegree_onLine_le
    (place : Variable → K)
    (along : Variable)
    (curve : MvPolynomial Variable K) :
    (onLine place along curve).natDegree ≤ curve.degreeOf along := by
  have terms :
      onLine place along curve =
        ∑ powers ∈ curve.support, onLine place along (monomial powers (curve.coeff powers)) := by
    rw [← map_sum, ← curve.as_sum]
  rw [terms]
  refine Polynomial.natDegree_sum_le_of_forall_le _ _ fun powers present => ?_
  exact (natDegree_onLine_monomial_le powers _).trans (monomial_le_degreeOf along present)

omit [DecidableEq Variable] in
/-- A derivative has no greater degree than its polynomial. -/
theorem degreeOf_pderiv_le
    (along : Variable)
    (curve : MvPolynomial Variable K) :
    (pderiv along curve).degreeOf along ≤ curve.degreeOf along := by
  refine degreeOf_le_iff.mpr fun powers present => ?_
  have raised : powers + Finsupp.single along 1 ∈ curve.support := by
    rw [mem_support_iff, coeff_pderiv] at present
    exact mem_support_iff.mpr (left_ne_zero_of_mul present)
  have bounded := monomial_le_degreeOf along raised
  rw [Finsupp.add_apply, Finsupp.single_eq_same] at bounded
  omega

theorem eval_pderiv_eq_derivative
    (place : Variable → K)
    (along : Variable)
    (curve : MvPolynomial Variable K) :
    eval place (pderiv along curve) =
      (onLine place along curve).derivative.eval (place along) := by
  rw [← onLine_pderiv, eval_onLine, Function.update_eq_self]

section Differences

variable
  [CharZero K]
  {curve : MvPolynomial Variable K}
  {h : K}

/-- The central difference along a variable in which a polynomial is a parabola. -/
theorem centralDifference_eq_pderiv
    (low : curve.degreeOf along ≤ 2)
    (apart : h ≠ 0)
    (place : Variable → K) :
    (eval (Function.update place along (place along + h)) curve -
        eval (Function.update place along (place along - h)) curve) / (2 * h) =
      eval place (pderiv along curve) := by
  have lowOnLine := (natDegree_onLine_le place along curve).trans low
  have rule := centralDifference_eq_derivative lowOnLine apart (place along)
  rwa [eval_onLine, eval_onLine, ← eval_pderiv_eq_derivative] at rule

variable [LinearOrder K] [FloorRing K]

theorem fivePointFirst_eq_pderiv
    (low : curve.degreeOf along ≤ 4)
    (apart : h ≠ 0)
    (place : Variable → K) :
    fivePointFirst (eval (Function.update place along (place along - 2 * h)) curve)
        (eval (Function.update place along (place along - h)) curve)
        (eval (Function.update place along (place along + h)) curve)
        (eval (Function.update place along (place along + 2 * h)) curve) h =
      eval place (pderiv along curve) := by
  have lowOnLine := (natDegree_onLine_le place along curve).trans low
  have rule := fivePointFirst_eq_derivative lowOnLine apart (place along)
  rwa [eval_onLine, eval_onLine, eval_onLine, eval_onLine, ← eval_pderiv_eq_derivative] at rule

theorem fivePointSecond_eq_pderiv
    (low : curve.degreeOf along ≤ 5)
    (apart : h ≠ 0)
    (place : Variable → K) :
    fivePointSecond (eval (Function.update place along (place along - 2 * h)) curve)
        (eval (Function.update place along (place along - h)) curve) (eval place curve)
        (eval (Function.update place along (place along + h)) curve)
        (eval (Function.update place along (place along + 2 * h)) curve) h =
      eval place (pderiv along (pderiv along curve)) := by
  have lowOnLine := (natDegree_onLine_le place along curve).trans low
  have rule := fivePointSecond_eq_derivative lowOnLine apart (place along)
  rw [eval_pderiv_eq_derivative, onLine_pderiv]
  simpa only [eval_onLine, Function.update_eq_self] using rule

end Differences

end Lines

end Electrostatics
