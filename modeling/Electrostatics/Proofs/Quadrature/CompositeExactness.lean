import Mathlib.Data.Rat.Floor
import Electrostatics.Proofs.Quadrature.PanelSums

namespace Electrostatics.Quadrature

/-!
# Exactness of the composite rules

Every step of the trapezoid rule adds what the primitive of a line rises over it, and every panel
of Simpson's rule does so for polynomials up to degree three.  However many of them there are, the
rises add up to the integral.  For any function at all, Simpson's rule is what two runs of the
trapezoid rule are extrapolated to.
-/

open scoped Exact

section Integrals

variable
  {curve : Polynomial ℝ}
  (a b : ℝ)

theorem simpson_eq_integral
    (low : curve.natDegree ≤ 3)
    {panels : Nat}
    (proper : panels ≠ 0) :
    simpson curve.eval a b (2 * panels) = ∫ x in a..b, curve.eval x := by
  have cubic : (fun x => curve.eval x) = (Cubic.ofPolynomial curve).eval :=
    funext fun x => (Cubic.eval_ofPolynomial low x).symm
  have steps : ((2 * panels : Nat) : ℝ) ≠ 0 := Nat.cast_ne_zero.mpr (by omega)
  rw [Cubic.integral_ofPolynomial low, cubic, simpson_eq_panelSum, panelSum_rise,
    mul_div_cancel₀ _ steps, add_sub_cancel]

theorem trapezoidal_eq_integral
    (low : curve.natDegree ≤ 1)
    {steps : Nat}
    (proper : steps ≠ 0) :
    trapezoidal curve.eval a b steps = ∫ x in a..b, curve.eval x := by
  have cubic : (fun x => curve.eval x) = (Cubic.ofPolynomial curve).eval :=
    funext fun x => (Cubic.eval_ofPolynomial (by omega) x).symm
  have straight :
      (Cubic.ofPolynomial curve).square = 0 ∧ (Cubic.ofPolynomial curve).cube = 0 :=
    ⟨Cubic.ofPolynomial_square low, Cubic.ofPolynomial_cube (by omega)⟩
  have apart : (steps : ℝ) ≠ 0 := Nat.cast_ne_zero.mpr proper
  rw [Cubic.integral_ofPolynomial (by omega), cubic, trapezoidal_eq_stepSum,
    stepSum_rise straight, mul_div_cancel₀ _ apart, add_sub_cancel]

end Integrals

/--
The composite rules are exact to their order, with any number of intervals, between any two
places and in either direction: Simpson's rule up to degree three and the trapezoid rule up to
degree one.  For every function Simpson's rule is the extrapolation of the trapezoid rule with
all of the intervals and with half of them.
-/
theorem composite_rules_are_exact_to_their_order (a b : ℝ) :
    (∀ (curve : Polynomial ℝ) (intervals : Nat),
        curve.natDegree ≤ 3 → Even intervals → 2 ≤ intervals →
        simpson curve.eval a b intervals = ∫ x in a..b, curve.eval x) ∧
      (∀ (curve : Polynomial ℝ) (intervals : Nat),
        curve.natDegree ≤ 1 → 1 ≤ intervals →
        trapezoidal curve.eval a b intervals = ∫ x in a..b, curve.eval x) ∧
      ∀ (f : ℝ → ℝ) (intervals : Nat), Even intervals → 2 ≤ intervals →
        simpson f a b intervals =
          (4 * trapezoidal f a b intervals - trapezoidal f a b (intervals / 2)) / 3 := by
  refine ⟨?_, ?_, ?_⟩
  · intro curve intervals low even proper
    obtain ⟨panels, rfl⟩ := even_iff_exists_two_mul.mp even
    exact simpson_eq_integral a b low (by omega)
  · intro curve intervals low proper
    exact trapezoidal_eq_integral a b low (by omega)
  · intro f intervals even proper
    obtain ⟨panels, rfl⟩ := even_iff_exists_two_mul.mp even
    rw [simpson_eq_trapezoidal, Nat.mul_div_cancel_left panels Nat.two_pos]

/--
The third power from two down to zero by four intervals, a line by five, and a kink at one by
four and two trapezoids.
-/
theorem composite_rules_on_a_cube_a_line_and_a_kink :
    let cube : Polynomial ℝ := Polynomial.X ^ 3
    let line : Polynomial ℝ := Polynomial.X
    let kink : ℝ → ℝ := fun x => |x - 1|
    (cube.natDegree ≤ 3 ∧ simpson cube.eval 2 0 4 = -4) ∧
      (line.natDegree ≤ 1 ∧ trapezoidal line.eval 0 3 5 = 9 / 2) ∧
      simpson kink 0 5 4 = (4 * trapezoidal kink 0 5 4 - trapezoidal kink 0 5 2) / 3 := by
  intro cube line kink
  obtain ⟨ofCube, -, -⟩ := composite_rules_are_exact_to_their_order 2 0
  obtain ⟨-, ofLine, -⟩ := composite_rules_are_exact_to_their_order 0 3
  obtain ⟨-, -, ofKink⟩ := composite_rules_are_exact_to_their_order 0 5
  have cubeLow : cube.natDegree ≤ 3 := (Polynomial.natDegree_X_pow 3).le
  have lineLow : line.natDegree ≤ 1 := Polynomial.natDegree_X_le
  refine ⟨⟨cubeLow, ?_⟩, ⟨lineLow, ?_⟩, ofKink kink 4 (by decide) (by decide)⟩
  · rw [ofCube cube 4 cubeLow (by decide) (by decide)]
    simp only [cube, Polynomial.eval_pow, Polynomial.eval_X, integral_pow]
    norm_num
  · rw [ofLine line 5 lineLow (by decide)]
    simp only [line, Polynomial.eval_X, integral_id]
    norm_num

end Electrostatics.Quadrature
