import Electrostatics.Formula.Compiled
import Electrostatics.Proofs.Number.Exact
import Electrostatics.Slice.Plane
import Mathlib.Algebra.MvPolynomial.Eval

namespace Electrostatics

/-!
# Formulas that denote polynomials

A formula of numbers, Cartesian coordinates, sums, differences, products and whole powers
denotes a polynomial in the three coordinates.  In exact arithmetic it has a value at
every point, which is that of the polynomial.
-/

open MvPolynomial
open scoped Exact

/-- The coordinate along an axis. -/
def Axis.coordinate : Axis → Coordinate
  | .x => .x
  | .y => .y
  | .z => .z

variable {K : Type} [Field K] [LinearOrder K] [FloorRing K] [Elementary K]

/-- A tree denotes a polynomial in the coordinates along the axes. -/
inductive Expr.Denotes : Expr → MvPolynomial Axis K → Prop where
  | number (value : Decimal) :
      Denotes (.number value) (C (Scalar.ofDecimal value))
  | constant (name : Constant) :
      Denotes (.constant name) (C name.value)
  | coordinate (axis : Axis) :
      Denotes (.coordinate axis.coordinate) (X axis)
  | negation {operand : Expr} {curve : MvPolynomial Axis K} :
      Denotes operand curve →
      Denotes (.negation operand) (-curve)
  | add {left right : Expr} {first second : MvPolynomial Axis K} :
      Denotes left first →
      Denotes right second →
      Denotes (.operation .add left right) (first + second)
  | sub {left right : Expr} {first second : MvPolynomial Axis K} :
      Denotes left first →
      Denotes right second →
      Denotes (.operation .sub left right) (first - second)
  | mul {left right : Expr} {first second : MvPolynomial Axis K} :
      Denotes left first →
      Denotes right second →
      Denotes (.operation .mul left right) (first * second)
  | pow {base exponent : Expr} {curve : MvPolynomial Axis K} {count : Nat} :
      Denotes base curve →
      Denotes exponent (C (count : K)) →
      Denotes (.operation .pow base exponent) (curve ^ count)

/-- A numeral of digits alone denotes its whole number. -/
theorem Expr.Denotes.wholeNumber (count : Nat) :
    Expr.Denotes (.number ⟨count, 0⟩) (C (count : K)) := by
  have value : Scalar.ofDecimal ⟨count, 0⟩ = (count : K) := by simp [Scalar.ofDecimal]
  exact value ▸ Expr.Denotes.number ⟨count, 0⟩

variable [IsStrictOrderedRing K]

omit [Elementary K] in
theorem isWhole_natCast (count : Nat) :
    Scalar.isWhole (count : K) = true := by
  simp [Scalar.isWhole, Scalar.isFinite, Scalar.floor]

omit [Elementary K] in
theorem toWhole_natCast (count : Nat) :
    Scalar.toWhole (count : K) = count := by
  have notNegative : ¬(count : K) < 0 := not_lt.mpr count.cast_nonneg
  simp [Scalar.toWhole, Scalar.toCount, notNegative]

/-- A whole power multiplies, however large its exponent is. -/
theorem raise_natCast
    [Exact.WholePowers K]
    (base : K)
    (count : Nat) :
    raise base (count : K) = .ok (base ^ count) := by
  have notNegative : ¬(count : K) < 0 := not_lt.mpr count.cast_nonneg
  simp only [raise, isWhole_natCast, toWhole_natCast, Exact.powerInt_eq, zpow_natCast,
    Exact.WholePowers.power_natCast, ite_self]
  simp [notNegative]

/-- The value of a tree is that of the polynomial it denotes. -/
theorem Expr.Denotes.evaluate_eq
    [Exact.WholePowers K]
    {tree : Expr}
    {curve : MvPolynomial Axis K}
    (denotes : tree.Denotes curve)
    (point : Point K) :
    tree.evaluate point =
      .ok (eval (fun axis => point.coordinate axis.coordinate) curve) := by
  induction denotes with
  | number value => rw [Expr.evaluate, eval_C]
  | constant name => rw [Expr.evaluate, eval_C]
  | coordinate axis => rw [Expr.evaluate, eval_X]
  | negation _ inductionHypothesis =>
      rw [Expr.evaluate, inductionHypothesis, map_neg]
      rfl
  | add _ _ firstHypothesis secondHypothesis =>
      rw [Expr.evaluate, firstHypothesis, secondHypothesis, map_add]
      rfl
  | sub _ _ firstHypothesis secondHypothesis =>
      rw [Expr.evaluate, firstHypothesis, secondHypothesis, map_sub]
      rfl
  | mul _ _ firstHypothesis secondHypothesis =>
      rw [Expr.evaluate, firstHypothesis, secondHypothesis, map_mul]
      rfl
  | pow _ _ baseHypothesis exponentHypothesis =>
      rw [Expr.evaluate, baseHypothesis, exponentHypothesis, eval_C, map_pow]
      exact raise_natCast _ _

/-- A formula that denotes a polynomial has the value of the polynomial at every point. -/
theorem Formula.tryEvaluate_of_denotes
    [Exact.WholePowers K]
    {formula : Formula}
    {curve : MvPolynomial Axis K}
    (denotes : formula.tree.Denotes curve)
    (point : Point K) :
    formula.tryEvaluate point =
      .ok (eval (fun axis => point.coordinate axis.coordinate) curve) := by
  simp only [Formula.tryEvaluate, denotes.evaluate_eq point]
  rfl

end Electrostatics
