import Mathlib.Algebra.BigOperators.Intervals
import Electrostatics.Proofs.Number.Exact
import Electrostatics.Quadrature

namespace Electrostatics.Quadrature

/-!
# The rules as sums

In exact arithmetic the order in which a rule adds does not matter, and its loop over the inner
points is a sum.
-/

open scoped Exact

variable
  {K : Type}
  [Field K]
  [LinearOrder K]
  [FloorRing K]

/-- The weighted sum of a function over the inner ends of equal steps. -/
def innerSum
    (weight : Nat → K)
    (f : K → K)
    (a h : K)
    (count : Nat) :
    K :=
  ∑ index ∈ Finset.Ico 1 count, weight index * f (a + index * h)

/-- The loop over the inner points is the sum over them. -/
theorem run_addInnerM
    (f : K → K)
    (weight : Nat → K)
    (a h : K)
    (count first : Nat)
    (sum : K) :
    Id.run (addInnerM (fun x => pure (f x)) weight a h count first sum) =
      sum + ∑ index ∈ Finset.Ico first (first + count), weight index * f (a + index * h) := by
  induction count generalizing first sum with
  | zero => rw [Nat.add_zero, Finset.Ico_self, Finset.sum_empty, add_zero]; rfl
  | succ count inductionHypothesis =>
      have further : first < first + (count + 1) := by omega
      have behind : first + (count + 1) = first + 1 + count := by omega
      rw [Finset.sum_eq_sum_Ico_succ_bot further, behind, ← add_assoc]
      exact inductionHypothesis (first + 1) _

/-- Adding plainly is adding with the weight one. -/
theorem addPlainM_eq_addInnerM
    {m : Type → Type}
    [Monad m]
    (f : K → m K)
    (a h : K)
    (count first : Nat)
    (sum : K) :
    addPlainM f a h count first sum = addInnerM f (fun _ => 1) a h count first sum := by
  induction count generalizing first sum with
  | zero => rfl
  | succ count inductionHypothesis =>
      rw [addPlainM, addInnerM]
      refine bind_congr fun value => ?_
      rw [one_mul]
      exact inductionHypothesis _ _

/-- The loop over nodes is the sum over them. -/
theorem run_addNodesM
    (f : K → K)
    (middle half : K)
    (nodes : List (K × K))
    (sum : K) :
    Id.run (addNodesM (fun x => pure (f x)) middle half nodes sum) =
      sum + (nodes.map fun node => node.2 * f (middle + half * node.1)).sum := by
  induction nodes generalizing sum with
  | nil => rw [List.map_nil, List.sum_nil, add_zero]; rfl
  | cons node rest inductionHypothesis =>
      rw [List.map_cons, List.sum_cons, ← add_assoc]
      exact inductionHypothesis _

/-- A request for no intervals, or for an odd number of them, has the integral zero. -/
theorem simpson_of_senseless
    {intervals : Nat}
    (senseless : intervals < 2 ∨ intervals % 2 = 1)
    (f : K → K)
    (a b : K) :
    simpson f a b intervals = 0 := by
  rw [simpson, simpsonM, if_pos senseless]
  exact Exact.numeral_zero

/-- Without any interval the trapezoids have the integral zero. -/
theorem trapezoidal_of_senseless
    (f : K → K)
    (a b : K) :
    trapezoidal f a b 0 = 0 := by
  rw [trapezoidal, trapezoidalM, if_pos rfl]
  exact Exact.numeral_zero

/-- Simpson's rule as a sum. -/
theorem simpson_eq
    {intervals : Nat}
    (proper : ¬(intervals < 2 ∨ intervals % 2 = 1))
    (f : K → K)
    (a b : K) :
    simpson f a b intervals =
      (f a + f b + innerSum simpsonWeight f a ((b - a) / intervals) intervals) *
        ((b - a) / intervals) / 3 := by
  have inner : 1 + (intervals - 1) = intervals := by omega
  have sum :=
    run_addInnerM f simpsonWeight a ((b - a) / intervals) (intervals - 1) 1 (f a + f b)
  rw [inner] at sum
  rw [simpson, simpsonM, if_neg proper, innerSum, ← sum]
  rfl

/-- The trapezoid rule as a sum. -/
theorem trapezoidal_eq
    {intervals : Nat}
    (proper : intervals ≠ 0)
    (f : K → K)
    (a b : K) :
    trapezoidal f a b intervals =
      ((f a + f b) / 2 + innerSum (fun _ => 1) f a ((b - a) / intervals) intervals) *
        ((b - a) / intervals) := by
  have inner : 1 + (intervals - 1) = intervals := by omega
  have sum :=
    run_addInnerM f (fun _ => 1) a ((b - a) / intervals) (intervals - 1) 1 ((f a + f b) / 2)
  rw [inner, ← addPlainM_eq_addInnerM] at sum
  rw [trapezoidal, trapezoidalM, if_neg proper, innerSum, ← sum]
  rfl

/-- The five-point rule as a sum over its nodes. -/
theorem gaussian_eq
    (f : K → K)
    (a b : K) :
    gaussian f a b =
      (gaussianNodes.map fun node => node.2 * f ((b + a) / 2 + (b - a) / 2 * node.1)).sum *
        ((b - a) / 2) := by
  have loop :
      gaussian f a b =
        Id.run
            (addNodesM (fun x => pure (f x)) ((b + a) / 2) ((b - a) / 2) gaussianNodes
              (-@OfNat.ofNat K 0 (Scalar.numeral 0))) *
          ((b - a) / 2) :=
    rfl
  rw [loop, run_addNodesM, Exact.numeral_zero, neg_zero, zero_add]

end Electrostatics.Quadrature
