import Mathlib.Data.Rat.Floor
import Electrostatics.Proofs.Number.Between
import Electrostatics.Proofs.Quadrature.Sums
import Electrostatics.RootFinding

namespace Electrostatics

/-!
# Rules that stay within their interval

No rule asks its function at a place outside of the interval that it is given, in whichever
order the two ends are named.  The places of the composite rules and of the rule of Gauss and
Legendre are known beforehand; those of the adaptive rule and of bisection depend on the
function, but each of them lies in the middle between two places asked before.  So two
functions that agree on the interval cannot be told apart, whatever else they do when they are
asked.
-/

namespace Quadrature

section AnyNumbers

open scoped Scalar

variable
  {α : Type}
  [Scalar α]
  {m : Type → Type}
  [Monad m]
  {f g : α → m α}

/-- Weighted sums over inner points take no other values than those at these points. -/
theorem addInnerM_congr
    {weight : Nat → α}
    {a h : α}
    {count first : Nat}
    (agree :
      ∀ index, first ≤ index → index < first + count →
        f (a + (index : α) * h) = g (a + (index : α) * h))
    (sum : α) :
    addInnerM f weight a h count first sum = addInnerM g weight a h count first sum := by
  induction count generalizing first sum with
  | zero => rfl
  | succ count inductionHypothesis =>
      rw [addInnerM, addInnerM, agree first (Nat.le_refl _) (by omega)]
      refine bind_congr fun value => inductionHypothesis ?_ _
      exact fun index low high => agree index (by omega) (by omega)

/-- Weighted sums over nodes take no other values than those at the nodes. -/
theorem addNodesM_congr
    {middle half : α}
    {nodes : List (α × α)}
    (agree : ∀ node ∈ nodes, f (middle + half * node.1) = g (middle + half * node.1))
    (sum : α) :
    addNodesM f middle half nodes sum = addNodesM g middle half nodes sum := by
  induction nodes generalizing sum with
  | nil => rfl
  | cons node rest inductionHypothesis =>
      obtain ⟨first, others⟩ := List.forall_mem_cons.mp agree
      rw [addNodesM, addNodesM, first]
      exact bind_congr fun value => inductionHypothesis others _

end AnyNumbers

end Quadrature

section Places

variable
  {K : Type}
  [Field K]
  [LinearOrder K]
  [IsStrictOrderedRing K]
  {a b : K}

/-- The ends of equal steps lie in between. -/
theorem step_mem_uIcc
    {index count : Nat}
    (inside : index ≤ count)
    (positive : 0 < count) :
    a + (index : K) * ((b - a) / (count : K)) ∈ Set.uIcc a b := by
  have steps : (0 : K) < count := Nat.cast_pos.mpr positive
  have part : (index : K) * ((b - a) / (count : K)) = index / count * (b - a) := by ring
  rw [part]
  refine part_of_the_way_mem_uIcc (by positivity) ?_
  rw [div_le_one steps]
  exact Nat.cast_le.mpr inside

/-- A node of the interval from minus one to one lies in between when it is carried over. -/
theorem node_mem_uIcc
    {node : K}
    (bounded : |node| ≤ 1) :
    (b + a) / 2 + (b - a) / 2 * node ∈ Set.uIcc a b := by
  obtain ⟨low, high⟩ := abs_le.mp bounded
  have part : (b + a) / 2 + (b - a) / 2 * node = a + (1 + node) / 2 * (b - a) := by ring
  rw [part]
  exact part_of_the_way_mem_uIcc (by linarith) (by linarith)

/-- Functions that agree between two ends agree on the two halves. -/
theorem eqOn_halves
    {β : Type}
    {f g : K → β}
    (agree : Set.EqOn f g (Set.uIcc a b)) :
    Set.EqOn f g (Set.uIcc a ((a + b) / 2)) ∧ Set.EqOn f g (Set.uIcc ((a + b) / 2) b) :=
  ⟨agree.mono (Set.uIcc_subset_uIcc_left (middle_mem_uIcc a b)),
    agree.mono (Set.uIcc_subset_uIcc_right (middle_mem_uIcc a b))⟩

end Places

open scoped Exact

variable
  {K : Type}
  [Field K]
  [LinearOrder K]
  [FloorRing K]
  [IsStrictOrderedRing K]
  {m : Type → Type}
  [Monad m]
  {f g : K → m K}
  {a b : K}

namespace Quadrature

/-- Up to a whole in femto units, a value is at most one. -/
theorem abs_femto_le
    {units : Nat}
    (few : units ≤ Decimal.powerOfTen 15) :
    |(femto units : K)| ≤ 1 := by
  have positive : (0 : K) < (Decimal.powerOfTen 15 : Nat) := Nat.cast_pos.mpr (by decide)
  have quotient : (femto units : K) = (units : K) / (Decimal.powerOfTen 15 : Nat) := rfl
  rw [quotient, abs_of_nonneg (div_nonneg units.cast_nonneg positive.le), div_le_one positive]
  exact Nat.cast_le.mpr few

/-- The nodes of the five-point rule lie in the interval that it is made for. -/
theorem abs_gaussianNode_le
    {node : K × K}
    (met : node ∈ gaussianNodes) :
    |node.1| ≤ 1 := by
  simp only [gaussianNodes, List.mem_cons, List.not_mem_nil, or_false] at met
  rcases met with rfl | rfl | rfl | rfl | rfl
  · exact (abs_neg _).trans_le (abs_femto_le (by decide))
  · exact (abs_neg _).trans_le (abs_femto_le (by decide))
  · simp
  · exact abs_femto_le (by decide)
  · exact abs_femto_le (by decide)

/-- Integrands that agree on the interval are integrated alike, with all that they do. -/
theorem simpsonM_congr
    (agree : Set.EqOn f g (Set.uIcc a b))
    (intervals : Nat) :
    simpsonM f a b intervals = simpsonM g a b intervals := by
  unfold simpsonM
  split
  case isTrue senseless => rfl
  case isFalse proper =>
    rw [agree Set.left_mem_uIcc, agree Set.right_mem_uIcc]
    refine bind_congr fun atStart => bind_congr fun atEnd => ?_
    rw [addInnerM_congr]
    exact fun index low high => agree (step_mem_uIcc (by omega) (by omega))

theorem trapezoidalM_congr
    (agree : Set.EqOn f g (Set.uIcc a b))
    (intervals : Nat) :
    trapezoidalM f a b intervals = trapezoidalM g a b intervals := by
  unfold trapezoidalM
  split
  case isTrue senseless => rfl
  case isFalse proper =>
    rw [agree Set.left_mem_uIcc, agree Set.right_mem_uIcc]
    refine bind_congr fun atStart => bind_congr fun atEnd => ?_
    rw [addPlainM_eq_addInnerM, addPlainM_eq_addInnerM, addInnerM_congr]
    exact fun index low high => agree (step_mem_uIcc (by omega) (by omega))

theorem gaussianM_congr (agree : Set.EqOn f g (Set.uIcc a b)) :
    gaussianM f a b = gaussianM g a b := by
  simp only [gaussianM]
  rw [addNodesM_congr]
  exact fun node met => agree (node_mem_uIcc (abs_gaussianNode_le met))

/-- Wherever the values that a panel knows come from, the new ones are taken in its middle. -/
theorem refineM_congr
    {whole : Panel K}
    (agree : Set.EqOn f g (Set.uIcc whole.a whole.b))
    (depth : Nat)
    (tolerance : K) :
    refineM f depth tolerance whole = refineM g depth tolerance whole := by
  induction depth generalizing whole tolerance with
  | zero =>
      obtain ⟨before, behind⟩ := eqOn_halves agree
      rw [refineM, refineM]
      simp only [Exact.numeral_ofNat, before (middle_mem_uIcc _ _), behind (middle_mem_uIcc _ _)]
  | succ depth inductionHypothesis =>
      obtain ⟨before, behind⟩ := eqOn_halves agree
      rw [refineM, refineM]
      simp only [Exact.numeral_ofNat, before (middle_mem_uIcc _ _), behind (middle_mem_uIcc _ _)]
      refine bind_congr fun atLeft => bind_congr fun atRight => ?_
      split
      case isTrue accepted => rfl
      case isFalse refused =>
        rw [inductionHypothesis before]
        exact bind_congr fun _ => congrArg (· >>= _) (inductionHypothesis behind _)

theorem adaptiveM_congr
    (agree : Set.EqOn f g (Set.uIcc a b))
    (tolerance : K)
    (depth : Nat) :
    adaptiveM f a b tolerance depth = adaptiveM g a b tolerance depth := by
  unfold adaptiveM
  split
  case isTrue same => rfl
  case isFalse apart =>
    rw [agree Set.left_mem_uIcc, agree Set.right_mem_uIcc, Exact.numeral_ofNat,
      agree (middle_mem_uIcc a b)]
    refine bind_congr fun atStart => bind_congr fun atEnd => bind_congr fun atMiddle => ?_
    exact refineM_congr agree depth tolerance

end Quadrature

namespace RootFinding

/-- Bisection asks in the middle of its bracket, which only ever shrinks. -/
theorem bisectM_congr
    (agree : Set.EqOn f g (Set.uIcc a b))
    (tolerance : K)
    (iterations : Nat)
    (atStart : K) :
    bisectM f tolerance iterations a b atStart = bisectM g tolerance iterations a b atStart := by
  induction iterations generalizing a b atStart with
  | zero => rfl
  | succ iterations inductionHypothesis =>
      obtain ⟨before, behind⟩ := eqOn_halves agree
      simp only [bisectM, Exact.numeral_ofNat, agree (middle_mem_uIcc a b)]
      refine bind_congr fun value => ?_
      split
      case isTrue found => rfl
      case isFalse further =>
        split
        case isTrue changes => exact inductionHypothesis before atStart
        case isFalse keeps => exact inductionHypothesis behind value

theorem bisectionM_congr
    (agree : Set.EqOn f g (Set.uIcc a b))
    (tolerance : K)
    (iterations : Nat) :
    bisectionM f a b tolerance iterations = bisectionM g a b tolerance iterations := by
  unfold bisectionM
  rw [agree Set.left_mem_uIcc, agree Set.right_mem_uIcc]
  refine bind_congr fun atStart => bind_congr fun atEnd => ?_
  rw [bisectM_congr agree]

end RootFinding

open Quadrature RootFinding

/--
No rule looks outside of its interval.  Two functions that agree between the two ends, in
whichever order these are given, have the same integral by every rule, with any number of
intervals and for any tolerance and depth, and bisection ends with the same root or the same
error.
-/
theorem rules_stay_within_their_interval
    {f g : K → K}
    (agree : Set.EqOn f g (Set.uIcc a b)) :
    (∀ intervals, simpson f a b intervals = simpson g a b intervals) ∧
      (∀ intervals, trapezoidal f a b intervals = trapezoidal g a b intervals) ∧
      gaussian f a b = gaussian g a b ∧
      (∀ tolerance depth, adaptive f a b tolerance depth = adaptive g a b tolerance depth) ∧
      ∀ tolerance iterations,
        bisection f a b tolerance iterations = bisection g a b tolerance iterations := by
  have alike :
      Set.EqOn (fun x => (pure (f x) : Id K)) (fun x => pure (g x)) (Set.uIcc a b) :=
    fun x between => congrArg pure (agree between)
  refine ⟨?_, ?_, ?_, ?_, ?_⟩
  · exact fun intervals => congrArg Id.run (simpsonM_congr alike intervals)
  · exact fun intervals => congrArg Id.run (trapezoidalM_congr alike intervals)
  · exact congrArg Id.run (gaussianM_congr alike)
  · exact fun tolerance depth => congrArg Id.run (adaptiveM_congr alike tolerance depth)
  · exact fun tolerance iterations =>
      congrArg Id.run (bisectionM_congr alike tolerance iterations)

/-- From four down to one, a magnitude is not told apart from the number itself. -/
theorem magnitude_from_four_down_to_one :
    let f : ℚ → ℚ := fun x => |x| - 2
    let g : ℚ → ℚ := fun x => x - 2
    Set.EqOn f g (Set.uIcc 4 1) ∧
      simpson f 4 1 2 = -(3 / 2) ∧
      trapezoidal f 4 1 3 = -(3 / 2) ∧
      gaussian f 4 1 = gaussian g 4 1 ∧
      adaptive f 4 1 (-1) 2 = -(3 / 2) ∧
      bisection f 4 1 (1 / 8) 9 = .ok (31 / 16) := by
  intro f g
  have agree : Set.EqOn f g (Set.uIcc 4 1) := by
    intro x between
    have low : 1 ≤ x := (by simpa using between.1)
    simp only [f, g, abs_of_nonneg (zero_le_one.trans low)]
  obtain ⟨bySimpson, byTrapezoids, byGauss, byPanels, root⟩ :=
    rules_stay_within_their_interval agree
  refine ⟨agree, ?_, ?_, byGauss, ?_, ?_⟩
  · exact (bySimpson 2).trans (by decide +kernel)
  · exact (byTrapezoids 3).trans (by decide +kernel)
  · exact (byPanels (-1) 2).trans (by decide +kernel)
  · exact (root (1 / 8) 9).trans (by decide +kernel)

end Electrostatics
