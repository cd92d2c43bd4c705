import Electrostatics.Derivative
import Electrostatics.Proofs.GaussLaw.Solver
import Electrostatics.Proofs.Grid.Reflection
import Electrostatics.Proofs.Grid.Stencils
import Mathlib.Tactic.NormNum

namespace Electrostatics

/-!
# Difference rules

A derivative is taken of a function at a point, of samples along a line, and of a grid along
its columns and its rows, each by a rule of its own.  In exact arithmetic every rule gives the
derivative of a polynomial up to its degree, and the continuation at the origin gives a
parabola there.  The rules agree with each other as well: the central and the second quotient
come of the one-sided ones, and on a grid one rule serves rows, columns and lines, with one
treatment of the edges.
-/

section Agreement

open scoped Scalar

variable
  {α : Type}
  [Scalar α]

/-- The difference along the columns is that of a row as samples along a line. -/
theorem Grid.difference_row
    (grid : Grid α)
    (row col : Nat)
    (h : α) :
    (Samples.ofFn grid.cols (grid.get row)).difference col h =
      grid.columnDifference row col h := by
  by_cases edge : col < 2 ∨ grid.cols < col + 1
  · have short : col < 2 ∨ (Samples.ofFn grid.cols (grid.get row)).size < col + 1 := by
      rwa [Samples.size_ofFn]
    exact (if_pos short).trans (if_pos edge).symm
  · obtain ⟨first, last⟩ := not_or.mp edge
    rw [not_lt] at first last
    have before : (Samples.ofFn grid.cols (grid.get row)).get (col - 1) = grid.get row (col - 1) :=
      Samples.get_ofFn _ (Nat.le_sub_of_add_le first) (by omega)
    have behind : (Samples.ofFn grid.cols (grid.get row)).get (col + 1) = grid.get row (col + 1) :=
      Samples.get_ofFn _ (Nat.le_add_left 1 col) last
    rw [Samples.difference_interior h first (by rwa [Samples.size_ofFn]), before, behind]
    exact (grid.columnDifference_interior row h first last).symm

end Agreement

open scoped Exact

variable
  {K : Type}
  [Field K]

/-- The neighbours of an index hold what a function is a step before and behind a place. -/
structure NeighboursOn
    (read : Nat → K)
    (index : Nat)
    (f : K → K)
    (x h : K) :
    Prop where
  before : read (index - 1) = f (x - h)
  behind : read (index + 1) = f (x + h)

variable
  [LinearOrder K]
  [FloorRing K]

/-! ## Quotients of a function -/

namespace Derivative

section Quotients

variable
  (f : K → K)
  (x h : K)

theorem central_eq : central f x h = (f (x + h) - f (x - h)) / (2 * h) :=
  rfl

theorem forward_eq : forward f x h = (f (x + h) - f x) / h :=
  rfl

theorem backward_eq : backward f x h = (f x - f (x - h)) / h :=
  rfl

theorem second_eq : second f x h = (f (x + h) - 2 * f x + f (x - h)) / (h * h) :=
  rfl

theorem central_eq_mean : central f x h = (forward f x h + backward f x h) / 2 := by
  rw [central_eq, forward_eq, backward_eq, ← add_div, sub_add_sub_cancel, div_div, mul_comm h]

theorem second_eq_difference : second f x h = (forward f x h - backward f x h) / h := by
  rw [second_eq, forward_eq, backward_eq, ← sub_div, div_div]
  congr 1
  ring

end Quotients

end Derivative

variable
  [CharZero K]
  {curve : Polynomial K}
  {x h : K}

theorem Derivative.central_eq_derivative
    (low : curve.natDegree ≤ 2)
    (apart : h ≠ 0)
    (x : K) :
    central curve.eval x h = curve.derivative.eval x :=
  centralDifference_eq_derivative low apart x

omit [CharZero K] in
theorem Derivative.second_eq_derivative
    (low : curve.natDegree ≤ 3)
    (apart : h ≠ 0)
    (x : K) :
    second curve.eval x h = curve.derivative.derivative.eval x := by
  have lower : curve.derivative.natDegree ≤ 2 :=
    (Polynomial.natDegree_derivative_le curve).trans (Nat.sub_le_sub_right low 1)
  rw [second_eq, eval_derivative_of_natDegree_le lower]
  simp only [eval_of_natDegree_le low, Polynomial.coeff_derivative, Finset.sum_range_succ,
    Finset.sum_range_zero]
  field_simp
  ring

/-! ## Differences of samples -/

section Sampled

variable
  (low : curve.natDegree ≤ 2)
  (apart : h ≠ 0)
include low apart

omit [LinearOrder K] [FloorRing K] in
theorem NeighboursOn.difference_eq
    {read : Nat → K}
    {index : Nat}
    (neighbours : NeighboursOn read index curve.eval x h) :
    (read (index + 1) - read (index - 1)) / (2 * h) = curve.derivative.eval x := by
  rw [neighbours.before, neighbours.behind]
  exact centralDifference_eq_derivative low apart x

theorem Samples.difference_eq_derivative
    {samples : Samples K}
    {index : Nat}
    (first : 2 ≤ index)
    (last : index + 1 ≤ samples.size)
    (neighbours : NeighboursOn samples.get index curve.eval x h) :
    samples.difference index h = curve.derivative.eval x :=
  (difference_interior h first last).trans (neighbours.difference_eq low apart)

theorem Grid.columnDifference_eq_derivative
    {grid : Grid K}
    {row col : Nat}
    (first : 2 ≤ col)
    (last : col + 1 ≤ grid.cols)
    (neighbours : NeighboursOn (grid.get row) col curve.eval x h) :
    grid.columnDifference row col h = curve.derivative.eval x :=
  (grid.columnDifference_interior row h first last).trans (neighbours.difference_eq low apart)

theorem Grid.rowDifference_eq_derivative
    {grid : Grid K}
    {row col : Nat}
    (first : 2 ≤ row)
    (last : row + 1 ≤ grid.rows)
    (neighbours : NeighboursOn (fun row => grid.get row col) row curve.eval x h) :
    grid.rowDifference row col h = curve.derivative.eval x :=
  (grid.rowDifference_interior col h first last).trans (neighbours.difference_eq low apart)

end Sampled

omit [CharZero K] in
/-- The continuation at the origin of samples on a parabola. -/
theorem GaussLaw.continueToOrigin_eq_eval
    {samples : Samples K}
    (low : curve.natDegree ≤ 2)
    (inhabited : 1 ≤ samples.size)
    (second : samples.get 2 = curve.eval (x + h))
    (third : samples.get 3 = curve.eval (x + 2 * h))
    (fourth : samples.get 4 = curve.eval (x + 3 * h)) :
    (continueToOrigin samples).get 1 = curve.eval x := by
  rw [get_continueToOrigin inhabited, second, third, fourth]
  simp only [Exact.numeral_ofNat, eval_of_natDegree_le low, Finset.sum_range_succ,
    Finset.sum_range_zero]
  ring

/--
The difference rules are exact up to their degree and agree with each other.  At a point the
central quotient is exact for degree two, the second quotient for degree three and the
five-point rules for degrees four and five.  So is the central difference of samples and of
grids wherever it is taken, and the continuation at the origin, for degree two.  Of every
function the central quotient is the mean of the one-sided ones, and the second quotient their
difference over the step.  The difference along columns at every index, on the edges and
outside as well, is that along rows of the transposed grid and that of the row as samples
along a line, for every number type.
-/
theorem difference_rules_are_exact_and_agree
    (apart : h ≠ 0)
    (x : K)
    (curve : Polynomial K)
    (f : K → K)
    {α : Type}
    [Scalar α]
    (grid : Grid α)
    (row col : Nat)
    (spacing : α) :
    ((curve.natDegree ≤ 2 → Derivative.central curve.eval x h = curve.derivative.eval x) ∧
      (curve.natDegree ≤ 3 →
        Derivative.second curve.eval x h = curve.derivative.derivative.eval x) ∧
      (curve.natDegree ≤ 4 →
        fivePointFirst (curve.eval (x - 2 * h)) (curve.eval (x - h)) (curve.eval (x + h))
            (curve.eval (x + 2 * h)) h =
          curve.derivative.eval x) ∧
      (curve.natDegree ≤ 5 →
        fivePointSecond (curve.eval (x - 2 * h)) (curve.eval (x - h)) (curve.eval x)
            (curve.eval (x + h)) (curve.eval (x + 2 * h)) h =
          curve.derivative.derivative.eval x)) ∧
    (curve.natDegree ≤ 2 →
      (∀ (samples : Samples K) (index : Nat),
        2 ≤ index →
        index + 1 ≤ samples.size →
        NeighboursOn samples.get index curve.eval x h →
        samples.difference index h = curve.derivative.eval x) ∧
      (∀ (cells : Grid K) (row col : Nat),
        2 ≤ col →
        col + 1 ≤ cells.cols →
        NeighboursOn (cells.get row) col curve.eval x h →
        cells.columnDifference row col h = curve.derivative.eval x) ∧
      (∀ (cells : Grid K) (row col : Nat),
        2 ≤ row →
        row + 1 ≤ cells.rows →
        NeighboursOn (fun row => cells.get row col) row curve.eval x h →
        cells.rowDifference row col h = curve.derivative.eval x) ∧
      ∀ samples : Samples K,
        1 ≤ samples.size →
        samples.get 2 = curve.eval (x + h) →
        samples.get 3 = curve.eval (x + 2 * h) →
        samples.get 4 = curve.eval (x + 3 * h) →
        (GaussLaw.continueToOrigin samples).get 1 = curve.eval x) ∧
    (Derivative.central f x h = (Derivative.forward f x h + Derivative.backward f x h) / 2 ∧
      Derivative.second f x h = (Derivative.forward f x h - Derivative.backward f x h) / h) ∧
    (grid.columnDifference row col spacing = grid.transpose.rowDifference col row spacing ∧
      grid.columnDifference row col spacing =
        (Samples.ofFn grid.cols (grid.get row)).difference col spacing) := by
  refine
    ⟨⟨fun low => Derivative.central_eq_derivative low apart x,
        fun low => Derivative.second_eq_derivative low apart x,
        fun low => fivePointFirst_eq_derivative low apart x,
        fun low => fivePointSecond_eq_derivative low apart x⟩,
      fun low => ⟨?_, ?_, ?_, ?_⟩,
      ⟨Derivative.central_eq_mean f x h, Derivative.second_eq_difference f x h⟩,
      (grid.rowDifference_transpose col row spacing).symm,
      (grid.difference_row row col spacing).symm⟩
  · intro samples index first last neighbours
    exact Samples.difference_eq_derivative low apart first last neighbours
  · intro cells row col first last neighbours
    exact Grid.columnDifference_eq_derivative low apart first last neighbours
  · intro cells row col first last neighbours
    exact Grid.rowDifference_eq_derivative low apart first last neighbours
  · intro samples inhabited second third fourth
    exact GaussLaw.continueToOrigin_eq_eval low inhabited second third fourth

/-- Powers at one with a step of two, the square in the middle row of a table. -/
theorem difference_rules_on_powers :
    let table : Grid ℚ := Grid.ofRows [[7, 7, 7], [1, 1, 9], [7, 7, 7]]
    (2 : ℚ) ≠ 0 ∧
      table.columnDifference 2 2 2 = 2 ∧
      table.transpose.rowDifference 2 2 2 = 2 ∧
      Derivative.second (fun t : ℚ => t ^ 3) 1 2 = 6 ∧
      fivePointSecond (-243) (-1) 1 243 3125 (2 : ℚ) = 20 := by
  intro table
  have apart : (2 : ℚ) ≠ 0 := two_ne_zero
  have power (count : Nat) (t : ℚ) :
      (Polynomial.X ^ count : Polynomial ℚ).eval t = t ^ count := by
    rw [Polynomial.eval_pow, Polynomial.eval_X]
  have rules (count : Nat) :=
    difference_rules_are_exact_and_agree apart 1 (Polynomial.X ^ count) id table 2 2 2
  obtain ⟨-, sampled, -, transposed, -⟩ := rules 2
  obtain ⟨⟨-, cubic, -⟩, -⟩ := rules 3
  obtain ⟨⟨-, -, -, quintic⟩, -⟩ := rules 5
  obtain ⟨-, along, -⟩ := sampled (Polynomial.natDegree_X_pow_le 2)
  have neighbours : NeighboursOn (table.get 2) 2 (Polynomial.X ^ 2 : Polynomial ℚ).eval 1 2 := by
    refine ⟨?_, ?_⟩
    · rw [power]
      decide +kernel
    · rw [power]
      decide +kernel
  have slope : table.columnDifference 2 2 2 = 2 := by
    rw [along table 2 2 le_rfl le_rfl neighbours]
    norm_num
  have curvature := cubic (Polynomial.natDegree_X_pow_le 3)
  have fivePoints := quintic (Polynomial.natDegree_X_pow_le 5)
  simp only [power] at curvature fivePoints
  norm_num at curvature fivePoints
  exact ⟨apart, slope, transposed.symm.trans slope, curvature, fivePoints⟩

end Electrostatics
