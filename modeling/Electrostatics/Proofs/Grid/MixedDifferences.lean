import Electrostatics.Proofs.Grid.Access
import Mathlib.Tactic.Ring

namespace Electrostatics.Grid

/-!
# Mixed differences

The differences along rows and along columns are zero where they would have to look past
an edge.  In exact arithmetic it still does not matter which of them is taken first.  Away
from all edges both mixed differences compare the same four cells, and along an edge each
of them compares cells of that edge, where the slope across it is zero.
-/

open scoped Exact

variable
  {K : Type}
  [Field K]
  [LinearOrder K]
  [FloorRing K]

/-- Outside the grid zero is read. -/
theorem get_outside
    {grid : Grid K}
    {row col : Nat}
    (outside : ¬ ((1 ≤ row ∧ row ≤ grid.rows) ∧ 1 ≤ col ∧ col ≤ grid.cols)) :
    grid.get row col = 0 := by
  rw [get, dif_neg outside, Exact.numeral_zero]

/-- A grid that is built of values that are zero outside holds them everywhere. -/
theorem get_build_of_zero_outside
    {rows cols : Nat}
    {value : Nat → Nat → K}
    (zero :
      ∀ row col,
        ¬ ((1 ≤ row ∧ row ≤ rows) ∧ 1 ≤ col ∧ col ≤ cols) →
        value row col = 0)
    (row col : Nat) :
    (build rows cols value).get row col = value row col := by
  by_cases inside : (1 ≤ row ∧ row ≤ rows) ∧ 1 ≤ col ∧ col ≤ cols
  · exact get_build value inside.1 inside.2
  · rw [get_outside inside, zero row col inside]

variable (grid : Grid K)

/-- Outside the grid there is no slope along columns either. -/
theorem columnDifference_outside
    (h : K)
    (row col : Nat)
    (outside : ¬ ((1 ≤ row ∧ row ≤ grid.rows) ∧ 1 ≤ col ∧ col ≤ grid.cols)) :
    grid.columnDifference row col h = 0 := by
  unfold columnDifference
  split
  case isTrue edge => exact Exact.numeral_zero
  case isFalse inner =>
    have right : grid.get row (col + 1) = 0 := get_outside (by omega)
    have left : grid.get row (col - 1) = 0 := get_outside (by omega)
    rw [right, left, sub_self, zero_div]

/-- Outside the grid there is no slope along rows either. -/
theorem rowDifference_outside
    (h : K)
    (row col : Nat)
    (outside : ¬ ((1 ≤ row ∧ row ≤ grid.rows) ∧ 1 ≤ col ∧ col ≤ grid.cols)) :
    grid.rowDifference row col h = 0 := by
  unfold rowDifference
  split
  case isTrue edge => exact Exact.numeral_zero
  case isFalse inner =>
    have below : grid.get (row + 1) col = 0 := get_outside (by omega)
    have above : grid.get (row - 1) col = 0 := get_outside (by omega)
    rw [below, above, sub_self, zero_div]

theorem get_alongFirst
    (columnStep : K)
    (row col : Nat) :
    (grid.alongFirst columnStep).get row col = grid.columnDifference row col columnStep :=
  get_build_of_zero_outside (grid.columnDifference_outside columnStep) row col

theorem get_alongSecond
    (rowStep : K)
    (row col : Nat) :
    (grid.alongSecond rowStep).get row col = -grid.rowDifference row col rowStep := by
  refine get_build_of_zero_outside (fun row col outside => ?_) row col
  rw [grid.rowDifference_outside rowStep row col outside, neg_zero]

/-- The order of differentiation does not matter, at no cell and beside none. -/
theorem columnDifference_alongSecond
    (row col : Nat)
    (columnStep rowStep : K) :
    (grid.alongSecond rowStep).columnDifference row col columnStep =
      -(grid.alongFirst columnStep).rowDifference row col rowStep := by
  simp only [columnDifference, rowDifference, get_alongFirst, get_alongSecond,
    Exact.numeral_zero, Exact.numeral_ofNat]
  have cols : (grid.alongSecond rowStep).cols = grid.cols := rfl
  have rows : (grid.alongFirst columnStep).rows = grid.rows := rfl
  rw [cols, rows]
  by_cases columnEdge : col < 2 ∨ grid.cols < col + 1
  · by_cases rowEdge : row < 2 ∨ grid.rows < row + 1
    · simp only [if_pos columnEdge, if_pos rowEdge, neg_zero]
    · simp only [if_pos columnEdge, if_neg rowEdge, sub_zero, zero_div, neg_zero]
  · by_cases rowEdge : row < 2 ∨ grid.rows < row + 1
    · simp only [if_neg columnEdge, if_pos rowEdge, neg_zero, sub_zero, zero_div]
    · simp only [if_neg columnEdge, if_neg rowEdge]
      ring

/--
The curl of a gradient vanishes.  Whatever the size of a grid and whatever the steps, the
component along the normal of the curl of its gradient is zero at every cell, in the
corners and along the edges as well.  That component reads neither the third grid of the
field nor the step along the normal.
-/
theorem curl_of_a_gradient_vanishes
    (potential : Grid K)
    (columnStep rowStep : K) :
    let slopes := potential.gradient columnStep rowStep
    curlNormal slopes.1 slopes.2 columnStep rowStep =
      zeros potential.rows potential.cols := by
  intro slopes
  have vanishes :
      ∀ row col,
        slopes.2.columnDifference row col columnStep -
            -slopes.1.rowDifference row col rowStep =
          0 := by
    intro row col
    exact sub_eq_zero.mpr (potential.columnDifference_alongSecond row col columnStep rowStep)
  calc
    curlNormal slopes.1 slopes.2 columnStep rowStep
        = build potential.rows potential.cols fun _ _ => (0 : K) :=
      build_congr fun row col _ _ => vanishes row col
    _ = filled potential.rows potential.cols 0 := build_const _ _ _
    _ = zeros potential.rows potential.cols := by rw [zeros, Exact.numeral_zero]

end Electrostatics.Grid
