import Electrostatics.Proofs.Grid.MixedDifferences
import Mathlib.Data.Rat.Floor

namespace Electrostatics.Grid

/-!
# Reflection of the plane

A transposed grid shows the plane reflected, with its two axes exchanged.  Rows run against
the second axis, so each axis takes the place of the other one backwards, and a component of
a vector field takes the place of the other one with its sign changed.  In exact arithmetic
the operators respect this at every cell, on the edges as well: gradient, laplacian and
divergence are carried along, and the curl along the normal changes its sign.
-/

section Transposition

variable
  {α : Type}
  [Scalar α]

open scoped Scalar

/-- A transposed grid is read with row and column exchanged, outside as well. -/
@[simp]
theorem get_transpose
    (grid : Grid α)
    (row col : Nat) :
    grid.transpose.get row col = grid.get col row := by
  by_cases inside : (1 ≤ row ∧ row ≤ grid.cols) ∧ 1 ≤ col ∧ col ≤ grid.rows
  · exact get_build (fun row col => grid.get col row) inside.1 inside.2
  · have transposed : grid.transpose.get row col = 0 := dif_neg inside
    have original : grid.get col row = 0 := dif_neg fun there => inside there.symm
    rw [transposed, original]

theorem transpose_build
    (rows cols : Nat)
    (value : Nat → Nat → α) :
    (build rows cols value).transpose = build cols rows fun row col => value col row :=
  build_congr fun _ _ rowInside colInside => get_build value colInside rowInside

/-- Transposing exchanges the differences along columns and along rows. -/
theorem columnDifference_transpose
    (grid : Grid α)
    (row col : Nat)
    (h : α) :
    grid.transpose.columnDifference row col h = grid.rowDifference col row h := by
  have cols : grid.transpose.cols = grid.rows := rfl
  simp only [columnDifference, rowDifference, get_transpose, cols]

theorem rowDifference_transpose
    (grid : Grid α)
    (row col : Nat)
    (h : α) :
    grid.transpose.rowDifference row col h = grid.columnDifference col row h := by
  have rows : grid.transpose.rows = grid.cols := rfl
  simp only [columnDifference, rowDifference, get_transpose, rows]

/-- A component of a vector field as the reflected plane shows it, along the other axis. -/
def reflected (grid : Grid α) : Grid α :=
  grid.transpose.map fun value => -value

theorem reflected_build
    (rows cols : Nat)
    (value : Nat → Nat → α) :
    (build rows cols value).reflected = build cols rows fun row col => -value col row := by
  rw [reflected, transpose_build, map_build]

end Transposition

open scoped Exact

variable
  {K : Type}
  [Field K]
  [LinearOrder K]
  [FloorRing K]

theorem get_reflected
    (grid : Grid K)
    (row col : Nat) :
    grid.reflected.get row col = -grid.get col row := by
  rw [reflected, transpose, map_build]
  refine get_build_of_zero_outside (fun row col outside => ?_) row col
  rw [get_outside fun inside => outside inside.symm, neg_zero]

theorem columnDifference_reflected
    (grid : Grid K)
    (row col : Nat)
    (h : K) :
    grid.reflected.columnDifference row col h = -grid.rowDifference col row h := by
  have cols : grid.reflected.cols = grid.rows := rfl
  simp only [columnDifference, rowDifference, get_reflected, cols, Exact.numeral_zero]
  by_cases edge : col < 2 ∨ grid.rows < col + 1
  · rw [if_pos edge, if_pos edge, neg_zero]
  · rw [if_neg edge, if_neg edge]
    ring

theorem rowDifference_reflected
    (grid : Grid K)
    (row col : Nat)
    (h : K) :
    grid.reflected.rowDifference row col h = -grid.columnDifference col row h := by
  have rows : grid.reflected.rows = grid.cols := rfl
  simp only [columnDifference, rowDifference, get_reflected, rows, Exact.numeral_zero]
  by_cases edge : row < 2 ∨ grid.cols < row + 1
  · rw [if_pos edge, if_pos edge, neg_zero]
  · rw [if_neg edge, if_neg edge]
    ring

theorem alongFirst_transpose
    (potential : Grid K)
    (rowStep : K) :
    potential.transpose.alongFirst rowStep = (potential.alongSecond rowStep).reflected := by
  rw [alongSecond, reflected_build, alongFirst]
  refine build_congr fun row col _ _ => ?_
  rw [columnDifference_transpose, neg_neg]

theorem alongSecond_transpose
    (potential : Grid K)
    (columnStep : K) :
    potential.transpose.alongSecond columnStep = (potential.alongFirst columnStep).reflected := by
  rw [alongFirst, reflected_build, alongSecond]
  refine build_congr fun row col _ _ => ?_
  rw [rowDifference_transpose]

/-- The gradient of a reflected potential is the reflected gradient. -/
theorem gradient_transpose
    (potential : Grid K)
    (columnStep rowStep : K) :
    potential.transpose.gradient rowStep columnStep =
      ((potential.alongSecond rowStep).reflected, (potential.alongFirst columnStep).reflected) :=
  Prod.ext (potential.alongFirst_transpose rowStep) (potential.alongSecond_transpose columnStep)

/-- The laplacian of reflected parts is the reflected laplacian. -/
theorem laplacian_reflected
    (offPlane first second : Grid K)
    (columnStep rowStep : K) :
    laplacian offPlane.transpose second.reflected first.reflected rowStep columnStep =
      (laplacian offPlane first second columnStep rowStep).transpose := by
  simp only [laplacian, transpose_build, get_transpose, columnDifference_reflected,
    rowDifference_reflected]
  refine build_congr fun row col _ _ => ?_
  ring

section Components

variable
  {first second : Grid K}
  (sameRows : first.rows = second.rows)
  (sameCols : first.cols = second.cols)
  (columnStep rowStep : K)
include sameRows sameCols

/-- The divergence of a reflected field is the reflected divergence. -/
theorem divergence_reflected :
    divergence second.reflected first.reflected rowStep columnStep =
      (divergence first second columnStep rowStep).transpose := by
  simp only [divergence, transpose_build, columnDifference_reflected, rowDifference_reflected,
    sameRows, sameCols]
  refine build_congr fun row col _ _ => ?_
  ring

/-- A reflection turns the sense of rotation round. -/
theorem curlNormal_reflected :
    curlNormal second.reflected first.reflected rowStep columnStep =
      (curlNormal first second columnStep rowStep).reflected := by
  simp only [curlNormal, reflected_build, columnDifference_reflected, rowDifference_reflected,
    sameRows, sameCols]
  refine build_congr fun row col _ _ => ?_
  ring

end Components

/--
The operators respect a reflection of the plane, which transposes the grids and exchanges the
steps.  The gradient of a reflected potential is the reflected gradient, and with it the
laplacian is reflected.  A reflected field has the reflected divergence, and the component
along the normal of its curl is reflected with its sign changed.
-/
theorem operators_respect_reflection
    (potential offPlane first second : Grid K)
    (sameRows : first.rows = second.rows)
    (sameCols : first.cols = second.cols)
    (columnStep rowStep : K) :
    let slopes := potential.gradient columnStep rowStep
    let mirrored := potential.transpose.gradient rowStep columnStep
    mirrored = (slopes.2.reflected, slopes.1.reflected) ∧
      laplacian offPlane.transpose mirrored.1 mirrored.2 rowStep columnStep =
        (laplacian offPlane slopes.1 slopes.2 columnStep rowStep).transpose ∧
      divergence second.reflected first.reflected rowStep columnStep =
        (divergence first second columnStep rowStep).transpose ∧
      curlNormal second.reflected first.reflected rowStep columnStep =
        (curlNormal first second columnStep rowStep).reflected := by
  intro slopes mirrored
  have gradient : mirrored = (slopes.2.reflected, slopes.1.reflected) :=
    potential.gradient_transpose columnStep rowStep
  refine
    ⟨gradient, ?_, divergence_reflected sameRows sameCols columnStep rowStep,
      curlNormal_reflected sameRows sameCols columnStep rowStep⟩
  rw [gradient]
  exact laplacian_reflected offPlane slopes.1 slopes.2 columnStep rowStep

/-- A field on three rows and four columns turns by three eighths at a cell, and back reflected. -/
theorem reflection_of_a_turning_field :
    let first : Grid ℚ := ofRows [[0, 3, 1, 2], [5, 1, 4, 0], [2, 2, 7, 1]]
    let second : Grid ℚ := ofRows [[1, 0, 2, 0], [3, 1, 5, 6], [0, 4, 2, 8]]
    first.rows = second.rows ∧
      first.cols = second.cols ∧
      (curlNormal first second 2 4).get 2 2 = 3 / 8 ∧
      curlNormal second.reflected first.reflected 4 2 = (curlNormal first second 2 4).reflected ∧
      (curlNormal second.reflected first.reflected 4 2).get 2 2 = -3 / 8 := by
  intro first second
  obtain ⟨-, -, -, turned⟩ :=
    operators_respect_reflection first second first second rfl rfl 2 4
  have turns : (curlNormal first second 2 4).get 2 2 = 3 / 8 := by decide +kernel
  refine ⟨rfl, rfl, turns, turned, ?_⟩
  rw [turned, get_reflected, turns, neg_div]

end Electrostatics.Grid
