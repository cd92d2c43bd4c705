import Electrostatics.Grid.Basic

namespace Electrostatics

/-!
# Reading between samples

A position between the samples is read as the nearest cell or as a weighted mean of
four cells.  A position off the grid is moved to the edge in the first case and
extends the outermost cells in the second.
-/

open scoped Scalar

variable {α : Type} [Scalar α]

/-- The straight line through two points; the first height where both have one place. -/
def interpolateLine (x x₀ y₀ x₁ y₁ : α) : α :=
  if x₁ == x₀ then
    y₀
  else
    y₀ + (y₁ - y₀) * (x - x₀) / (x₁ - x₀)

namespace Grid

/-- The index nearest to a position among the first `count`; an undefined position counts as low. -/
def nearestIndex (count : Nat) (position : α) : Nat :=
  min (Scalar.toCount (Scalar.atLeast 1 (Scalar.round position))) count

/-- The cell nearest to a position, zero in an empty grid. -/
def nearest (grid : Grid α) (row col : α) : α :=
  if grid.rows = 0 ∨ grid.cols = 0 then
    0
  else
    grid.get (nearestIndex grid.rows row) (nearestIndex grid.cols col)

/-- The number of places before the pair of indices that encloses a position. -/
def cellBefore (count : Nat) (position : α) : Nat :=
  min (Scalar.toCount (Scalar.atLeast 0 (Scalar.floor (position - 1)))) (count - 2)

/-- The mean of the four cells around a position, weighted by its place between them. -/
def bilinear (grid : Grid α) (col row : α) : α :=
  if grid.rows < 2 ∨ grid.cols < 2 then
    grid.nearest row col
  else
    let i := cellBefore grid.cols col
    let j := cellBefore grid.rows row
    let across := col - (i : α) - 1
    let down := row - (j : α) - 1
    (1 - across) * (1 - down) * grid.get (j + 1) (i + 1) +
      across * (1 - down) * grid.get (j + 1) (i + 2) +
      (1 - across) * down * grid.get (j + 2) (i + 1) +
      across * down * grid.get (j + 2) (i + 2)

end Grid

end Electrostatics
