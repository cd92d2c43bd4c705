import Electrostatics.Samples.Extrema

namespace Electrostatics

/-!
# Samples on a rectangle

A grid is read by row and column, both from one on.  Row one is the top of a plotted
slice and column one its left edge.  As along a line, a read outside the grid gives
zero and a write outside it does nothing.
-/

open scoped Scalar

/-- Samples on a rectangle. -/
structure Grid (α : Type) where
  rows : Nat
  cols : Nat
  cells : Vector (Vector α cols) rows
  deriving Repr, DecidableEq

namespace Grid

variable {α : Type}

/-- The grid of a function of row and column. -/
def build (rows cols : Nat) (value : Nat → Nat → α) : Grid α :=
  { rows := rows
    cols := cols
    cells :=
      Vector.ofFn (fun row : Fin rows =>
        Vector.ofFn (fun col : Fin cols => value (row.val + 1) (col.val + 1))) }

/-- A grid with one value everywhere. -/
def filled (rows cols : Nat) (value : α) : Grid α :=
  { rows := rows
    cols := cols
    cells := Vector.replicate rows (Vector.replicate cols value) }

/-- The rows of a grid from the top, each from the left. -/
def toRows (grid : Grid α) : List (List α) :=
  grid.cells.toList.map Vector.toList

/-- The cells of a grid row by row. -/
def toList (grid : Grid α) : List α :=
  grid.toRows.flatten

/-- Change every cell. -/
def map {β : Type} (change : α → β) (grid : Grid α) : Grid β :=
  { rows := grid.rows
    cols := grid.cols
    cells := grid.cells.map (Vector.map change) }

/-- Replace every cell. -/
def fill (grid : Grid α) (value : α) : Grid α :=
  grid.map (fun _ => value)

/-- Replace a cell inside the grid. -/
def set (grid : Grid α) (row col : Nat) (value : α) : Grid α :=
  if inside : (1 ≤ row ∧ row ≤ grid.rows) ∧ 1 ≤ col ∧ col ≤ grid.cols then
    { grid with
      cells :=
        grid.cells.set (row - 1)
          (grid.cells[row - 1].set (col - 1) value (by omega)) (by omega) }
  else
    grid

variable [Scalar α]

/-- A cell, zero outside the grid. -/
def get (grid : Grid α) (row col : Nat) : α :=
  if inside : (1 ≤ row ∧ row ≤ grid.rows) ∧ 1 ≤ col ∧ col ≤ grid.cols then
    grid.cells[row - 1][col - 1]
  else
    0

/-- A grid of zeros. -/
def zeros (rows cols : Nat) : Grid α :=
  filled rows cols 0

/--
The grid of a list of rows.  The first row decides the number of columns; shorter
rows end in zeros and longer ones are cut.
-/
def ofRows (rows : List (List α)) : Grid α :=
  let cols := (rows.head?.map List.length).getD 0
  build rows.length cols (fun row col => (rows.getD (row - 1) []).getD (col - 1) 0)

/-- Rows and columns exchanged. -/
def transpose (grid : Grid α) : Grid α :=
  build grid.cols grid.rows (fun row col => grid.get col row)

/-- Combine the cells of a grid with those of another at the same places. -/
def zipWith (combine : α → α → α) (left right : Grid α) : Grid α :=
  build left.rows left.cols (fun row col =>
    combine (left.get row col) (right.get row col))

/-- The sum of two grids, with the size of the first. -/
def add (left right : Grid α) : Grid α :=
  zipWith (fun first second => first + second) left right

/-- The difference of two grids, with the size of the first. -/
def sub (left right : Grid α) : Grid α :=
  zipWith (fun first second => first - second) left right

/-- Every cell multiplied by a number. -/
def scale (grid : Grid α) (factor : α) : Grid α :=
  grid.map (fun cell => cell * factor)

/-- Add terms from the first one on; no terms give zero. -/
def sumTerms : List α → α
  | [] => 0
  | first :: rest => rest.foldl (fun sum term => sum + term) first

/-- The matrix product, if the inner sizes agree. -/
def multiply? (left right : Grid α) : Option (Grid α) :=
  if left.cols = right.rows then
    some (build left.rows right.cols (fun row col =>
      sumTerms
        ((List.range left.cols).map (fun inner =>
          left.get row (inner + 1) * right.get (inner + 1) col))))
  else
    none

/-- The bounds of all cells. -/
def bounds (grid : Grid α) : α × α :=
  rangeBounds (extrema? grid.toList)

/-- The indices from one number to another, both included. -/
def indices (first last : Nat) : List Nat :=
  List.range' first (last + 1 - first)

/-- The cells of a block that lie in the grid, row by row. -/
def block (grid : Grid α) (firstRow lastRow firstCol lastCol : Nat) : List α :=
  (indices (max firstRow 1) (min lastRow grid.rows)).flatMap (fun row =>
    (indices (max firstCol 1) (min lastCol grid.cols)).map (fun col =>
      grid.get row col))

/-- The bounds of the cells of a block that lie in the grid. -/
def boundsIn (grid : Grid α) (firstRow lastRow firstCol lastCol : Nat) : α × α :=
  rangeBounds (extrema? (grid.block firstRow lastRow firstCol lastCol))

end Grid

end Electrostatics
