import Electrostatics.Grid.Basic

namespace Electrostatics

/-!
# Differential operators on grids

Columns run with the first plotted axis, rows against the second.  A difference
along rows is therefore minus the derivative along the second axis, and the
operators take that sign into account.
-/

open scoped Scalar

variable {α : Type} [Scalar α]

/-- The first derivative from samples at minus two, minus one, one and two steps. -/
def fivePointFirst (below₂ below₁ above₁ above₂ h : α) : α :=
  (below₂ - 8 * below₁ + 8 * above₁ - above₂) / (12 * h)

/-- The second derivative from samples at minus two up to two steps. -/
def fivePointSecond (below₂ below₁ here above₁ above₂ h : α) : α :=
  (-below₂ + 16 * below₁ - 30 * here + 16 * above₁ - above₂) / (12 * h * h)

namespace Grid

/-- The central difference along columns, zero in the first and the last column. -/
def columnDifference (grid : Grid α) (row col : Nat) (h : α) : α :=
  if col < 2 ∨ grid.cols < col + 1 then
    0
  else
    (grid.get row (col + 1) - grid.get row (col - 1)) / (2 * h)

/-- The central difference along rows, zero in the first and the last row. -/
def rowDifference (grid : Grid α) (row col : Nat) (h : α) : α :=
  if row < 2 ∨ grid.rows < row + 1 then
    0
  else
    (grid.get (row + 1) col - grid.get (row - 1) col) / (2 * h)

/--
The difference of the neighbouring columns over twice the step off the plane.  It
stands in for the derivative along the normal of the plane and is not set to zero at
the edges.
-/
def normalProxy (grid : Grid α) (row col : Nat) (h : α) : α :=
  (grid.get row (col + 1) - grid.get row (col - 1)) / (2 * h)

/-- The derivative along the first axis at every cell. -/
def alongFirst (grid : Grid α) (columnStep : α) : Grid α :=
  build grid.rows grid.cols (fun row col => grid.columnDifference row col columnStep)

/-- The derivative along the second axis at every cell. -/
def alongSecond (grid : Grid α) (rowStep : α) : Grid α :=
  build grid.rows grid.cols (fun row col => -grid.rowDifference row col rowStep)

/-- The derivatives of a grid along the two axes of its plane. -/
def gradient (grid : Grid α) (columnStep rowStep : α) : Grid α × Grid α :=
  (grid.alongFirst columnStep, grid.alongSecond rowStep)

/--
The sum of the second derivatives: that off the plane is given, those in the plane
come from the gradient.
-/
def laplacian
    (offPlane first second : Grid α)
    (columnStep rowStep : α) :
    Grid α :=
  build offPlane.rows offPlane.cols (fun row col =>
    offPlane.get row col + first.columnDifference row col columnStep -
      second.rowDifference row col rowStep)

/-- The divergence of a vector field in its plane. -/
def divergence (first second : Grid α) (columnStep rowStep : α) : Grid α :=
  build first.rows first.cols (fun row col =>
    first.columnDifference row col columnStep -
      second.rowDifference row col rowStep)

/-- The component along the first axis of the curl of a vector field. -/
def curlFirst (first second normal : Grid α) (rowStep normalStep : α) : Grid α :=
  build first.rows first.cols (fun row col =>
    -normal.rowDifference row col rowStep - second.normalProxy row col normalStep)

/-- The component along the second axis of the curl of a vector field. -/
def curlSecond (first normal : Grid α) (columnStep normalStep : α) : Grid α :=
  build first.rows first.cols (fun row col =>
    first.normalProxy row col normalStep - normal.columnDifference row col columnStep)

/-- The component along the normal of the curl of a vector field. -/
def curlNormal (first second : Grid α) (columnStep rowStep : α) : Grid α :=
  build first.rows first.cols (fun row col =>
    second.columnDifference row col columnStep - -first.rowDifference row col rowStep)

/-- Whether a grid varies by less than a bound; an undefined spread does not. -/
def isFlat (grid : Grid α) (epsilon : α) : Bool :=
  let bounds := grid.bounds
  bounds.2 - bounds.1 < epsilon

/-- The value of a flat grid: zero if it straddles zero, and else the middle of its bounds. -/
def flatValue (grid : Grid α) : α :=
  let bounds := grid.bounds
  if bounds.1 * bounds.2 < 0 then 0 else (bounds.1 + bounds.2) / 2

/-- Give a grid that varies by less than a bound one value. -/
def flatten (grid : Grid α) (epsilon : α) : Grid α :=
  if grid.isFlat epsilon then grid.fill grid.flatValue else grid

end Grid

end Electrostatics
