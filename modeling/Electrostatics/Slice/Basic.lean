import Electrostatics.Formula.Compiled
import Electrostatics.Grid.Basic
import Electrostatics.Slice.Plane

namespace Electrostatics

/-!
# Slices of space

A slice is a square of samples in a plane.  Column one lies at the lower end of the
box along the column axis, row one at the upper end along the row axis, so the grid
is laid out as it is plotted.
-/

open scoped Scalar

/-- The least number of samples along a side of a slice. -/
def leastSide : Nat := 10

/-- The greatest number of samples along a side of a slice. -/
def greatestSide : Nat := 80

/-- The number of samples along a side that stands for a requested one. -/
def clampSide (side : Nat) : Nat :=
  max leastSide (min greatestSide side)

/-- The box of a slice, its resolution and the steps that its derivatives use. -/
structure SliceSettings (α : Type) where
  /-- The number of samples along a side. -/
  side : Nat
  low : PerAxis α
  high : PerAxis α
  /-- The step along the normal of the plane. -/
  normalStep : α
  /-- A derived grid with a smaller spread is taken for constant. -/
  flatness : α
  deriving Repr

/-- The settings that are used where none are given. -/
def SliceSettings.standard {α : Type} [Scalar α] : SliceSettings α :=
  { side := 30
    low := { x := -1, y := -1, z := -1 }
    high := { x := 1, y := 1, z := 1 }
    normalStep := 1 / (Decimal.powerOfTen 2 : α)
    flatness := 1 / (Decimal.powerOfTen 10 : α) }

/-- What a session looks at: settings, a plane and the coordinates that planes hold fixed. -/
structure Viewpoint (α : Type) where
  settings : SliceSettings α
  plane : Plane
  center : PerAxis α
  deriving Repr

namespace Viewpoint

variable {α : Type}

/-- The viewpoint with another number of samples along a side. -/
def resize (viewpoint : Viewpoint α) (side : Nat) : Viewpoint α :=
  { viewpoint with
    settings := { viewpoint.settings with side := clampSide side } }

/-- The viewpoint on another plane, its normal coordinate held at a value. -/
def definePlane (viewpoint : Viewpoint α) (plane : Plane) (value : α) : Viewpoint α :=
  { viewpoint with
    plane := plane
    center := viewpoint.center.set plane.normalAxis value }

variable [Scalar α]

/-- The viewpoint at the start of a session: the plane of the first two axes through the origin. -/
def start (settings : SliceSettings α) : Viewpoint α :=
  { settings := { settings with side := clampSide settings.side }
    plane := .xy
    center := { x := 0, y := 0, z := 0 } }

/-- The extent of the box along an axis over the number of steps along a side. -/
def step (viewpoint : Viewpoint α) (axis : Axis) : α :=
  (viewpoint.settings.high.get axis - viewpoint.settings.low.get axis) /
    ((viewpoint.settings.side - 1 : Nat) : α)

/-- The distance between columns. -/
def columnStep (viewpoint : Viewpoint α) : α :=
  viewpoint.step viewpoint.plane.columnAxis

/-- The distance between rows. -/
def rowStep (viewpoint : Viewpoint α) : α :=
  viewpoint.step viewpoint.plane.rowAxis

/-- The place in space under a position on the grid, moved along the normal by an offset. -/
def worldPoint (viewpoint : Viewpoint α) (row col offset : α) : PerAxis α :=
  let settings := viewpoint.settings
  let plane := viewpoint.plane
  plane.place
    (settings.low.get plane.columnAxis + (col - 1) * viewpoint.columnStep)
    (settings.high.get plane.rowAxis - (row - 1) * viewpoint.rowStep)
    (viewpoint.center.get plane.normalAxis + offset)

variable [Elementary α]

/-- The outcome of a formula at a place in space. -/
def outcomeAt (formula : Formula) (place : PerAxis α) : Except EvaluationError α :=
  formula.tryEvaluate
    { x := place.x, y := place.y, z := place.z, r := axialDistance place.x place.y }

/-- The outcomes of a formula over the slice, moved along the normal by an offset. -/
def outcomes
    (viewpoint : Viewpoint α)
    (formula : Formula)
    (offset : α) :
    Grid (Except EvaluationError α) :=
  Grid.build viewpoint.settings.side viewpoint.settings.side (fun row col =>
    outcomeAt formula (viewpoint.worldPoint (row : α) (col : α) offset))

/-- Sample a formula over the slice row by row; the formula remembers the last error. -/
def sample (viewpoint : Viewpoint α) (offset : α) : StateM Formula (Grid α) :=
  fun formula =>
    let outcomes := viewpoint.outcomes formula offset
    (outcomes.map Formula.softened, formula.record outcomes.toList)

/-- Samples at two steps to either side along the normal. -/
structure OffPlane (α : Type) where
  below₂ : Grid α
  below₁ : Grid α
  above₁ : Grid α
  above₂ : Grid α

/-- Sample a formula at two steps to either side along the normal. -/
def sampleOffPlane (viewpoint : Viewpoint α) : StateM Formula (OffPlane α) := do
  let h := viewpoint.settings.normalStep
  let below₂ ← viewpoint.sample (-2 * h)
  let below₁ ← viewpoint.sample (-h)
  let above₁ ← viewpoint.sample h
  let above₂ ← viewpoint.sample (2 * h)
  pure { below₂ := below₂, below₁ := below₁, above₁ := above₁, above₂ := above₂ }

end Viewpoint

/-- The wording of a warning about samples over a slice. -/
def sliceWarningText (warning : SamplingWarning) : String :=
  "Cannot evaluate '" ++ warning.source ++ "' everywhere on the slice: " ++
    warning.error.message

end Electrostatics
