import Electrostatics.Grid.Lookup
import Electrostatics.Grid.Operator
import Electrostatics.Slice.Basic

namespace Electrostatics

/-!
# Scalar fields on a slice

A session holds a formula and shows its value on a slice, with its gradient and
laplacian.  Derivatives in the plane are differences of the sampled grid; those
along the normal come from samples just off the plane.
-/

open scoped Scalar

/-- The formula that a scalar field has where none is given. -/
def defaultScalarFormula : String := "x*y+z*r"

/-- A scalar field with its derived grids; the gradient is given by axis. -/
structure ScalarField (α : Type) where
  value : Grid α
  gradient : PerAxis (Grid α)
  magnitude : Grid α
  laplacian : Grid α
  deriving Repr, DecidableEq

/-- A reading of a scalar field at a position on its slice. -/
structure Probe (α : Type) where
  point : PerAxis α
  value : α
  gradient : PerAxis α
  laplacian : α
  deriving Repr, DecidableEq

variable {α : Type} [Scalar α]

/-- The first derivative along the normal at every cell. -/
def normalDerivative (side : Nat) (off : Viewpoint.OffPlane α) (h : α) : Grid α :=
  Grid.build side side (fun row col =>
    fivePointFirst (off.below₂.get row col) (off.below₁.get row col)
      (off.above₁.get row col) (off.above₂.get row col) h)

/-- The second derivative along the normal at every cell. -/
def normalSecondDerivative
    (side : Nat)
    (on : Grid α)
    (off : Viewpoint.OffPlane α)
    (h : α) :
    Grid α :=
  Grid.build side side (fun row col =>
    fivePointSecond (off.below₂.get row col) (off.below₁.get row col)
      (on.get row col) (off.above₁.get row col) (off.above₂.get row col) h)

/-- The grid of lengths of a vector given by axis. -/
def vectorLength [Elementary α] (components : PerAxis (Grid α)) : Grid α :=
  let squares := components.map (Grid.map (fun value => value * value))
  ((squares.x.add squares.y).add squares.z).map Elementary.sqrt

/-- The derived grids of a sampled scalar field. -/
def ScalarField.ofSamples
    [Elementary α]
    (viewpoint : Viewpoint α)
    (value : Grid α)
    (off : Viewpoint.OffPlane α) :
    ScalarField α :=
  let settings := viewpoint.settings
  let inPlane := value.gradient viewpoint.columnStep viewpoint.rowStep
  let along := normalDerivative settings.side off settings.normalStep
  let second := normalSecondDerivative settings.side value off settings.normalStep
  let laplacian :=
    Grid.laplacian second inPlane.1 inPlane.2 viewpoint.columnStep viewpoint.rowStep
  let gradient :=
    (viewpoint.plane.place inPlane.1 inPlane.2 along).map
      (fun component => component.flatten settings.flatness)
  { value := value
    gradient := gradient
    magnitude := vectorLength gradient
    laplacian := laplacian.flatten settings.flatness }

variable [Elementary α]

/-- The scalar field of a formula at a viewpoint, sampled on the plane and then off it. -/
def ScalarField.sample (viewpoint : Viewpoint α) : StateM Formula (ScalarField α) := do
  let value ← viewpoint.sample 0
  let off ← viewpoint.sampleOffPlane
  pure (ScalarField.ofSamples viewpoint value off)

/-- A session on a scalar field. -/
structure ScalarSession (α : Type) where
  viewpoint : Viewpoint α
  formula : Option Formula
  field : Option (ScalarField α)

namespace ScalarSession

/-- The session before its first formula. -/
def start {α : Type} [Scalar α] (settings : SliceSettings α) : ScalarSession α :=
  { viewpoint := Viewpoint.start settings, formula := none, field := none }

/-- The session that shows a formula at a viewpoint, and the warnings of its sampling. -/
def display
    (viewpoint : Viewpoint α)
    (formula : Formula) :
    ScalarSession α × List SamplingWarning :=
  let sampled := (ScalarField.sample viewpoint).run formula
  let reported := sampled.2.reportError
  ({ viewpoint := viewpoint, formula := some reported.2, field := some sampled.1 },
    reported.1)

/-- The session moved to a viewpoint. -/
def moveTo
    (session : ScalarSession α)
    (viewpoint : Viewpoint α) :
    ScalarSession α × List SamplingWarning :=
  match session.formula with
  | none => ({ session with viewpoint := viewpoint }, [])
  | some formula => display viewpoint formula

/-- Show another formula; one that cannot be read changes nothing. -/
def setFormula
    (session : ScalarSession α)
    (source : String) :
    Except ParseError (ScalarSession α × List SamplingWarning) :=
  match Formula.parse source with
  | .error fault => .error fault
  | .ok formula => .ok (display session.viewpoint formula)

/-- Show the field with another number of samples along a side. -/
def resize
    (session : ScalarSession α)
    (side : Nat) :
    ScalarSession α × List SamplingWarning :=
  session.moveTo (session.viewpoint.resize side)

/-- Show the field on another plane. -/
def definePlane
    (session : ScalarSession α)
    (plane : Plane)
    (value : α) :
    ScalarSession α × List SamplingWarning :=
  session.moveTo (session.viewpoint.definePlane plane value)

/-- Read the field at a position on the grid, from the nearest cell. -/
def probe {α : Type} [Scalar α] (session : ScalarSession α) (row col : α) : Option (Probe α) :=
  session.field.map (fun field =>
    { point := session.viewpoint.worldPoint row col 0
      value := field.value.nearest row col
      gradient := field.gradient.map (fun component => component.nearest row col)
      laplacian := field.laplacian.nearest row col })

end ScalarSession

end Electrostatics
