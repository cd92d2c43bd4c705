import Electrostatics.Formula.Fault
import Electrostatics.Samples.Extrema

namespace Electrostatics.GaussLaw

/-!
# Gauss's law in symmetric geometries

Where charge depends on one coordinate only, one of charge, potential and field
along an axis determines the other two.  Units are natural: the divergence of the
field is the charge density, and the field is minus the slope of the potential.
-/

open scoped Scalar

/-- The symmetry of an arrangement of charge. -/
inductive Symmetry where
  | spherical
  | cylindrical
  | planar
  deriving Repr, DecidableEq

namespace Symmetry

/-- The power of the coordinate in the area that the flux passes. -/
def areaPower : Symmetry → Int
  | .spherical => 2
  | .cylindrical => 1
  | .planar => 0

/-- The name of the coordinate along the axis. -/
def coordinateName : Symmetry → String
  | .spherical => "r"
  | .cylindrical => "r"
  | .planar => "x"

/-- The name of a symmetry. -/
def name : Symmetry → String
  | .spherical => "spherical"
  | .cylindrical => "cylindrical"
  | .planar => "planar"

/-- The symmetry of a name. -/
def named? (name : String) : Option Symmetry :=
  [spherical, cylindrical, planar].find? (fun symmetry => symmetry.name == name)

end Symmetry

/-- The quantity that a curve shows. -/
inductive Quantity where
  | charge
  | potential
  | field
  /-- A curve drawn beside the others, from which nothing is derived. -/
  | comparison
  deriving Repr, DecidableEq

namespace Quantity

/-- The name of a quantity. -/
def name : Quantity → String
  | .charge => "charge"
  | .potential => "potential"
  | .field => "field"
  | .comparison => "comparison"

/-- The quantity of a name. -/
def named? (name : String) : Option Quantity :=
  [charge, potential, field, comparison].find? (fun quantity => quantity.name == name)

end Quantity

/-- The axis of a solver, and the bound that its input is held to. -/
structure Settings (α : Type) where
  /-- The upper end of the axis. -/
  extent : α
  /-- The number of samples, the origin included. -/
  points : Nat
  /-- The largest magnitude of an input sample. -/
  clamp : α
  deriving Repr

/-- The settings that are used where none are given. -/
def Settings.standard {α : Type} [Scalar α] : Settings α :=
  { extent := 10, points := 200, clamp := 1000000 }

/-- The smallest number of samples from which a value at the origin can be continued. -/
def leastPoints : Nat := 5

/-- Why a solver cannot be set up or cannot answer. -/
inductive SolverError (α : Type) where
  | comparisonIsOverlay
  | tooFewPoints (found : Nat)
  | invalidExtent (extent : α)
  | invalidClamp (clamp : α)
  | lengthMismatch (expected found : Nat)
  | parse (fault : ParseError)
  deriving Repr, DecidableEq

/-- The wording of a solver error. -/
def SolverError.message : SolverError Float → String
  | .comparisonIsOverlay =>
      "comparison curves are an overlay and cannot drive a transform"
  | .tooFewPoints found =>
      "need at least " ++ toString leastPoints ++ " sample points, got " ++ toString found
  | .invalidExtent extent =>
      "sample range must be positive, got " ++ doubleText extent
  | .invalidClamp clamp =>
      "clamp limit must be positive, got " ++ doubleText clamp
  | .lengthMismatch expected found =>
      "known samples have " ++ toString found ++ " points, solver expects " ++
        toString expected
  | .parse fault => fault.message

/-- A solver: settings that have been found usable. -/
structure Solver (α : Type) [Scalar α] where
  settings : Settings α
  points_enough : leastPoints ≤ settings.points
  extent_positive : Scalar.isFinite settings.extent = true ∧ 0 < settings.extent
  clamp_positive : 0 < settings.clamp

namespace Solver

variable {α : Type} [Scalar α]

/-- Set a solver up; of several faults that of the number of points is reported first. -/
def ofSettings (settings : Settings α) : Except (SolverError α) (Solver α) :=
  if enough : leastPoints ≤ settings.points then
    if reaches : Scalar.isFinite settings.extent = true ∧ 0 < settings.extent then
      if bounded : 0 < settings.clamp then
        .ok
          { settings := settings
            points_enough := enough
            extent_positive := reaches
            clamp_positive := bounded }
      else
        .error (.invalidClamp settings.clamp)
    else
      .error (.invalidExtent settings.extent)
  else
    .error (.tooFewPoints settings.points)

/-- The distance between neighbouring samples. -/
def spacing (solver : Solver α) : α :=
  solver.settings.extent / ((solver.settings.points - 1 : Nat) : α)

/-- The place of a sample on the axis. -/
def place (solver : Solver α) (index : Nat) : α :=
  ((index - 1 : Nat) : α) * solver.spacing

/-- The places of all samples. -/
def axis (solver : Solver α) : Samples α :=
  Samples.ofFn solver.settings.points solver.place

end Solver

end Electrostatics.GaussLaw
