import Electrostatics.GaussLaw.Transform
import Electrostatics.Json.Writer
import Electrostatics.Slice.VectorField

namespace Electrostatics.Json

/-!
# Results as JSON

Grids are written as arrays of rows and values given by axis as arrays of three.
-/

/-- The JSON of samples. -/
def ofSamples (samples : Samples Float) : Json :=
  ofFloats samples.toList

/-- The JSON of a grid. -/
def ofGrid (grid : Grid Float) : Json :=
  .array (grid.toRows.map ofFloats)

/-- The JSON of grids given by axis. -/
def ofGrids (grids : PerAxis (Grid Float)) : Json :=
  .array (grids.toList.map ofGrid)

/-- The JSON of a value at one point. -/
def ofPointValue (x y z value : Float) : Json :=
  .object
    [("value", ofFloat value), ("x", ofFloat x), ("y", ofFloat y), ("z", ofFloat z)]

/-- The JSON of a pair of bounds. -/
def ofBounds (bounds : Float × Float) : Json :=
  ofFloats [bounds.1, bounds.2]

/-- The JSON of the curves of a solution. -/
def ofSolution (solution : GaussLaw.Solution Float) : Json :=
  .object
    [("axis", ofSamples solution.axis),
      ("charge", ofSamples solution.charge),
      ("field", ofSamples solution.field),
      ("known", .string solution.known.name),
      ("potential", ofSamples solution.potential),
      ("symmetry", .string solution.symmetry.name)]

/-- The JSON of the ranges of a solution. -/
def ofRanges (solution : GaussLaw.Solution Float) : Json :=
  .object
    [("charge", ofBounds solution.charge.bounds),
      ("field", ofBounds solution.field.bounds),
      ("potential", ofBounds solution.potential.bounds)]

/-- The JSON of a solution with its ranges and a curve for comparison. -/
def ofComparedSolution
    (solution : GaussLaw.Solution Float)
    (comparison : Option (Samples Float)) :
    Json :=
  .object
    [("comparison", (comparison.map ofSamples).getD .null),
      ("ranges", ofRanges solution),
      ("solution", ofSolution solution)]

/-- The JSON of a scalar field. -/
def ofScalarField (field : ScalarField Float) : Json :=
  .object
    [("value", ofGrid field.value),
      ("gradient", ofGrids field.gradient),
      ("gradient_magnitude", ofGrid field.magnitude),
      ("laplacian", ofGrid field.laplacian)]

/-- The JSON of a probe. -/
def ofProbe (probe : Probe Float) : Json :=
  .object
    [("point", ofFloats probe.point.toList),
      ("value", ofFloat probe.value),
      ("gradient", ofFloats probe.gradient.toList),
      ("laplacian", ofFloat probe.laplacian)]

/-- The JSON of a vector field. -/
def ofVectorField (field : VectorField Float) : Json :=
  .object
    [("components", ofGrids field.components),
      ("divergence", ofGrid field.divergence),
      ("curl", ofGrids field.curl)]

end Electrostatics.Json
