import Electrostatics.Formula.Compiled
import Electrostatics.GaussLaw.Transform

namespace Electrostatics.GaussLaw

/-!
# Sampling a formula along the axis

The formula may call the coordinate either `r` or `x`.  Samples without a value are
zero and are reported in one warning for the whole pass.
-/

open scoped Scalar

/-- The wording of a warning about samples along an axis. -/
def warningText (warning : SamplingWarning) : String :=
  "Evaluating '" ++ warning.source ++ "' failed at one or more samples: " ++
    warning.error.message

namespace Solver

variable {α : Type} [Scalar α]

/-- Read a formula in the coordinate of the axis. -/
def parse (_solver : Solver α) (source : String) : Except (SolverError α) Formula :=
  match Formula.parseOver ["r", "x"] source with
  | .error fault => .error (.parse fault)
  | .ok formula => .ok formula

variable [Elementary α]

/-- The state of a pass over the axis: the formula, and whether the origin has no usable value. -/
structure Pass where
  formula : Formula
  originIsBad : Bool

/--
Sample a formula at an index of the axis.  The origin has no usable value if the value
there is beyond the bound of the solver, or if the formula then remembers an error.
-/
def sampleAt (solver : Solver α) (index : Nat) : StateM Pass α :=
  fun pass =>
    let place := solver.place index
    let evaluated := pass.formula.evaluate { x := place, y := 0, z := 0, r := place }
    let isBad :=
      decide (solver.settings.clamp < Scalar.magnitude evaluated.1) ||
        evaluated.2.lastError.isSome
    (Scalar.clamp solver.settings.clamp evaluated.1,
      { formula := evaluated.2
        originIsBad := if index = 1 then isBad else pass.originIsBad })

/-- Samples of a formula, with the warnings of the pass and the formula after it. -/
structure Sampled (α : Type) where
  values : Samples α
  warnings : List SamplingWarning
  formula : Formula

/--
Sample a formula from the origin on, held within the bound of the solver.  A charge without
a usable value at the origin is continued there from its neighbours.  The error that an
earlier pass left behind in the formula is dropped first.
-/
def sample (solver : Solver α) (formula : Formula) (known : Quantity) : Sampled α :=
  let start : Pass := { formula := formula.takeError.2, originIsBad := false }
  let pass := ((List.range' 1 solver.settings.points).mapM solver.sampleAt).run start
  let reported := pass.2.formula.reportError
  let values := Samples.ofList pass.1
  { values :=
      if known = .charge ∧ pass.2.originIsBad = true then
        continueToOrigin values
      else
        values
    warnings := reported.1
    formula := reported.2 }

/-- Read, sample and transform a formula. -/
def solve
    (solver : Solver α)
    (symmetry : Symmetry)
    (known : Quantity)
    (source : String) :
    Except (SolverError α) (Solution α × List SamplingWarning) :=
  match solver.parse source with
  | .error fault => .error fault
  | .ok formula =>
      let sampled := solver.sample formula known
      match solver.transform symmetry known sampled.values with
      | .error fault => .error fault
      | .ok solution => .ok (solution, sampled.warnings)

/-- Read and sample a curve to be drawn beside a solution. -/
def sampleComparison
    (solver : Solver α)
    (source : String) :
    Except (SolverError α) (Samples α × List SamplingWarning) :=
  match solver.parse source with
  | .error fault => .error fault
  | .ok formula =>
      let sampled := solver.sample formula .comparison
      .ok (sampled.values, sampled.warnings)

end Solver

end Electrostatics.GaussLaw
