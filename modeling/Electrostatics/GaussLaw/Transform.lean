import Electrostatics.GaussLaw.Basic
import Electrostatics.Samples.Integral

namespace Electrostatics.GaussLaw

/-!
# Deriving two quantities from the third

Dividing by a power of the distance leaves no value at the origin, and a difference
has none there either.  That sample is continued as a parabola through the next
three.  Differences are zero at the last sample, so the charge derived from a
potential is no data in the last two places.
-/

open scoped Scalar

variable {α : Type} [Scalar α]

/-- Replace the first sample by the continuation of the next three. -/
def continueToOrigin (samples : Samples α) : Samples α :=
  samples.set 1 (3 * samples.get 2 - 3 * samples.get 3 + samples.get 4)

/-- Multiply samples by the area at their places. -/
def timesArea (power : Int) (axis samples : Samples α) : Samples α :=
  Samples.ofFn samples.size (fun index =>
    samples.get index * Scalar.powerInt (axis.get index) power)

/-- Divide values by the area at their places, with the origin continued. -/
def overArea (power : Int) (axis : Samples α) (size : Nat) (value : Nat → α) : Samples α :=
  continueToOrigin
    (Samples.ofFn size (fun index =>
      if index = 1 then
        0
      else
        value index / Scalar.powerInt (axis.get index) power))

/--
The field of a charge: the enclosed charge over the area.  A slab is centred, so that
half of all its charge counts against each side.
-/
def fieldOfCharge (symmetry : Symmetry) (charge axis : Samples α) (h : α) : Samples α :=
  match symmetry with
  | .planar =>
      let enclosed := charge.runningIntegral h
      enclosed.addScalar (-enclosed.get enclosed.size / 2)
  | _ =>
      let power := symmetry.areaPower
      let enclosed := (timesArea power axis charge).runningIntegral h
      overArea power axis charge.size enclosed.get

/-- The field of a potential: minus its slope. -/
def fieldOfPotential (potential : Samples α) (h : α) : Samples α :=
  continueToOrigin
    (Samples.ofFn potential.size (fun index => -potential.difference index h))

/-- The charge of a field: the slope of the flux over the area. -/
def chargeOfField (symmetry : Symmetry) (field axis : Samples α) (h : α) : Samples α :=
  let power := symmetry.areaPower
  let flux := timesArea power axis field
  overArea power axis field.size (fun index => flux.difference index h)

/-- The potential of a field: minus its integral from the origin. -/
def potentialOfField (field : Samples α) (h : α) : Samples α :=
  (field.runningIntegral h).map (fun value => -value)

/-- Charge, potential and field along one axis. -/
structure Solution (α : Type) where
  symmetry : Symmetry
  known : Quantity
  axis : Samples α
  charge : Samples α
  potential : Samples α
  field : Samples α
  deriving Repr, DecidableEq

namespace Solution

/-- Place, charge, potential and field of every sample. -/
def columns (solution : Solution α) : List (List α) :=
  (List.range' 1 solution.axis.size).map (fun index =>
    [solution.axis.get index, solution.charge.get index,
      solution.potential.get index, solution.field.get index])

end Solution

namespace Solver

/-- Samples held within the bound of a solver. -/
def clamped (solver : Solver α) (samples : Samples α) : Samples α :=
  samples.map (Scalar.clamp solver.settings.clamp)

/-- Derive the two quantities that are not known. -/
def transform
    (solver : Solver α)
    (symmetry : Symmetry)
    (known : Quantity)
    (samples : Samples α) :
    Except (SolverError α) (Solution α) :=
  if samples.size = solver.settings.points then
    let axis := solver.axis
    let h := solver.spacing
    let input := solver.clamped samples
    match known with
    | .comparison => .error .comparisonIsOverlay
    | .charge =>
        let field := fieldOfCharge symmetry input axis h
        .ok
          { symmetry := symmetry
            known := known
            axis := axis
            charge := input
            potential := potentialOfField field h
            field := field }
    | .potential =>
        let field := fieldOfPotential input h
        .ok
          { symmetry := symmetry
            known := known
            axis := axis
            charge := chargeOfField symmetry field axis h
            potential := input
            field := field }
    | .field =>
        .ok
          { symmetry := symmetry
            known := known
            axis := axis
            charge := chargeOfField symmetry input axis h
            potential := potentialOfField input h
            field := input }
  else
    .error (.lengthMismatch solver.settings.points samples.size)

end Solver

end Electrostatics.GaussLaw
