import Electrostatics.GaussLaw.Transform
import Electrostatics.Proofs.Samples.Access
import Mathlib.Tactic.SplitIfs

namespace Electrostatics.GaussLaw

/-!
# Solvers and their transforms

A solver is accepted exactly with settings that have been found usable, and it transforms
every run of samples as long as its axis.  The samples that are handed in are held within
the bound of the solver, and nothing else changes them.  Every step of a transform keeps
the number of samples.
-/

open scoped Scalar

variable {α : Type} [Scalar α]

@[simp]
theorem size_continueToOrigin (samples : Samples α) :
    (continueToOrigin samples).size = samples.size :=
  Samples.size_set _ _ _

/-- The continuation at the origin. -/
theorem get_continueToOrigin
    {samples : Samples α}
    (inhabited : 1 ≤ samples.size) :
    (continueToOrigin samples).get 1 =
      3 * samples.get 2 - 3 * samples.get 3 + samples.get 4 :=
  Samples.get_set _ Nat.le.refl inhabited

theorem get_continueToOrigin_of_ne
    {index : Nat}
    (samples : Samples α)
    (away : index ≠ 1) :
    (continueToOrigin samples).get index = samples.get index :=
  Samples.get_set_of_ne _ _ away.symm Nat.le.refl

/-- Away from planar symmetry the field is the enclosed charge over the area. -/
theorem fieldOfCharge_of_curved
    {symmetry : Symmetry}
    (curved : symmetry ≠ .planar)
    (charge axis : Samples α)
    (h : α) :
    fieldOfCharge symmetry charge axis h =
      overArea symmetry.areaPower axis charge.size
        ((timesArea symmetry.areaPower axis charge).runningIntegral h).get := by
  cases symmetry with
  | planar => exact (curved rfl).elim
  | spherical | cylindrical => rfl

/-! ## The number of samples -/

@[simp]
theorem size_timesArea
    (power : Int)
    (axis samples : Samples α) :
    (timesArea power axis samples).size = samples.size :=
  Samples.size_ofFn _ _

@[simp]
theorem size_fieldOfCharge
    (symmetry : Symmetry)
    (charge axis : Samples α)
    (h : α) :
    (fieldOfCharge symmetry charge axis h).size = charge.size := by
  cases symmetry with
  | planar => simp [fieldOfCharge, Samples.addScalar]
  | spherical | cylindrical => simp [fieldOfCharge, overArea]

@[simp]
theorem size_fieldOfPotential
    (potential : Samples α)
    (h : α) :
    (fieldOfPotential potential h).size = potential.size := by
  simp [fieldOfPotential]

@[simp]
theorem size_potentialOfField
    (field : Samples α)
    (h : α) :
    (potentialOfField field h).size = field.size := by
  simp [potentialOfField]

@[simp]
theorem Solver.size_clamped
    (solver : Solver α)
    (samples : Samples α) :
    (solver.clamped samples).size = samples.size :=
  Samples.size_map _ _

theorem Solver.get_clamped
    {solver : Solver α}
    {samples : Samples α}
    {index : Nat}
    (first : 1 ≤ index)
    (last : index ≤ samples.size) :
    (solver.clamped samples).get index =
      Scalar.clamp solver.settings.clamp (samples.get index) :=
  Samples.get_map _ first last

/-! ## Acceptance and the transforms -/

namespace Solver

variable
  {settings : Settings α}
  {solver : Solver α}
  {symmetry : Symmetry}
  {samples : Samples α}

/-- A solver comes of the settings that it keeps, and of no others. -/
theorem ofSettings_eq_ok_iff :
    ofSettings settings = .ok solver ↔ solver.settings = settings := by
  constructor
  · intro accepted
    unfold ofSettings at accepted
    split_ifs at accepted
    cases accepted
    rfl
  · rintro rfl
    simp [ofSettings, solver.points_enough, solver.extent_positive, solver.clamp_positive]

theorem transform_charge
    (sized : samples.size = solver.settings.points) :
    solver.transform symmetry .charge samples =
      .ok
        { symmetry := symmetry
          known := .charge
          axis := solver.axis
          charge := solver.clamped samples
          potential :=
            potentialOfField
              (fieldOfCharge symmetry (solver.clamped samples) solver.axis solver.spacing)
              solver.spacing
          field :=
            fieldOfCharge symmetry (solver.clamped samples) solver.axis solver.spacing } :=
  if_pos sized

theorem transform_potential
    (sized : samples.size = solver.settings.points) :
    solver.transform symmetry .potential samples =
      .ok
        { symmetry := symmetry
          known := .potential
          axis := solver.axis
          charge :=
            chargeOfField symmetry
              (fieldOfPotential (solver.clamped samples) solver.spacing)
              solver.axis solver.spacing
          potential := solver.clamped samples
          field := fieldOfPotential (solver.clamped samples) solver.spacing } :=
  if_pos sized

theorem transform_field
    (sized : samples.size = solver.settings.points) :
    solver.transform symmetry .field samples =
      .ok
        { symmetry := symmetry
          known := .field
          axis := solver.axis
          charge :=
            chargeOfField symmetry (solver.clamped samples) solver.axis solver.spacing
          potential := potentialOfField (solver.clamped samples) solver.spacing
          field := solver.clamped samples } :=
  if_pos sized

end Solver

end Electrostatics.GaussLaw
