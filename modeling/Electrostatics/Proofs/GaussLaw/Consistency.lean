import Electrostatics.Number.Double
import Electrostatics.Proofs.GaussLaw.Solver
import Electrostatics.Proofs.Number.Clamp

namespace Electrostatics.GaussLaw

/-!
# Transforms agree with each other

Whichever quantity is known, the other two come of one field by one route.  So the curve
that was handed in, once it is held within the bound, leads to the same solution again, and
the field of a solution leads back to the curve that was derived from it.  Only the input is
held within the bound, and no law of arithmetic plays a part.
-/

variable {α : Type} [Scalar α]

/-- The curve of a quantity.  A comparison has none. -/
def Solution.curve? (solution : Solution α) : Quantity → Option (Samples α)
  | .charge => some solution.charge
  | .potential => some solution.potential
  | .field => some solution.field
  | .comparison => none

namespace Solver

/-- Samples that were held within the bound are not changed by it again. -/
theorem clamped_clamped (solver : Solver α) (samples : Samples α) :
    solver.clamped (solver.clamped samples) = solver.clamped samples := by
  refine Samples.map_eq_self fun index first last => ?_
  have inside : index ≤ samples.size := solver.size_clamped samples ▸ last
  rw [get_clamped first inside, Scalar.clamp_clamp]

/-- A transform of samples is that of the samples held within the bound. -/
theorem transform_clamped
    (solver : Solver α)
    (symmetry : Symmetry)
    (known : Quantity)
    (samples : Samples α) :
    solver.transform symmetry known (solver.clamped samples) =
      solver.transform symmetry known samples := by
  simp only [transform, size_clamped, clamped_clamped]

variable
  {solver : Solver α}
  {symmetry : Symmetry}
  {field : Samples α}

/-- A field within the bound is taken as it is. -/
theorem transform_field_of_within
    (sized : field.size = solver.settings.points)
    (within :
      ∀ index, 1 ≤ index → index ≤ solver.settings.points →
        ¬ field.get index < -solver.settings.clamp ∧
          ¬ solver.settings.clamp < field.get index) :
    solver.transform symmetry .field field =
      .ok
        { symmetry := symmetry
          known := .field
          axis := solver.axis
          charge := chargeOfField symmetry field solver.axis solver.spacing
          potential := potentialOfField field solver.spacing
          field := field } := by
  have kept : solver.clamped field = field :=
    Samples.map_eq_self fun index first last =>
      Scalar.clamp_of_within (within index first (sized ▸ last))
  rw [transform_field sized, kept]

/--
For every accepted solver and every number type, the solution of a known quantity shows the
samples held within the bound, and these have that solution again.  If the field lies within
the bound, it comes with the potential that the charge came with, and with the charge that
the potential came with.
-/
theorem solutions_are_found_again
    {settings : Settings α}
    {solver : Solver α}
    (accepted : ofSettings settings = .ok solver)
    (symmetry : Symmetry)
    {known : Quantity}
    (derives : known ≠ .comparison)
    {samples : Samples α}
    (sized : samples.size = settings.points) :
    ∃ solution,
      solver.transform symmetry known samples = .ok solution ∧
      solution.curve? known = some (samples.map (Scalar.clamp settings.clamp)) ∧
      solver.transform symmetry known (samples.map (Scalar.clamp settings.clamp)) =
        .ok solution ∧
      ((∀ index, 1 ≤ index → index ≤ settings.points →
          ¬ solution.field.get index < -settings.clamp ∧
            ¬ settings.clamp < solution.field.get index) →
        ∃ again,
          solver.transform symmetry .field solution.field = .ok again ∧
          again.field = solution.field ∧
          (known = .charge → again.potential = solution.potential) ∧
          (known = .potential → again.charge = solution.charge)) := by
  obtain rfl := ofSettings_eq_ok_iff.mp accepted
  have inputSized : (solver.clamped samples).size = solver.settings.points :=
    (solver.size_clamped samples).trans sized
  have same := solver.transform_clamped symmetry known samples
  cases known with
  | comparison => exact (derives rfl).elim
  | charge =>
      have transformed : solver.transform symmetry .charge samples = _ := transform_charge sized
      have fieldSized := (size_fieldOfCharge symmetry _ solver.axis solver.spacing).trans inputSized
      refine ⟨_, transformed, rfl, same.trans transformed, fun within => ?_⟩
      exact ⟨_, transform_field_of_within fieldSized within, rfl, fun _ => rfl, nofun⟩
  | potential =>
      have transformed : solver.transform symmetry .potential samples = _ :=
        transform_potential sized
      have fieldSized := (size_fieldOfPotential _ solver.spacing).trans inputSized
      refine ⟨_, transformed, rfl, same.trans transformed, fun within => ?_⟩
      exact ⟨_, transform_field_of_within fieldSized within, rfl, nofun, fun _ => rfl⟩
  | field =>
      have transformed : solver.transform symmetry .field samples = _ := transform_field sized
      refine ⟨_, transformed, rfl, same.trans transformed, fun _ => ?_⟩
      exact ⟨_, same.trans transformed, rfl, nofun, nofun⟩

/--
A charge around a point, beyond the bound at the last of five samples: the samples held
within the bound have the same solution, and its field leads back to the potential.
-/
theorem charge_beyond_the_bound_is_found_again :
    let settings : Settings Float := { extent := 4, points := 5, clamp := 1000 }
    let charge : Samples Float := .ofList [1, 2, 3, 4, 5000]
    let held : Samples Float := .ofList [1, 2, 3, 4, 1000]
    ∃ solver solution again,
      ofSettings settings = .ok solver ∧
      solver.transform .spherical .charge charge = .ok solution ∧
      solution.charge = held ∧
      solver.transform .spherical .charge held = .ok solution ∧
      solver.transform .spherical .field solution.field = .ok again ∧
      again.potential = solution.potential := by
  intro settings charge held
  let solver : Solver Float :=
    { settings := settings
      points_enough := by decide
      extent_positive := by decide +kernel
      clamp_positive := by decide +kernel }
  have accepted : ofSettings settings = .ok solver := ofSettings_eq_ok_iff.mpr rfl
  have derives : Quantity.charge ≠ .comparison := by decide
  have sized : charge.size = settings.points := rfl
  have bounded : charge.map (Scalar.clamp settings.clamp) = held := by decide +kernel
  obtain ⟨solution, transformed, shown, same, returns⟩ :=
    solutions_are_found_again accepted .spherical derives sized
  rw [bounded] at shown same
  have within :
      ∀ index, 1 ≤ index → index ≤ settings.points →
        ¬ solution.field.get index < -settings.clamp ∧
          ¬ settings.clamp < solution.field.get index := by
    obtain rfl := Except.ok.inj ((transform_charge sized).symm.trans transformed)
    intro index first last
    have last : index ≤ 5 := last
    obtain rfl | rfl | rfl | rfl | rfl :
        index = 1 ∨ index = 2 ∨ index = 3 ∨ index = 4 ∨ index = 5 := by
      omega
    all_goals decide +kernel
  obtain ⟨again, returned, -, potential, -⟩ := returns within
  exact ⟨solver, solution, again, accepted, transformed, Option.some.inj shown, same, returned,
    potential rfl⟩

end Solver

end Electrostatics.GaussLaw
