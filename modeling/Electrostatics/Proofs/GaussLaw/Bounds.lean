import Electrostatics.Proofs.GaussLaw.Sampling
import Electrostatics.Proofs.Number.DoubleOrder

namespace Electrostatics.GaussLaw

/-!
# The bound of a solver

Samples of a formula are held within the bound of the solver, and so the transforms take
them as they are.  The one exception is an origin that is continued from its neighbours:
the continuation comes after the bound and may lie beyond it.  A transform then takes it
held within the bound once more.
-/

open scoped Scalar

namespace Solver

variable {α : Type} [Scalar α] [Elementary α]

/-- A value of a formula, or the zero that stands for an error, is never undefined. -/
theorem isNumber_softened
    [OrderedNumbers α]
    (solver : Solver α)
    (formula : Formula)
    (index : Nat) :
    Scalar.isNumber (Formula.softened (solver.outcome formula index)) = true := by
  refine OrderedNumbers.isNumber_of_isFinite ?_
  cases evaluated : solver.outcome formula index with
  | ok value => exact Formula.isFinite_of_tryEvaluate evaluated
  | error fault => exact OrderedNumbers.isFinite_zero

/-- The value at an index is held between the bounds. -/
theorem heldValue_between
    [OrderedNumbers α]
    (solver : Solver α)
    (formula : Formula)
    (index : Nat) :
    -solver.settings.clamp ≤ solver.heldValue formula index ∧
      solver.heldValue formula index ≤ solver.settings.clamp :=
  Scalar.clamp_between solver.clamp_positive (solver.isNumber_softened formula index)

variable
  {solver : Solver α}
  {formula : Formula}
  {known : Quantity}

theorem size_sample
    (solver : Solver α)
    (formula : Formula)
    (known : Quantity) :
    (solver.sample formula known).values.size = solver.settings.points := by
  by_cases repairs : solver.Repairs formula known
  · rw [values_of_repairs repairs, size_continueToOrigin, size_heldValues]
  · rw [values_of_not_repairs repairs, size_heldValues]

/-- The bound changes no sample but an origin that was continued. -/
theorem get_clamped_sample
    {index : Nat}
    (away : index = 1 → ¬ solver.Repairs formula known)
    (first : 1 ≤ index)
    (last : index ≤ solver.settings.points) :
    (solver.clamped (solver.sample formula known).values).get index =
      (solver.sample formula known).values.get index := by
  rw [get_clamped first (size_sample solver formula known ▸ last), get_sample away first last]
  exact Scalar.clamp_clamp _ _

/-- Solving for the charge of a formula transforms its samples. -/
theorem exists_solve_charge
    {source : String}
    (read : solver.parse source = .ok formula)
    (symmetry : Symmetry) :
    ∃ solution,
      solver.solve symmetry .charge source =
        .ok (solution, (solver.sample formula .charge).warnings) ∧
      solution.charge = solver.clamped (solver.sample formula .charge).values := by
  obtain ⟨solution, transformed, charge⟩ :
      ∃ solution,
        solver.transform symmetry .charge (solver.sample formula .charge).values =
          .ok solution ∧
        solution.charge = solver.clamped (solver.sample formula .charge).values :=
    ⟨_, transform_charge (size_sample solver formula .charge), rfl⟩
  exact ⟨solution, by simp only [solve, read, transformed], charge⟩

/--
Samples stay within the bound of the solver, and a transform takes them as they are, at
every index but an origin that was continued from its neighbours.  There the sample is the
continuation itself, and a transform takes it held within the bound.  So the charge of a
solution shows the samples of its formula at every other index.
-/
theorem samples_stay_within_the_bound
    [OrderedNumbers α]
    {settings : Settings α}
    {solver : Solver α}
    (accepted : ofSettings settings = .ok solver) :
    (∀ formula known,
      let samples := (solver.sample formula known).values
      samples.size = settings.points ∧
      (∀ index, 1 ≤ index → index ≤ settings.points →
        (index = 1 → ¬ (known = .charge ∧ solver.OriginIsBad formula)) →
        (-settings.clamp ≤ samples.get index ∧ samples.get index ≤ settings.clamp) ∧
          (solver.clamped samples).get index = samples.get index) ∧
      (known = .charge ∧ solver.OriginIsBad formula →
        samples.get 1 = 3 * samples.get 2 - 3 * samples.get 3 + samples.get 4)) ∧
    (∀ symmetry source formula,
      solver.parse source = .ok formula →
      let samples := (solver.sample formula .charge).values
      ∃ solution,
        solver.solve symmetry .charge source =
          .ok (solution, (solver.sample formula .charge).warnings) ∧
        (∀ index, 1 ≤ index → index ≤ settings.points →
          (index = 1 → ¬ solver.OriginIsBad formula) →
          solution.charge.get index = samples.get index) ∧
        (solver.OriginIsBad formula →
          solution.charge.get 1 = Scalar.clamp settings.clamp (samples.get 1))) := by
  obtain rfl := ofSettings_eq_ok_iff.mp accepted
  have enough : 5 ≤ solver.settings.points := solver.points_enough
  refine ⟨fun formula known => ?_, fun symmetry source formula read => ?_⟩
  · refine ⟨size_sample solver formula known, fun index first last away => ?_, fun repairs => ?_⟩
    · refine ⟨?_, get_clamped_sample away first last⟩
      rw [get_sample away first last]
      exact solver.heldValue_between formula index
    · rw [get_sample_one repairs, get_sample (by omega) (by omega) (by omega),
        get_sample (by omega) (by omega) (by omega), get_sample (by omega) (by omega) (by omega)]
  · obtain ⟨solution, solved, charge⟩ := exists_solve_charge read symmetry
    refine ⟨solution, solved, fun index first last away => ?_, fun _ => ?_⟩
    · rw [charge]
      exact get_clamped_sample (fun isOrigin repairs => away isOrigin repairs.2) first last
    · rw [charge]
      exact get_clamped le_rfl (by rw [size_sample]; omega)

/--
The charge `1/r` within the bound `1`: the origin is continued to more than the bound, and
the solution shows it held within the bound, beside the other samples as they are.
-/
theorem inverse_charge_stays_within_the_bound :
    let settings : Settings Float := { extent := 4, points := 5, clamp := 1 }
    let formula : Formula :=
      ⟨"1/r", .operation .div (.number ⟨1, 0⟩) (.coordinate .r), none⟩
    ∃ solver solution,
      ofSettings settings = .ok solver ∧
      solver.parse "1/r" = .ok formula ∧
      let sampled := solver.sample formula .charge
      sampled.values.get 3 ≤ 1 ∧
      sampled.values.get 1 =
        3 * sampled.values.get 2 - 3 * sampled.values.get 3 + sampled.values.get 4 ∧
      solver.solve .spherical .charge "1/r" = .ok (solution, sampled.warnings) ∧
      solution.charge.get 3 = sampled.values.get 3 ∧
      solution.charge.get 1 = 1 := by
  intro settings formula
  let solver : Solver Float :=
    { settings := settings
      points_enough := by decide
      extent_positive := by decide +kernel
      clamp_positive := by decide +kernel }
  have accepted : ofSettings settings = .ok solver := ofSettings_eq_ok_iff.mpr rfl
  have read : solver.parse "1/r" = .ok formula := by rfl
  have isBad : solver.OriginIsBad formula := .inl ⟨.divisionByZero, by decide +kernel⟩
  obtain ⟨sampled, solved⟩ := samples_stay_within_the_bound accepted
  obtain ⟨-, between, continued⟩ := sampled formula .charge
  obtain ⟨solution, same, charge, origin⟩ := solved .spherical "1/r" formula read
  have held : Scalar.clamp settings.clamp ((solver.sample formula .charge).values.get 1) = 1 := by
    decide +kernel
  exact
    ⟨solver, solution, accepted, read, (between 3 (by decide) (by decide) nofun).1.2,
      continued ⟨rfl, isBad⟩, same, charge 3 (by decide) (by decide) nofun,
      (origin isBad).trans held⟩

/--
A continued origin can leave the bound: the charge `2-r` is two at the origin, beyond the
bound `1`, and its neighbours continue it to two again.  The solution shows one there.
-/
theorem continued_origin_leaves_the_bound :
    let settings : Settings Float := { extent := 4, points := 5, clamp := 1 }
    ∃ solver formula solution warnings,
      ofSettings settings = .ok solver ∧
      solver.parse "2-r" = .ok formula ∧
      let samples := (solver.sample formula .charge).values
      ¬ samples.get 1 ≤ settings.clamp ∧
      (solver.clamped samples).get 1 ≠ samples.get 1 ∧
      solver.solve .planar .charge "2-r" = .ok (solution, warnings) ∧
      solution.charge.get 1 ≠ samples.get 1 := by
  intro settings
  let solver : Solver Float :=
    { settings := settings
      points_enough := by decide
      extent_positive := by decide +kernel
      clamp_positive := by decide +kernel }
  let formula : Formula :=
    ⟨"2-r", .operation .sub (.number ⟨2, 0⟩) (.coordinate .r), none⟩
  have read : solver.parse "2-r" = .ok formula := by rfl
  have sampled : (solver.sample formula .charge).values.get 1 = 2 := by decide +kernel
  have held : (solver.clamped (solver.sample formula .charge).values).get 1 = 1 := by
    decide +kernel
  have beyond : ¬ (2 : Float) ≤ settings.clamp := by decide +kernel
  have moved : (1 : Float) ≠ 2 := by decide +kernel
  obtain ⟨solution, solved, charge⟩ := exists_solve_charge read .planar
  refine
    ⟨solver, formula, solution, _, ofSettings_eq_ok_iff.mpr rfl, read, ?_, ?_, solved, ?_⟩
  · rw [sampled]
    exact beyond
  · rw [sampled, held]
    exact moved
  · rw [charge, sampled, held]
    exact moved

end Solver

end Electrostatics.GaussLaw
