import Electrostatics.Proofs.GaussLaw.Parabolas
import Mathlib.Data.Rat.Floor
import Mathlib.Tactic.IntervalCases

namespace Electrostatics.GaussLaw

/-!
# Where the edge of a potential shows

A difference is zero at the last sample.  From a potential to its charge two differences
follow one another, so the last two samples of the charge are no data.  The origin is
continued from the second, third and fourth sample.  On the shortest axis, which has five
samples, the fourth is one of the last two, and the edge shows at the origin as well; from
six samples on it does not.
-/

open scoped Exact

namespace Solver

variable {K : Type} [Field K] [LinearOrder K] [FloorRing K] [IsStrictOrderedRing K]

/--
A parabolic potential within the bound shows its charge, which is minus the divergence of
its slope, at all samples but the first and the last two, and from six samples on at the
first as well.  With five samples the first is the fourth, which is an edge value.
-/
theorem parabolic_potential_shows_its_charge
    {settings : Settings K}
    {solver : Solver K}
    (accepted : ofSettings settings = .ok solver)
    {symmetry : Symmetry}
    {offset slope bend : K}
    (centred : symmetry = .planar ∨ symmetry = .cylindrical ∧ slope = 0)
    {potential : Samples K}
    (sized : potential.size = settings.points)
    (parabola :
      ∀ index, 1 ≤ index → index ≤ settings.points →
        potential.get index =
          offset + slope * solver.place index + bend * solver.place index ^ 2)
    (within :
      ∀ index, 1 ≤ index → index ≤ settings.points →
        |potential.get index| ≤ settings.clamp) :
    ∃ solution,
      solver.transform symmetry .potential potential = .ok solution ∧
      (∀ index, 2 ≤ index → index + 2 ≤ settings.points →
        solution.charge.get index = -(2 * symmetry.dimension * bend)) ∧
      (6 ≤ settings.points → solution.charge.get 1 = -(2 * symmetry.dimension * bend)) ∧
      (settings.points = 5 → solution.charge.get 1 = solution.charge.get 4) := by
  obtain rfl := ofSettings_eq_ok_iff.mp accepted
  have noExcess : ∀ steps, fluxExcess symmetry steps = (1 : K) := by
    rcases centred with rfl | ⟨rfl, -⟩ <;> exact fun _ => rfl
  let curve : Cubic K := { constant := offset, linear := slope, square := bend, cube := 0 }
  have lie : potential.LieOn solver.settings.points solver.spacing curve.eval := by
    intro steps inside
    rw [parabola (steps + 1) (by omega) inside, place, Nat.add_sub_cancel]
    simp only [Cubic.eval, curve]
    ring
  have centredCurve : symmetry = .planar ∨ curve.linear = 0 := centred.imp_right And.right
  obtain ⟨solution, transformed, charge, origin⟩ :=
    charge_of_parabola rfl centredCurve sized within lie
  have interior :
      ∀ index, 2 ≤ index → index + 2 ≤ solver.settings.points →
        solution.charge.get index = -(2 * symmetry.dimension * bend) := by
    intro index away inside
    obtain ⟨steps, rfl⟩ := Nat.exists_eq_add_of_le' (Nat.le_of_succ_le away)
    rw [charge steps (by omega) (by omega), noExcess]
    ring
  have least : 5 ≤ solver.settings.points := solver.points_enough
  have second := interior 2 (by omega) (by omega)
  have third := interior 3 (by omega) (by omega)
  refine ⟨solution, transformed, interior, fun longer => ?_, fun _ => ?_⟩
  -- The fourth sample is away from the edge exactly when there is a sixth.
  · rw [origin, second, third, interior 4 (by omega) (by omega)]
    ring
  · rw [origin, second, third]
    ring

/-- Six samples of the potential `3 - x + x ^ 2` show the charge `-2` up to the fourth. -/
theorem parabolic_potential_over_six_samples :
    let settings : Settings ℚ := { extent := 5, points := 6, clamp := 1000 }
    let potential : Samples ℚ := .ofList [3, 3, 5, 9, 15, 23]
    ∃ solver solution,
      ofSettings settings = .ok solver ∧
      solver.transform .planar .potential potential = .ok solution ∧
      solution.charge.get 1 = -2 ∧
      solution.charge.get 2 = -2 ∧
      solution.charge.get 3 = -2 ∧
      solution.charge.get 4 = -2 := by
  intro settings potential
  let solver : Solver ℚ :=
    { settings := settings
      points_enough := by decide
      extent_positive := by decide
      clamp_positive := by decide }
  have accepted : ofSettings settings = .ok solver := ofSettings_eq_ok_iff.mpr rfl
  have samples :
      ∀ index, 1 ≤ index → index ≤ settings.points →
        potential.get index =
            3 + -1 * solver.place index + 1 * solver.place index ^ 2 ∧
          |potential.get index| ≤ settings.clamp := by
    intro index first last
    have last : index ≤ 6 := last
    interval_cases index <;> decide +kernel
  have sized : potential.size = settings.points := rfl
  obtain ⟨solution, transformed, interior, origin, -⟩ :=
    parabolic_potential_shows_its_charge accepted (.inl rfl) sized
      (fun index first last => (samples index first last).1)
      (fun index first last => (samples index first last).2)
  have bend : -(2 * (Symmetry.planar.dimension : ℚ) * 1) = -2 := by decide +kernel
  rw [bend] at interior origin
  exact
    ⟨solver, solution, accepted, transformed, origin (by decide), interior 2 (by decide) (by decide),
      interior 3 (by decide) (by decide), interior 4 (by decide) (by decide)⟩

/--
The edge shows at the origin of the shortest axis: the potential `x ^ 2` over five samples
has the charge `-2` everywhere, and `2` comes out at the first sample.
-/
theorem edge_shows_at_the_origin_of_five_samples :
    let settings : Settings ℚ := { extent := 4, points := 5, clamp := 1000 }
    let potential : Samples ℚ := .ofList [0, 1, 4, 9, 16]
    ∃ solver solution,
      ofSettings settings = .ok solver ∧
      potential.size = settings.points ∧
      (∀ index, 1 ≤ index → index ≤ settings.points →
        potential.get index = solver.place index ^ 2 ∧
          |potential.get index| ≤ settings.clamp) ∧
      solver.transform .planar .potential potential = .ok solution ∧
      solution.charge.get 1 = 2 ∧
      solution.charge.get 1 ≠ -(2 * Symmetry.planar.dimension * 1) := by
  intro settings potential
  let solver : Solver ℚ :=
    { settings := settings
      points_enough := by decide
      extent_positive := by decide
      clamp_positive := by decide }
  have samples :
      ∀ index, 1 ≤ index → index ≤ settings.points →
        potential.get index = solver.place index ^ 2 ∧
          |potential.get index| ≤ settings.clamp := by
    intro index first last
    have last : index ≤ 5 := last
    interval_cases index <;> decide +kernel
  have charge :
      (chargeOfField .planar (fieldOfPotential (solver.clamped potential) solver.spacing)
        solver.axis solver.spacing).get 1 = 2 := by
    decide +kernel
  have bend : (2 : ℚ) ≠ -(2 * Symmetry.planar.dimension * 1) := by decide +kernel
  exact
    ⟨solver, _, ofSettings_eq_ok_iff.mpr rfl, rfl, samples, transform_potential rfl, charge,
      fun same => bend (charge.symm.trans same)⟩

end Solver

end Electrostatics.GaussLaw
