import Electrostatics.Proofs.GaussLaw.RoundTrip
import Mathlib.Algebra.Polynomial.Eval.Degree
import Mathlib.Analysis.SpecialFunctions.Integrals.Basic

namespace Electrostatics

/-!
# Exact fields

Over the real numbers the enclosed charge is an integral.  For a polynomial charge density
whose degree and the power of the area are three together at most, the field at a sample is
that integral over the area, and for a uniform charge the potential is minus the integral of
the field as well.
-/

open scoped Exact

namespace GaussLaw

/--
The field of a charge density on an axis: its integral over the area from the origin,
divided by the area, and for a slab less half of its integral over the axis.
-/
noncomputable def exactField
    (symmetry : Symmetry)
    (density : ℝ → ℝ)
    (extent place : ℝ) :
    ℝ :=
  fieldOfEnclosed symmetry (fun x => ∫ s in (0 : ℝ)..x, density s * s ^ symmetry.areaPower)
    extent place

/-- A polynomial charge density times the area. -/
noncomputable def densityTimesArea (symmetry : Symmetry) (density : Polynomial ℝ) : Cubic ℝ :=
  .ofPolynomial (density * Polynomial.X ^ symmetry.areaPower.toNat)

variable
  {symmetry : Symmetry}
  {density : Polynomial ℝ}

theorem Symmetry.areaPower_nonneg (symmetry : Symmetry) : 0 ≤ symmetry.areaPower := by
  cases symmetry <;> decide

theorem natDegree_timesArea_le
    {bound : Nat}
    (low : (density.natDegree : Int) + symmetry.areaPower ≤ bound) :
    (density * Polynomial.X ^ symmetry.areaPower.toNat : Polynomial ℝ).natDegree ≤ bound := by
  have positive := symmetry.areaPower_nonneg
  let area : Polynomial ℝ := Polynomial.X ^ symmetry.areaPower.toNat
  calc
    (density * area).natDegree ≤ density.natDegree + area.natDegree :=
      Polynomial.natDegree_mul_le
    _ ≤ density.natDegree + symmetry.areaPower.toNat :=
      Nat.add_le_add_left (Polynomial.natDegree_X_pow_le _) _
    _ ≤ bound := by omega

theorem eval_densityTimesArea
    (low : (density.natDegree : Int) + symmetry.areaPower ≤ 3)
    (x : ℝ) :
    (densityTimesArea symmetry density).eval x = density.eval x * x ^ symmetry.areaPower := by
  rw [densityTimesArea, Cubic.eval_ofPolynomial (natDegree_timesArea_le low), Polynomial.eval_mul,
    Polynomial.eval_pow, Polynomial.eval_X, ← zpow_natCast,
    Int.toNat_of_nonneg symmetry.areaPower_nonneg]

theorem densityTimesArea_parabolic
    (low : (density.natDegree : Int) + symmetry.areaPower ≤ 2) :
    (densityTimesArea symmetry density).cube = 0 :=
  Cubic.ofPolynomial_cube (natDegree_timesArea_le low)

/-- The exact field of a charge that is a cubic at most where it is weighed by the area. -/
theorem exactField_eq
    {weighted : Cubic ℝ}
    {density : ℝ → ℝ}
    (weighs : ∀ x, weighted.eval x = density x * x ^ symmetry.areaPower)
    (extent place : ℝ) :
    exactField symmetry density extent place =
      fieldOfEnclosed symmetry weighted.primitive extent place := by
  have enclosed :
      (fun x => ∫ s in (0 : ℝ)..x, density s * s ^ symmetry.areaPower) =
        weighted.primitive := by
    funext x
    simp only [← weighs, weighted.integral_eval]
  rw [exactField, enclosed]

theorem exactField_uniform
    (symmetry : Symmetry)
    (charge extent : ℝ) :
    exactField symmetry (fun _ => charge) extent =
      (fieldOfUniform symmetry (extent / 2) charge).eval := by
  funext place
  rw [exactField_eq (eval_uniformTimesArea symmetry charge), fieldOfEnclosed_uniform]

namespace Solver

variable
  {solver : Solver ℝ}
  {charge : Samples ℝ}

/-- A uniform density has its exact field and potential at every sample. -/
theorem uniform_density_is_exact
    (symmetry : Symmetry)
    (uniform : density.natDegree = 0)
    (sized : charge.size = solver.settings.points)
    (sampled :
      ∀ index, 1 ≤ index → index ≤ solver.settings.points →
        charge.get index = density.eval (solver.place index))
    (within :
      ∀ index, 1 ≤ index → index ≤ solver.settings.points →
        |charge.get index| ≤ solver.settings.clamp) :
    ∃ solution,
      solver.transform symmetry .charge charge = .ok solution ∧
      ∀ index, 1 ≤ index → index ≤ solver.settings.points →
        solution.field.get index =
            exactField symmetry density.eval solver.settings.extent (solver.place index) ∧
          solution.potential.get index =
            -∫ s in (0 : ℝ)..solver.place index,
              exactField symmetry density.eval solver.settings.extent s := by
  have least : 5 ≤ solver.settings.points := solver.points_enough
  have constant : density.eval = fun _ => density.coeff 0 := by
    funext x
    rw [Polynomial.eq_C_of_natDegree_eq_zero uniform, Polynomial.eval_C,
      Polynomial.coeff_C_zero]
  have same :
      ∀ index, 1 ≤ index → index ≤ solver.settings.points →
        charge.get index = density.coeff 0 := fun index first last =>
    (sampled index first last).trans (congrFun constant _)
  have bounded : |density.coeff 0| ≤ solver.settings.clamp :=
    same 1 le_rfl (by omega) ▸ within 1 le_rfl (by omega)
  obtain ⟨solution, transformed, -, field, potential⟩ :=
    transform_uniform_charge symmetry bounded sized same
  refine ⟨solution, transformed, fun index first last => ?_⟩
  obtain ⟨steps, rfl⟩ := Nat.exists_eq_add_of_le' first
  rw [place_succ, constant, exactField_uniform, Cubic.integral_eval]
  exact ⟨field steps last, (potential steps last).trans (eval_potentialOfLinear ⟨rfl, rfl⟩ _)⟩

/--
A polynomial charge within the bound has its exact field from the third sample on where its
degree and the power of the area are three together at most, and at the second sample where
they are two.  A uniform charge has it at every sample, and its potential is minus the
integral of that field.
-/
theorem polynomial_charge_has_its_exact_field
    {settings : Settings ℝ}
    {solver : Solver ℝ}
    (accepted : ofSettings settings = .ok solver)
    (symmetry : Symmetry)
    (density : Polynomial ℝ)
    {charge : Samples ℝ}
    (sized : charge.size = settings.points)
    (sampled :
      ∀ index, 1 ≤ index → index ≤ settings.points →
        charge.get index = density.eval (solver.place index))
    (within :
      ∀ index, 1 ≤ index → index ≤ settings.points →
        |charge.get index| ≤ settings.clamp) :
    ∃ solution,
      solver.transform symmetry .charge charge = .ok solution ∧
      ((density.natDegree : Int) + symmetry.areaPower ≤ 3 →
        ∀ index, 3 ≤ index → index ≤ settings.points →
          solution.field.get index =
            exactField symmetry density.eval settings.extent (solver.place index)) ∧
      ((density.natDegree : Int) + symmetry.areaPower ≤ 2 →
        solution.field.get 2 =
          exactField symmetry density.eval settings.extent (solver.place 2)) ∧
      (density.natDegree = 0 →
        ∀ index, 1 ≤ index → index ≤ settings.points →
          solution.field.get index =
              exactField symmetry density.eval settings.extent (solver.place index) ∧
            solution.potential.get index =
              -∫ s in (0 : ℝ)..solver.place index,
                exactField symmetry density.eval settings.extent s) := by
  obtain rfl := ofSettings_eq_ok_iff.mp accepted
  have least : 5 ≤ solver.settings.points := solver.points_enough
  have lie : charge.LieOn solver.settings.points solver.spacing density.eval := by
    intro steps inside
    rw [sampled (steps + 1) (by omega) inside, place_succ]
  refine ⟨_, transform_charge sized, fun low index away inside => ?_, fun low => ?_,
    fun uniform => ?_⟩
  · obtain ⟨steps, rfl⟩ := Nat.exists_eq_add_of_le' (le_trans (by decide : 1 ≤ 3) away)
    have weighs := eval_densityTimesArea low
    rw [place_succ, exactField_eq weighs]
    exact fieldOfCharge_clamped_get symmetry weighs sized within lie (.inr (by omega)) inside
      (by omega)
  · have weighs := eval_densityTimesArea (low.trans (by decide))
    rw [solver.place_succ 1, exactField_eq weighs]
    exact fieldOfCharge_clamped_get symmetry weighs sized within lie (.inr le_rfl) (by omega)
      fun _ => densityTimesArea_parabolic low
  · obtain ⟨solution, transformed, everywhere⟩ :=
      uniform_density_is_exact symmetry uniform sized sampled within
    obtain rfl := Except.ok.inj ((transform_charge sized).symm.trans transformed)
    exact everywhere

/-- Around a point the charge `x` has the field `x ^ 2 / 4`, from the third sample on. -/
theorem linear_charge_around_a_point_has_its_exact_field :
    let settings : Settings ℝ := { extent := 4, points := 5, clamp := 1000 }
    let charge : Samples ℝ := .ofList [0, 1, 2, 3, 4]
    ∃ solver solution,
      ofSettings settings = .ok solver ∧
      solver.transform .spherical .charge charge = .ok solution ∧
      solution.field.get 3 = 1 ∧
      solution.field.get 5 = 4 := by
  intro settings charge
  let solver : Solver ℝ :=
    { settings := settings
      points_enough := by decide
      extent_positive := ⟨rfl, by simp [settings]⟩
      clamp_positive := by simp [settings] }
  have accepted : ofSettings settings = .ok solver := ofSettings_eq_ok_iff.mpr rfl
  have spacing : solver.spacing = 1 := by
    norm_num [Solver.spacing, solver, settings]
  have samples :
      ∀ index, 1 ≤ index → index ≤ settings.points →
        charge.get index = Polynomial.X.eval (solver.place index) ∧
          |charge.get index| ≤ settings.clamp := by
    intro index first last
    have last : index ≤ 5 := last
    rw [Polynomial.eval_X, Solver.place, spacing]
    interval_cases index <;> norm_num [charge, settings, Samples.get, Samples.ofList]
  have low : ((Polynomial.X : Polynomial ℝ).natDegree : Int) + Symmetry.spherical.areaPower ≤ 3 := by
    rw [Polynomial.natDegree_X]
    decide
  obtain ⟨solution, transformed, field, -, -⟩ :=
    polynomial_charge_has_its_exact_field accepted .spherical Polynomial.X rfl
      (fun index first last => (samples index first last).1)
      (fun index first last => (samples index first last).2)
  have value (x : ℝ) (away : x ≠ 0) :
      exactField .spherical (Polynomial.X : Polynomial ℝ).eval settings.extent x = x ^ 2 / 4 := by
    let weighted : Cubic ℝ := { constant := 0, linear := 0, square := 0, cube := 1 }
    have weighs (x : ℝ) :
        weighted.eval x = (Polynomial.X : Polynomial ℝ).eval x * x ^ Symmetry.spherical.areaPower := by
      simp only [Cubic.eval, weighted, Polynomial.eval_X, Symmetry.areaPower, zpow_ofNat]
      ring
    rw [exactField_eq weighs, fieldOfEnclosed_curved (by decide) away]
    simp only [Cubic.primitive, weighted, Symmetry.areaPower, zpow_ofNat, Nat.cast_ofNat]
    field_simp
    ring
  refine ⟨solver, solution, accepted, transformed, ?_, ?_⟩
  · rw [field low 3 (by decide) (by decide), solver.place_succ 2, spacing, value _ (by norm_num)]
    norm_num
  · rw [field low 5 (by decide) (by decide), solver.place_succ 4, spacing, value _ (by norm_num)]
    norm_num

end Solver

end GaussLaw

end Electrostatics
