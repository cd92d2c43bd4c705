import Electrostatics.Proofs.GaussLaw.EnclosedCharge
import Mathlib.Data.Rat.Floor
import Mathlib.Tactic.IntervalCases

namespace Electrostatics.GaussLaw

/-!
# A uniform charge there and back

In exact arithmetic a uniform charge has a linear field and a parabolic potential, at every
sample.  So the way back is that of a parabola: planar and cylindrical symmetry return the
charge that was handed in, and spherical symmetry returns it with the known error of the
difference of a cubic flux.
-/

open scoped Exact

section Curves

variable {K : Type} [Field K]

/-- A uniform charge times the area. -/
def uniformTimesArea (symmetry : Symmetry) (charge : K) : Cubic K :=
  match symmetry with
  | .planar => { constant := charge, linear := 0, square := 0, cube := 0 }
  | .cylindrical => { constant := 0, linear := charge, square := 0, cube := 0 }
  | .spherical => { constant := 0, linear := 0, square := charge, cube := 0 }

/-- The field of a uniform charge.  A slab has none in the middle of the axis. -/
def fieldOfUniform (symmetry : Symmetry) (middle charge : K) : Cubic K where
  constant := if symmetry = .planar then -(charge * middle) else 0
  linear := charge / symmetry.dimension
  square := 0
  cube := 0

/-- Minus the primitive of a linear field. -/
def potentialOfLinear (field : Cubic K) : Cubic K where
  constant := 0
  linear := -field.constant
  square := -(field.linear / (2 : Nat))
  cube := 0

theorem eval_uniformTimesArea
    (symmetry : Symmetry)
    (charge x : K) :
    (uniformTimesArea symmetry charge).eval x = charge * x ^ symmetry.areaPower := by
  cases symmetry with
  | planar => simp [Cubic.eval, uniformTimesArea, Symmetry.areaPower]
  | cylindrical => simp [Cubic.eval, uniformTimesArea, Symmetry.areaPower]
  | spherical =>
      simp only [Cubic.eval, uniformTimesArea, Symmetry.areaPower, zpow_ofNat]
      ring

theorem uniformTimesArea_parabolic
    (symmetry : Symmetry)
    (charge : K) :
    (uniformTimesArea symmetry charge).cube = 0 := by
  cases symmetry <;> rfl

theorem fieldOfUniform_centred
    (symmetry : Symmetry)
    (middle charge : K) :
    symmetry = .planar ∨ (fieldOfUniform symmetry middle charge).constant = 0 :=
  (em _).imp_right fun curved => if_neg curved

theorem eval_potentialOfLinear
    {field : Cubic K}
    (linear : field.square = 0 ∧ field.cube = 0)
    (x : K) :
    (potentialOfLinear field).eval x = -field.primitive x := by
  simp only [Cubic.eval, Cubic.primitive, potentialOfLinear, linear]
  ring

/-- The slope of the field, once for every dimension, is the charge. -/
theorem dimension_mul_slope
    [CharZero K]
    (symmetry : Symmetry)
    (middle charge : K) :
    symmetry.dimension * (fieldOfUniform symmetry middle charge).linear = charge := by
  have spreads : (symmetry.dimension : K) ≠ 0 := by
    cases symmetry <;> exact Nat.cast_ne_zero.mpr (by decide)
  exact mul_div_cancel₀ charge spreads

end Curves

variable {K : Type} [Field K] [LinearOrder K] [FloorRing K]

variable
  {samples axis field : Samples K}
  {charge h : K}

/-! ## The field and the potential of a uniform charge -/

/-- What a uniform charge encloses has a linear field. -/
theorem fieldOfEnclosed_uniform
    (symmetry : Symmetry)
    (charge extent x : K) :
    fieldOfEnclosed symmetry (uniformTimesArea symmetry charge).primitive extent x =
      (fieldOfUniform symmetry (extent / 2) charge).eval x := by
  by_cases planar : symmetry = .planar
  · subst planar
    rw [fieldOfEnclosed_planar]
    simp only [Cubic.eval, Cubic.primitive, uniformTimesArea, fieldOfUniform, if_true,
      Symmetry.dimension, Nat.cast_one]
    ring
  · by_cases origin : x = 0
    · subst origin
      rw [fieldOfEnclosed_origin planar]
      simp [Cubic.eval, fieldOfUniform, planar]
    · rw [fieldOfEnclosed_curved planar origin]
      simp only [Cubic.eval, Cubic.primitive, fieldOfUniform, if_neg planar]
      cases symmetry with
      | planar => exact (planar rfl).elim
      | cylindrical =>
          simp only [uniformTimesArea, Symmetry.areaPower, Symmetry.dimension, zpow_one]
          field_simp
          ring
      | spherical =>
          simp only [uniformTimesArea, Symmetry.areaPower, Symmetry.dimension, zpow_ofNat]
          field_simp
          ring

/-- The field of a uniform charge is linear, in every symmetry. -/
theorem fieldOfCharge_uniform
    (symmetry : Symmetry)
    (apart : h ≠ 0)
    (enough : leastPoints ≤ samples.size)
    (axisLies : axis.LieOn samples.size h id)
    (uniform : samples.LieOn samples.size h fun _ => charge) :
    (fieldOfCharge symmetry samples axis h).LieOn samples.size h
      (fieldOfUniform symmetry ((samples.size - 1 : Nat) * h / 2) charge).eval := by
  have least : 5 ≤ samples.size := enough
  have value :
      ∀ steps, symmetry = .planar ∨ 1 ≤ steps → steps < samples.size →
        (fieldOfCharge symmetry samples axis h).get (steps + 1) =
          (fieldOfUniform symmetry ((samples.size - 1 : Nat) * h / 2) charge).eval
            (steps * h) := by
    intro steps away inside
    rw [fieldOfCharge_get symmetry apart (eval_uniformTimesArea symmetry charge) (by omega)
      axisLies uniform away inside fun _ => uniformTimesArea_parabolic symmetry charge,
      fieldOfEnclosed_uniform]
  by_cases planar : symmetry = .planar
  · exact fun steps inside => value steps (.inl planar) inside
  · rw [fieldOfCharge_of_curved planar] at value ⊢
    exact continueToOrigin_lieOn rfl (by omega) (by simp; omega)
      fun steps away inside => value steps (.inr away) inside

/-- The potential of a linear field is minus its primitive. -/
theorem potentialOfField_linear
    {curve : Cubic K}
    (enough : 3 ≤ field.size)
    (linear : curve.square = 0 ∧ curve.cube = 0)
    (lie : field.LieOn field.size h curve.eval) :
    (potentialOfField field h).LieOn field.size h (potentialOfLinear curve).eval := by
  have negated := (lie.runningIntegral enough linear.2).map (by simp) fun value => -value
  intro steps inside
  exact (negated steps inside).trans (eval_potentialOfLinear linear _).symm

namespace Solver

variable [IsStrictOrderedRing K]

/-- A uniform charge within the bound has its exact field and potential at every sample. -/
theorem transform_uniform_charge
    {solver : Solver K}
    (symmetry : Symmetry)
    (bounded : |charge| ≤ solver.settings.clamp)
    (sized : samples.size = solver.settings.points)
    (uniform :
      ∀ index, 1 ≤ index → index ≤ solver.settings.points → samples.get index = charge) :
    ∃ solution,
      solver.transform symmetry .charge samples = .ok solution ∧
      solution.potential.size = solver.settings.points ∧
      solution.field.LieOn solver.settings.points solver.spacing
        (fieldOfUniform symmetry (solver.settings.extent / 2) charge).eval ∧
      solution.potential.LieOn solver.settings.points solver.spacing
        (potentialOfLinear
          (fieldOfUniform symmetry (solver.settings.extent / 2) charge)).eval := by
  have least : 5 ≤ solver.settings.points := solver.points_enough
  have inputSize : (solver.clamped samples).size = solver.settings.points :=
    (solver.size_clamped samples).trans sized
  have input :
      (solver.clamped samples).LieOn solver.settings.points solver.spacing fun _ => charge := by
    refine clamped_lieOn sized.ge (fun index first last => ?_) fun steps inside => ?_
    · rwa [uniform index first last]
    · exact uniform (steps + 1) (by omega) inside
  have field := fieldOfCharge_uniform symmetry solver.spacing_pos.ne'
    (inputSize ▸ solver.points_enough) (inputSize.symm ▸ solver.axis_lieOn)
    (inputSize.symm ▸ input)
  have fieldSize :
      (fieldOfCharge symmetry (solver.clamped samples) solver.axis solver.spacing).size =
        solver.settings.points :=
    (size_fieldOfCharge _ _ _ _).trans inputSize
  rw [inputSize, intervals_mul_spacing] at field
  have potential :=
    potentialOfField_linear (by omega) ⟨rfl, rfl⟩ (fieldSize.symm ▸ field)
  rw [fieldSize] at potential
  exact ⟨_, transform_charge sized, (size_potentialOfField _ _).trans fieldSize, field, potential⟩

/--
From a uniform charge to its potential and back, the charge returns at all samples but the
first and the last two: exactly in planar and cylindrical symmetry, and around a point with
the factor `1 + 1 / (3 * (index - 1) ^ 2)`.
-/
theorem uniform_charge_returns
    {settings : Settings K}
    {solver : Solver K}
    (accepted : ofSettings settings = .ok solver)
    (symmetry : Symmetry)
    (bounded : |charge| ≤ settings.clamp)
    (sized : samples.size = settings.points)
    (uniform : ∀ index, 1 ≤ index → index ≤ settings.points → samples.get index = charge) :
    ∃ forth,
      solver.transform symmetry .charge samples = .ok forth ∧
      ((∀ index, 1 ≤ index → index ≤ settings.points →
          |forth.potential.get index| ≤ settings.clamp) →
        ∃ back,
          solver.transform symmetry .potential forth.potential = .ok back ∧
          ∀ index, 2 ≤ index → index + 2 ≤ settings.points →
            back.charge.get index = charge * fluxExcess symmetry (index - 1)) := by
  obtain rfl := ofSettings_eq_ok_iff.mp accepted
  obtain ⟨forth, transformed, potentialSize, -, potential⟩ :=
    transform_uniform_charge symmetry bounded sized uniform
  refine ⟨forth, transformed, fun within => ?_⟩
  let field := fieldOfUniform symmetry (solver.settings.extent / 2) charge
  have centred : symmetry = .planar ∨ (potentialOfLinear field).linear = 0 :=
    (fieldOfUniform_centred symmetry _ charge).imp_right neg_eq_zero.mpr
  obtain ⟨back, returned, interior, -⟩ :=
    charge_of_parabola rfl centred potentialSize within potential
  refine ⟨back, returned, fun index away inside => ?_⟩
  obtain ⟨steps, rfl⟩ := Nat.exists_eq_add_of_le' (Nat.le_of_succ_le away)
  -- Twice differentiating undoes twice integrating: what is left is the slope of the field.
  have slope : -(2 * (potentialOfLinear field).square) = field.linear := by
    simp only [potentialOfLinear, Nat.cast_ofNat]
    ring
  rw [interior steps (by omega) (by omega), slope, dimension_mul_slope, Nat.add_sub_cancel]

/-- Around a point the charge `6` over six samples comes back as `8`, `13 / 2` and `56 / 9`. -/
theorem uniform_charge_returns_around_a_point :
    let settings : Settings ℚ := { extent := 5, points := 6, clamp := 1000 }
    let samples : Samples ℚ := .ofList [6, 6, 6, 6, 6, 6]
    ∃ solver forth back,
      ofSettings settings = .ok solver ∧
      solver.transform .spherical .charge samples = .ok forth ∧
      solver.transform .spherical .potential forth.potential = .ok back ∧
      back.charge.get 2 = 8 ∧
      back.charge.get 3 = 13 / 2 ∧
      back.charge.get 4 = 56 / 9 := by
  intro settings samples
  let solver : Solver ℚ :=
    { settings := settings
      points_enough := by decide
      extent_positive := by decide
      clamp_positive := by decide }
  have accepted : ofSettings settings = .ok solver := ofSettings_eq_ok_iff.mpr rfl
  have bounded : |(6 : ℚ)| ≤ settings.clamp := by decide +kernel
  have sized : samples.size = settings.points := rfl
  have uniform : ∀ index, 1 ≤ index → index ≤ settings.points → samples.get index = 6 := by
    intro index first last
    have last : index ≤ 6 := last
    interval_cases index <;> rfl
  obtain ⟨forth, transformed, returns⟩ :=
    uniform_charge_returns accepted .spherical bounded sized uniform
  obtain rfl := Except.ok.inj ((transform_charge sized).symm.trans transformed)
  have within :
      ∀ index, 1 ≤ index → index ≤ settings.points →
        |(potentialOfField
            (fieldOfCharge .spherical (solver.clamped samples) solver.axis solver.spacing)
            solver.spacing).get index| ≤ settings.clamp := by
    intro index first last
    have last : index ≤ 6 := last
    interval_cases index <;> decide +kernel
  obtain ⟨back, returned, charge⟩ := returns within
  refine ⟨solver, _, back, accepted, transformed, returned, ?_, ?_, ?_⟩
  · exact (charge 2 (by decide) (by decide)).trans (by decide +kernel)
  · exact (charge 3 (by decide) (by decide)).trans (by decide +kernel)
  · exact (charge 4 (by decide) (by decide)).trans (by decide +kernel)

end Solver

end Electrostatics.GaussLaw
