import Electrostatics.Proofs.GaussLaw.ExactFields

namespace Electrostatics

/-!
# Exact slopes

The other two ways through a transform differentiate.  Over the real numbers the field of a
parabolic potential is minus its derivative, and the charge of a field whose degree and the
power of the area are two together at most is the derivative of the flux over the area.
Both rules are zero at the last sample, which has no neighbour behind it.
-/

open scoped Exact

/-- The slope of a parabola is its derivative. -/
theorem Cubic.hasDerivAt_eval
    {curve : Cubic ℝ}
    (parabolic : curve.cube = 0)
    (x : ℝ) :
    HasDerivAt curve.eval (-curve.descent.eval x) x := by
  have line := ((hasDerivAt_id x).const_mul curve.linear).const_add curve.constant
  have square := (hasDerivAt_pow 2 x).const_mul curve.square
  have cube := (hasDerivAt_pow 3 x).const_mul curve.cube
  refine ((line.add square).add cube).congr_deriv ?_
  simp only [eval, descent, parabolic, Nat.cast_ofNat, Nat.add_one_sub_one]
  ring

namespace GaussLaw

section Rules

variable
  {K : Type}
  [Field K]
  [LinearOrder K]
  [FloorRing K]
  {symmetry : Symmetry}
  {potential field axis : Samples K}
  {weighted : Cubic K}
  {line : K → K}
  {h : K}
  {steps : Nat}

/-- No slope is taken at the last sample of a potential. -/
theorem fieldOfPotential_last (longer : 2 ≤ potential.size) :
    (fieldOfPotential potential h).get potential.size = 0 := by
  have atEdge : potential.difference potential.size h = 0 :=
    (if_pos (.inr (Nat.lt_succ_self _))).trans Exact.numeral_zero
  rw [fieldOfPotential, get_continueToOrigin_of_ne _ (by omega),
    Samples.get_ofFn _ (by omega) le_rfl, atEdge, neg_zero]

/-- No slope is taken at the last sample of a flux. -/
theorem chargeOfField_last (longer : 2 ≤ field.size) :
    (chargeOfField symmetry field axis h).get field.size = 0 := by
  have notOrigin : field.size ≠ 1 := by omega
  have sized : (timesArea symmetry.areaPower axis field).size = field.size :=
    size_timesArea _ _ _
  have atEdge : (timesArea symmetry.areaPower axis field).difference field.size h = 0 :=
    (if_pos (.inr (by omega))).trans Exact.numeral_zero
  rw [chargeOfField, overArea, get_continueToOrigin_of_ne _ notOrigin,
    Samples.get_ofFn _ (by omega) le_rfl, if_neg notOrigin, atEdge, zero_div]

/-- The charge of a flux that is a parabola is its slope over the area. -/
theorem chargeOfField_parabolic
    (apart : h ≠ 0)
    (weighs : ∀ x, weighted.eval x = line x * x ^ symmetry.areaPower)
    (parabolic : weighted.cube = 0)
    (axisLies : axis.LieOn field.size h id)
    (lie : field.LieOn field.size h line)
    (away : 1 ≤ steps)
    (within : steps + 1 < field.size) :
    (chargeOfField symmetry field axis h).get (steps + 1) =
      -weighted.descent.eval (steps * h) / (steps * h) ^ symmetry.areaPower := by
  rw [chargeOfField_get symmetry axisLies le_rfl lie away within, ← weighs, ← weighs,
    Cubic.centralDifference_eq parabolic apart]

/-- In planar symmetry the slope is a line, and the origin is continued on it. -/
theorem chargeOfField_planar_origin
    (apart : h ≠ 0)
    (weighs : ∀ x, weighted.eval x = line x)
    (parabolic : weighted.cube = 0)
    (enough : leastPoints ≤ field.size)
    (axisLies : axis.LieOn field.size h id)
    (lie : field.LieOn field.size h line) :
    (chargeOfField .planar field axis h).get 1 = -weighted.descent.eval 0 := by
  have least : 5 ≤ field.size := enough
  have slope :
      ∀ steps, 1 ≤ steps → steps + 1 < field.size →
        (chargeOfField .planar field axis h).get (steps + 1) =
          -weighted.descent.eval (steps * h) := by
    intro steps away within
    have areaOne : ∀ x, weighted.eval x = line x * x ^ Symmetry.planar.areaPower := by
      intro x
      rw [weighs, Symmetry.areaPower, zpow_zero, mul_one]
    rw [chargeOfField_parabolic apart areaOne parabolic axisLies lie away within,
      Symmetry.areaPower, zpow_zero, div_one]
  have origin :
      (chargeOfField .planar field axis h).get 1 =
        3 * (chargeOfField .planar field axis h).get 2 -
            3 * (chargeOfField .planar field axis h).get 3 +
          (chargeOfField .planar field axis h).get 4 :=
    continueToOrigin_origin (by simp; omega)
  rw [origin, slope 1 le_rfl (by omega), slope 2 (by omega) (by omega),
    slope 3 (by omega) (by omega)]
  simp only [Cubic.eval, Cubic.descent]
  push_cast
  ring

/-- The potential of a parabolic field is minus its primitive. -/
theorem potentialOfField_parabolic
    (enough : 3 ≤ field.size)
    (parabolic : weighted.cube = 0)
    (lie : field.LieOn field.size h weighted.eval) :
    (potentialOfField field h).LieOn field.size h fun x => -weighted.primitive x :=
  (lie.runningIntegral enough parabolic).map (by simp) fun value => -value

end Rules

/-- The charge of a field on an axis: the derivative of field times area, over the area. -/
noncomputable def exactCharge
    (symmetry : Symmetry)
    (field : ℝ → ℝ)
    (place : ℝ) :
    ℝ :=
  deriv (fun s => field s * s ^ symmetry.areaPower) place / place ^ symmetry.areaPower

/-- The exact charge of a flux that is a parabola. -/
theorem exactCharge_eq
    {symmetry : Symmetry}
    {weighted : Cubic ℝ}
    {field : ℝ → ℝ}
    (weighs : ∀ x, weighted.eval x = field x * x ^ symmetry.areaPower)
    (parabolic : weighted.cube = 0)
    (place : ℝ) :
    exactCharge symmetry field place =
      -weighted.descent.eval place / place ^ symmetry.areaPower := by
  have flux : (fun s => field s * s ^ symmetry.areaPower) = weighted.eval :=
    (funext weighs).symm
  rw [exactCharge, flux, (weighted.hasDerivAt_eval parabolic place).deriv]

namespace Solver

variable
  {solver : Solver ℝ}
  {symmetry : Symmetry}
  {curve : Polynomial ℝ}
  {samples : Samples ℝ}

/-- A parabolic potential has its exact field at all samples but the last. -/
theorem field_of_parabola
    (low : curve.natDegree ≤ 2)
    (sized : samples.size = solver.settings.points)
    (lie : samples.LieOn samples.size solver.spacing curve.eval) :
    (fieldOfPotential samples solver.spacing).LieOn (samples.size - 1) solver.spacing
        (fun x => -deriv curve.eval x) ∧
      (fieldOfPotential samples solver.spacing).get samples.size = 0 := by
  have enough : leastPoints ≤ samples.size := sized ▸ solver.points_enough
  have parabolic := Cubic.ofPolynomial_cube low
  have same : curve.eval = (Cubic.ofPolynomial curve).eval :=
    funext fun x => (Cubic.eval_ofPolynomial (low.trans (by decide)) x).symm
  rw [same] at lie ⊢
  refine ⟨fun steps inside => ?_, fieldOfPotential_last (le_trans (by decide) enough)⟩
  have field := fieldOfPotential_lieOn solver.spacing_pos.ne' parabolic enough lie
  have slope := (Cubic.hasDerivAt_eval parabolic (steps * solver.spacing)).deriv
  exact (field steps inside).trans (neg_eq_iff_eq_neg.mpr slope).symm

/-- A field whose flux is a parabola has its exact charge at all inner samples. -/
theorem charge_of_parabolic_flux
    (low : (curve.natDegree : Int) + symmetry.areaPower ≤ 2)
    (sized : samples.size = solver.settings.points)
    (lie : samples.LieOn samples.size solver.spacing curve.eval) :
    let charge := chargeOfField symmetry samples solver.axis solver.spacing
    (∀ steps, 1 ≤ steps → steps + 1 < samples.size →
      charge.get (steps + 1) = exactCharge symmetry curve.eval (steps * solver.spacing)) ∧
    (symmetry = .planar → charge.get 1 = exactCharge symmetry curve.eval 0) ∧
    charge.get samples.size = 0 := by
  intro charge
  have enough : leastPoints ≤ samples.size := sized ▸ solver.points_enough
  have weighs := eval_densityTimesArea (low.trans (by decide))
  have parabolic := densityTimesArea_parabolic low
  have axisLies := sized.symm ▸ solver.axis_lieOn
  refine
    ⟨fun steps away inside => ?_, fun planar => ?_,
      chargeOfField_last (le_trans (by decide) enough)⟩
  · rw [exactCharge_eq weighs parabolic]
    exact chargeOfField_parabolic solver.spacing_pos.ne' weighs parabolic axisLies lie away inside
  · subst planar
    have unweighted (x : ℝ) : (densityTimesArea .planar curve).eval x = curve.eval x := by
      rw [weighs, Symmetry.areaPower, zpow_zero, mul_one]
    rw [exactCharge_eq weighs parabolic, Symmetry.areaPower, zpow_zero, div_one]
    exact chargeOfField_planar_origin solver.spacing_pos.ne' unweighted parabolic enough axisLies
      lie

/-- A parabolic field has its exact potential at every sample. -/
theorem potential_of_parabola
    (low : curve.natDegree ≤ 2)
    (sized : samples.size = solver.settings.points)
    (lie : samples.LieOn samples.size solver.spacing curve.eval) :
    (potentialOfField samples solver.spacing).LieOn samples.size solver.spacing
      (fun x => -∫ s in (0 : ℝ)..x, curve.eval s) := by
  have enough : leastPoints ≤ samples.size := sized ▸ solver.points_enough
  have same : curve.eval = (Cubic.ofPolynomial curve).eval :=
    funext fun x => (Cubic.eval_ofPolynomial (low.trans (by decide)) x).symm
  rw [same] at lie ⊢
  intro steps inside
  have potential :=
    potentialOfField_parabolic (le_trans (by decide) enough) (Cubic.ofPolynomial_cube low) lie
  have total := (Cubic.ofPolynomial curve).integral_eval (steps * solver.spacing)
  exact (potential steps inside).trans (congrArg Neg.neg total.symm)

/--
Slopes are exact on parabolas.  A polynomial potential of degree two at most has minus its
derivative for its field at all samples but the last, in every symmetry and at the origin
as well.  A polynomial field whose degree and the power of the area are two together at most
has the derivative of its flux over the area for its charge at all samples between the first
and the last, in planar symmetry at the first as well, and minus its integral from the origin
for its potential at every sample.  What is differentiated is zero at the last sample.
-/
theorem slopes_of_parabolas_are_exact
    {settings : Settings ℝ}
    {solver : Solver ℝ}
    (accepted : ofSettings settings = .ok solver)
    (symmetry : Symmetry)
    (curve : Polynomial ℝ)
    {samples : Samples ℝ}
    (sized : samples.size = settings.points)
    (sampled :
      ∀ index, 1 ≤ index → index ≤ settings.points →
        samples.get index = curve.eval (solver.place index))
    (within :
      ∀ index, 1 ≤ index → index ≤ settings.points →
        |samples.get index| ≤ settings.clamp) :
    (curve.natDegree ≤ 2 →
      ∃ solution,
        solver.transform symmetry .potential samples = .ok solution ∧
        (∀ index, 1 ≤ index → index < settings.points →
          solution.field.get index = -deriv curve.eval (solver.place index)) ∧
        solution.field.get settings.points = 0) ∧
    ((curve.natDegree : Int) + symmetry.areaPower ≤ 2 →
      ∃ solution,
        solver.transform symmetry .field samples = .ok solution ∧
        (∀ index, 2 ≤ index → index < settings.points →
          solution.charge.get index = exactCharge symmetry curve.eval (solver.place index)) ∧
        (symmetry = .planar →
          solution.charge.get 1 = exactCharge symmetry curve.eval (solver.place 1)) ∧
        solution.charge.get settings.points = 0 ∧
        ∀ index, 1 ≤ index → index ≤ settings.points →
          solution.potential.get index =
            -∫ s in (0 : ℝ)..solver.place index, curve.eval s) := by
  obtain rfl := ofSettings_eq_ok_iff.mp accepted
  rw [← sized] at within sampled ⊢
  have kept : solver.clamped samples = samples := clamped_eq_self within
  have lie : samples.LieOn samples.size solver.spacing curve.eval := by
    intro steps inside
    rw [sampled (steps + 1) (by omega) inside, place_succ]
  refine ⟨fun low => ?_, fun low => ?_⟩
  · obtain ⟨field, last⟩ := field_of_parabola low sized lie
    have transformed : solver.transform symmetry .potential samples = .ok _ :=
      transform_potential sized
    rw [kept] at transformed
    refine ⟨_, transformed, fun index first inner => ?_, last⟩
    obtain ⟨steps, rfl⟩ := Nat.exists_eq_add_of_le' first
    rw [place_succ]
    exact field steps (by omega)
  · have lowField : curve.natDegree ≤ 2 := by
      have area := symmetry.areaPower_nonneg
      omega
    obtain ⟨charge, origin, last⟩ := charge_of_parabolic_flux low sized lie
    have transformed : solver.transform symmetry .field samples = .ok _ := transform_field sized
    rw [kept] at transformed
    refine
      ⟨_, transformed, fun index away inner => ?_, fun planar => ?_, last,
        fun index first inside => ?_⟩
    · obtain ⟨steps, rfl⟩ := Nat.exists_eq_add_of_le' (Nat.le_of_succ_le away)
      rw [place_succ]
      exact charge steps (by omega) inner
    · rw [solver.place_succ 0, Nat.cast_zero, zero_mul]
      exact origin planar
    · obtain ⟨steps, rfl⟩ := Nat.exists_eq_add_of_le' first
      rw [place_succ]
      exact potential_of_parabola lowField sized lie steps inside

/-- Over five samples the parabola `x ^ 2` has the slope `2 * x` and the integral `x ^ 3 / 3`. -/
theorem slopes_of_a_parabola_over_five_samples :
    let settings : Settings ℝ := { extent := 4, points := 5, clamp := 1000 }
    let samples : Samples ℝ := .ofList [0, 1, 4, 9, 16]
    ∃ solver fromPotential fromField,
      ofSettings settings = .ok solver ∧
      solver.transform .planar .potential samples = .ok fromPotential ∧
      fromPotential.field.get 1 = 0 ∧
      fromPotential.field.get 4 = -6 ∧
      fromPotential.field.get 5 = 0 ∧
      solver.transform .planar .field samples = .ok fromField ∧
      fromField.charge.get 1 = 0 ∧
      fromField.charge.get 4 = 6 ∧
      fromField.charge.get 5 = 0 ∧
      fromField.potential.get 5 = -64 / 3 := by
  intro settings samples
  let solver : Solver ℝ :=
    { settings := settings
      points_enough := by decide
      extent_positive := ⟨rfl, by simp [settings]⟩
      clamp_positive := by simp [settings] }
  have accepted : ofSettings settings = .ok solver := ofSettings_eq_ok_iff.mpr rfl
  have spacing : solver.spacing = 1 := by
    norm_num [Solver.spacing, solver, settings]
  have place (steps : Nat) : solver.place (steps + 1) = steps := by
    rw [solver.place_succ, spacing, mul_one]
  let curve : Polynomial ℝ := Polynomial.X ^ 2
  have value (x : ℝ) : curve.eval x = x ^ 2 := by simp [curve]
  have parabola : curve.eval = fun x => x ^ 2 := funext value
  have slope (x : ℝ) : deriv curve.eval x = 2 * x := by simp [parabola]
  have lies :
      ∀ index, 1 ≤ index → index ≤ settings.points →
        samples.get index = curve.eval (solver.place index) ∧
          |samples.get index| ≤ settings.clamp := by
    intro index first last
    have last : index ≤ 5 := last
    rw [value]
    interval_cases index <;>
      norm_num [place, samples, settings, Samples.get, Samples.ofList]
  have degree : curve.natDegree = 2 := Polynomial.natDegree_X_pow 2
  obtain ⟨ofPotential, ofField⟩ :=
    slopes_of_parabolas_are_exact accepted .planar curve rfl
      (fun index first last => (lies index first last).1)
      (fun index first last => (lies index first last).2)
  obtain ⟨fromPotential, shown, field, fieldEnd⟩ := ofPotential degree.le
  obtain ⟨fromField, found, charge, origin, chargeEnd, potential⟩ :=
    ofField (by rw [degree]; decide)
  have planarCharge (x : ℝ) : exactCharge .planar curve.eval x = 2 * x := by
    simp only [exactCharge, Symmetry.areaPower, zpow_zero, mul_one, div_one, slope]
  have first := field 1 le_rfl (by decide)
  have fourth := field 4 (by decide) (by decide)
  have chargeFirst := origin rfl
  have chargeFourth := charge 4 (by decide) (by decide)
  have total := potential 5 (by decide) le_rfl
  rw [place 0] at first chargeFirst
  rw [place 3] at fourth chargeFourth
  rw [place 4, parabola, integral_pow] at total
  refine
    ⟨solver, fromPotential, fromField, accepted, shown, first.trans ?_, fourth.trans ?_, fieldEnd,
      found, chargeFirst.trans ?_, chargeFourth.trans ?_, chargeEnd, total.trans ?_⟩
  · simp [slope]
  · norm_num [slope]
  · simp [planarCharge]
  · norm_num [planarCharge]
  · norm_num

end Solver

end GaussLaw

end Electrostatics
