import Electrostatics.Proofs.GaussLaw.Solver
import Electrostatics.Proofs.Samples.Polynomials

namespace Electrostatics.GaussLaw

/-!
# Transforms of parabolas

In exact arithmetic the steps of a transform are exact on parabolas: the continuation at
the origin, the slope of a potential at all samples but the last, and the slope of the flux
over the area wherever both neighbours carry the field.  Around a point the flux of a
linear field is a cubic, whose central difference is too large by a known part.
-/

open scoped Exact

/-- The number of dimensions that a field spreads into. -/
def Symmetry.dimension : Symmetry → Nat
  | .spherical => 3
  | .cylindrical => 2
  | .planar => 1

/--
The factor by which the difference of the flux of a linear field is too large.  The flux
is a parabola at most, except around a point, where it is a cubic.
-/
def fluxExcess {K : Type} [Field K] (symmetry : Symmetry) (steps : Nat) : K :=
  match symmetry with
  | .spherical => 1 + 1 / (3 * steps ^ 2 : Nat)
  | .cylindrical => 1
  | .planar => 1

variable {K : Type} [Field K] [LinearOrder K] [FloorRing K]

variable
  {samples axis field potential : Samples K}
  {curve : Cubic K}
  {line : K → K}
  {h : K}
  {count steps : Nat}

namespace Solver

theorem place_succ
    (solver : Solver K)
    (steps : Nat) :
    solver.place (steps + 1) = steps * solver.spacing := by
  rw [place, Nat.add_sub_cancel]

theorem axis_lieOn (solver : Solver K) :
    solver.axis.LieOn solver.settings.points solver.spacing id := by
  intro steps inside
  rw [Solver.axis, Samples.get_ofFn _ (by omega) (by omega), place_succ]
  rfl

variable [IsStrictOrderedRing K]

theorem spacing_pos (solver : Solver K) : 0 < solver.spacing := by
  have least : 5 ≤ solver.settings.points := solver.points_enough
  have extent : 0 < solver.settings.extent := by
    simpa using solver.extent_positive.2
  have intervals : (0 : K) < ((solver.settings.points - 1 : Nat) : K) :=
    Nat.cast_pos.mpr (by omega)
  exact div_pos extent intervals

/-- Samples within the bound are taken as they are. -/
theorem clamped_eq_self
    {solver : Solver K}
    (within :
      ∀ index, 1 ≤ index → index ≤ samples.size →
        |samples.get index| ≤ solver.settings.clamp) :
    solver.clamped samples = samples :=
  Samples.map_eq_self fun index first last => Exact.clamp_eq_self (within index first last)

/-- The first samples stay on their curve where they are within the bound. -/
theorem clamped_lieOn
    {solver : Solver K}
    (inside : count ≤ samples.size)
    (within :
      ∀ index, 1 ≤ index → index ≤ count →
        |samples.get index| ≤ solver.settings.clamp)
    (lie : samples.LieOn count h line) :
    (solver.clamped samples).LieOn count h line := by
  intro steps below
  rw [get_clamped (by omega) (by omega),
    Exact.clamp_eq_self (within (steps + 1) (by omega) below)]
  exact lie steps below

end Solver

/-! ## The origin -/

/-- The continuation at the origin reads samples that it leaves as they are. -/
theorem continueToOrigin_origin (inhabited : 1 ≤ samples.size) :
    (continueToOrigin samples).get 1 =
      3 * (continueToOrigin samples).get 2 - 3 * (continueToOrigin samples).get 3 +
        (continueToOrigin samples).get 4 := by
  rw [get_continueToOrigin_of_ne samples (by decide : 2 ≠ 1),
    get_continueToOrigin_of_ne samples (by decide : 3 ≠ 1),
    get_continueToOrigin_of_ne samples (by decide : 4 ≠ 1)]
  exact get_continueToOrigin inhabited

/-- A parabola is continued as itself. -/
theorem continueToOrigin_lieOn
    (parabolic : curve.cube = 0)
    (reach : 4 ≤ count)
    (inhabited : 1 ≤ samples.size)
    (away :
      ∀ steps, 1 ≤ steps → steps < count →
        (continueToOrigin samples).get (steps + 1) = curve.eval (steps * h)) :
    (continueToOrigin samples).LieOn count h curve.eval := by
  intro steps within
  cases steps with
  | zero =>
      have second := away 1 (by omega) (by omega)
      have third := away 2 (by omega) (by omega)
      have fourth := away 3 (by omega) (by omega)
      rw [Nat.zero_add, continueToOrigin_origin inhabited, second, third, fourth]
      simp only [Cubic.eval, parabolic]
      push_cast
      ring
  | succ steps => exact away (steps + 1) (by omega) within

/-! ## The area -/

/-- Samples times the area lie on the curve times the power of the place. -/
theorem timesArea_lieOn
    (axisLies : axis.LieOn samples.size h id)
    (inside : count ≤ samples.size)
    (lie : samples.LieOn count h line)
    (power : Int) :
    (timesArea power axis samples).LieOn count h (fun x => line x * x ^ power) := by
  intro steps within
  have place : axis.get (steps + 1) = steps * h := axisLies steps (by omega)
  rw [timesArea, Samples.get_ofFn _ (by omega) (by omega), lie steps within, place,
    Exact.powerInt_eq]

/-- Away from the origin a value over the area is the quotient by the power of the place. -/
theorem overArea_get
    {size : Nat}
    (axisLies : axis.LieOn size h id)
    (power : Int)
    (value : Nat → K)
    (away : 1 ≤ steps)
    (inside : steps < size) :
    (overArea power axis size value).get (steps + 1) =
      value (steps + 1) / (steps * h) ^ power := by
  have notOrigin : steps + 1 ≠ 1 := by omega
  have place : axis.get (steps + 1) = steps * h := axisLies steps inside
  rw [overArea, get_continueToOrigin_of_ne _ notOrigin,
    Samples.get_ofFn _ (by omega) (by omega), if_neg notOrigin, place, Exact.powerInt_eq]

/-! ## The field of a potential -/

theorem fieldOfPotential_get
    (away : 1 ≤ steps)
    (inside : steps + 2 ≤ potential.size) :
    (fieldOfPotential potential h).get (steps + 1) =
      -((potential.get (steps + 2) - potential.get steps) / (2 * h)) := by
  rw [fieldOfPotential, get_continueToOrigin_of_ne _ (by omega),
    Samples.get_ofFn _ (by omega) (by omega)]
  exact congrArg Neg.neg (Samples.difference_interior h (Nat.succ_le_succ away) inside)

/-- The field of a parabolic potential is its descent, at all samples but the last. -/
theorem fieldOfPotential_lieOn
    (apart : h ≠ 0)
    (parabolic : curve.cube = 0)
    (enough : leastPoints ≤ potential.size)
    (lie : potential.LieOn potential.size h curve.eval) :
    (fieldOfPotential potential h).LieOn (potential.size - 1) h curve.descent.eval := by
  have least : 5 ≤ potential.size := enough
  refine continueToOrigin_lieOn rfl (by omega) (by simp; omega) fun steps away within => ?_
  have slope := fieldOfPotential_get (h := h) away (by omega : steps + 2 ≤ potential.size)
  rw [lie.get_before away (by omega), lie.get_behind (by omega),
    Cubic.centralDifference_eq parabolic apart, neg_neg] at slope
  exact slope

/-! ## The charge of a field -/

theorem chargeOfField_get
    (symmetry : Symmetry)
    (axisLies : axis.LieOn field.size h id)
    (inside : count ≤ field.size)
    (lie : field.LieOn count h line)
    (away : 1 ≤ steps)
    (within : steps + 1 < count) :
    (chargeOfField symmetry field axis h).get (steps + 1) =
      (line (steps * h + h) * (steps * h + h) ^ symmetry.areaPower -
            line (steps * h - h) * (steps * h - h) ^ symmetry.areaPower) /
          (2 * h) /
        (steps * h) ^ symmetry.areaPower := by
  have flux := timesArea_lieOn axisLies inside lie symmetry.areaPower
  have sized : (timesArea symmetry.areaPower axis field).size = field.size := by
    simp [timesArea]
  have rule :
      (timesArea symmetry.areaPower axis field).difference (steps + 1) h =
        ((timesArea symmetry.areaPower axis field).get (steps + 2) -
            (timesArea symmetry.areaPower axis field).get steps) /
          (2 * h) :=
    Samples.difference_interior h (Nat.succ_le_succ away) (by omega)
  rw [chargeOfField, overArea_get axisLies _ _ away (by omega), rule,
    flux.get_before away (by omega), flux.get_behind within]

/--
The charge of a linear field, wherever both neighbours carry it: the slope, once for every
dimension that the field spreads into.  Away from planar symmetry the field is zero at the
origin.
-/
theorem chargeOfField_linear
    {symmetry : Symmetry}
    (apart : h ≠ 0)
    (linear : curve.square = 0 ∧ curve.cube = 0)
    (centred : symmetry = .planar ∨ curve.constant = 0)
    (axisLies : axis.LieOn field.size h id)
    (inside : count ≤ field.size)
    (lie : field.LieOn count h curve.eval)
    (away : 1 ≤ steps)
    (within : steps + 1 < count) :
    (chargeOfField symmetry field axis h).get (steps + 1) =
      symmetry.dimension * curve.linear * fluxExcess symmetry steps := by
  have notOrigin : (steps : K) ≠ 0 := Nat.cast_ne_zero.mpr (by omega)
  rw [chargeOfField_get symmetry axisLies inside lie away within]
  cases symmetry with
  | planar =>
      simp only [Symmetry.areaPower, Symmetry.dimension, fluxExcess, Cubic.eval, linear, zpow_zero]
      push_cast
      field_simp
      ring
  | cylindrical =>
      have zero := centred.resolve_left (by decide)
      simp only [Symmetry.areaPower, Symmetry.dimension, fluxExcess, Cubic.eval, linear, zero,
        zpow_one]
      push_cast
      field_simp
      ring
  | spherical =>
      have zero := centred.resolve_left (by decide)
      simp only [Symmetry.areaPower, Symmetry.dimension, fluxExcess, Cubic.eval, linear, zero,
        zpow_ofNat]
      push_cast
      field_simp
      ring

namespace Solver

variable [IsStrictOrderedRing K]

/--
The charge of a parabolic potential is that of its descent at all samples but the first and
the last two.  The first sample is continued from the next three.
-/
theorem charge_of_parabola
    {solver : Solver K}
    {symmetry : Symmetry}
    (parabolic : curve.cube = 0)
    (centred : symmetry = .planar ∨ curve.linear = 0)
    (sized : potential.size = solver.settings.points)
    (within :
      ∀ index, 1 ≤ index → index ≤ solver.settings.points →
        |potential.get index| ≤ solver.settings.clamp)
    (lie : potential.LieOn solver.settings.points solver.spacing curve.eval) :
    ∃ solution,
      solver.transform symmetry .potential potential = .ok solution ∧
      (∀ steps, 1 ≤ steps → steps + 3 ≤ solver.settings.points →
        solution.charge.get (steps + 1) =
          symmetry.dimension * -(2 * curve.square) * fluxExcess symmetry steps) ∧
      solution.charge.get 1 =
        3 * solution.charge.get 2 - 3 * solution.charge.get 3 + solution.charge.get 4 := by
  have least : 5 ≤ solver.settings.points := solver.points_enough
  have inputSize : (solver.clamped potential).size = solver.settings.points :=
    (solver.size_clamped potential).trans sized
  have fieldSize :
      (fieldOfPotential (solver.clamped potential) solver.spacing).size =
        solver.settings.points :=
    (size_fieldOfPotential _ _).trans inputSize
  have input := clamped_lieOn sized.ge within lie
  have field := fieldOfPotential_lieOn solver.spacing_pos.ne' parabolic
    (inputSize ▸ solver.points_enough) (inputSize.symm ▸ input)
  refine ⟨_, transform_potential sized, fun steps away inside => ?_, ?_⟩
  · rw [← curve.descent_linear]
    refine chargeOfField_linear solver.spacing_pos.ne' ⟨rfl, rfl⟩ ?_
      (fieldSize ▸ solver.axis_lieOn) ?_ field away ?_
    · simpa only [Cubic.descent, neg_eq_zero] using centred
    · omega
    · omega
  · exact continueToOrigin_origin (by simp; omega)

end Solver

end Electrostatics.GaussLaw
