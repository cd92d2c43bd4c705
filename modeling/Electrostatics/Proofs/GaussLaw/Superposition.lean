import Electrostatics.Proofs.GaussLaw.Solver
import Electrostatics.Proofs.Samples.Superposition
import Mathlib.Data.Rat.Floor
import Mathlib.Tactic.IntervalCases

namespace Electrostatics

/-!
# Superposition

In exact arithmetic every step of a transform is linear in the samples, and homogeneous in
the places of the axis.  So from a charge, a potential or a field that is put together of
two others come the three curves that are put together, in the same proportion, of theirs.
-/

open scoped Exact
open GaussLaw

variable {K : Type} [Field K] [LinearOrder K] [FloorRing K]

namespace Samples.Combines

variable
  {a b : K}
  {one other whole near far : Samples K}

theorem continueToOrigin (combines : Combines a b one other whole) :
    Combines a b (GaussLaw.continueToOrigin one) (GaussLaw.continueToOrigin other)
      (GaussLaw.continueToOrigin whole) := by
  refine combines.set Nat.le.refl ?_
  simp only [combines.get, Exact.numeral_ofNat]
  ring

/-! The axis `far` has the places of `near` at `scale` times their distance. -/

variable {scale : K}

theorem timesArea
    (combines : Combines a b one other whole)
    (stretched : ∀ index, far.get index = scale * near.get index)
    (power : Int) :
    Combines (scale ^ power * a) (scale ^ power * b)
      (GaussLaw.timesArea power near one)
      (GaussLaw.timesArea power near other)
      (GaussLaw.timesArea power far whole) := by
  rw [GaussLaw.timesArea, GaussLaw.timesArea, GaussLaw.timesArea, combines.oneSize,
    combines.otherSize]
  refine ofFn fun index => ?_
  simp only [combines.get, stretched, Exact.powerInt_eq, mul_zpow]
  ring

theorem overArea
    {left right total : Nat → K}
    (same : ∀ index, total index = a * left index + b * right index)
    (stretched : ∀ index, far.get index = scale * near.get index)
    (power : Int)
    (size : Nat) :
    Combines (a / scale ^ power) (b / scale ^ power)
      (GaussLaw.overArea power near size left)
      (GaussLaw.overArea power near size right)
      (GaussLaw.overArea power far size total) := by
  refine continueToOrigin (ofFn fun index => ?_)
  simp only [same, stretched, Exact.powerInt_eq, mul_zpow, Exact.numeral_zero]
  split <;> ring

/-- The powers of the area cancel: what is left is the factor of the integral. -/
theorem fieldOfCharge
    (combines : Combines a b one other whole)
    (apart : scale ≠ 0)
    (stretched : ∀ index, far.get index = scale * near.get index)
    (symmetry : Symmetry)
    (h : K) :
    Combines (scale * a) (scale * b)
      (GaussLaw.fieldOfCharge symmetry one near h)
      (GaussLaw.fieldOfCharge symmetry other near h)
      (GaussLaw.fieldOfCharge symmetry whole far (scale * h)) := by
  by_cases planar : symmetry = .planar
  · subst planar
    have enclosed := combines.runningIntegral scale h
    refine enclosed.map fun x y => ?_
    rw [enclosed.get, size_runningIntegral, size_runningIntegral, size_runningIntegral,
      combines.oneSize, combines.otherSize, Exact.numeral_ofNat]
    ring
  · have enclosed := (combines.timesArea stretched symmetry.areaPower).runningIntegral scale h
    have field := overArea enclosed.get stretched symmetry.areaPower whole.size
    have area : scale ^ symmetry.areaPower ≠ 0 := zpow_ne_zero _ apart
    have proportion (part : K) :
        scale * (scale ^ symmetry.areaPower * part) / scale ^ symmetry.areaPower =
          scale * part := by
      field_simp
    rw [fieldOfCharge_of_curved planar, fieldOfCharge_of_curved planar,
      fieldOfCharge_of_curved planar, combines.oneSize, combines.otherSize]
    exact field.congr (proportion a) (proportion b)

theorem potentialOfField
    (combines : Combines a b one other whole)
    (scale h : K) :
    Combines (scale * a) (scale * b)
      (GaussLaw.potentialOfField one h)
      (GaussLaw.potentialOfField other h)
      (GaussLaw.potentialOfField whole (scale * h)) :=
  (combines.runningIntegral scale h).map fun x y => by ring

theorem fieldOfPotential
    (combines : Combines a b one other whole)
    (scale h : K) :
    Combines (a / scale) (b / scale)
      (GaussLaw.fieldOfPotential one h)
      (GaussLaw.fieldOfPotential other h)
      (GaussLaw.fieldOfPotential whole (scale * h)) := by
  rw [GaussLaw.fieldOfPotential, GaussLaw.fieldOfPotential, GaussLaw.fieldOfPotential,
    combines.oneSize, combines.otherSize]
  refine continueToOrigin (ofFn fun index => ?_)
  rw [combines.difference_eq]
  ring

/-- The powers of the area cancel: what is left is the factor of the slope. -/
theorem chargeOfField
    (combines : Combines a b one other whole)
    (apart : scale ≠ 0)
    (stretched : ∀ index, far.get index = scale * near.get index)
    (symmetry : Symmetry)
    (h : K) :
    Combines (a / scale) (b / scale)
      (GaussLaw.chargeOfField symmetry one near h)
      (GaussLaw.chargeOfField symmetry other near h)
      (GaussLaw.chargeOfField symmetry whole far (scale * h)) := by
  have flux := combines.timesArea stretched symmetry.areaPower
  have charge :=
    overArea (flux.difference_eq scale h) stretched symmetry.areaPower whole.size
  have area : scale ^ symmetry.areaPower ≠ 0 := zpow_ne_zero _ apart
  have proportion (part : K) :
      scale ^ symmetry.areaPower * part / scale / scale ^ symmetry.areaPower =
        part / scale := by
    field_simp
  rw [GaussLaw.chargeOfField, GaussLaw.chargeOfField, GaussLaw.chargeOfField, combines.oneSize,
    combines.otherSize]
  exact charge.congr (proportion a) (proportion b)

end Samples.Combines

namespace GaussLaw.Solver

variable [IsStrictOrderedRing K]

/-- Samples within the bound are put together as they are. -/
theorem clamped_combines
    {solver : Solver K}
    {a b : K}
    {first second both : Samples K}
    (firstSized : first.size = both.size)
    (secondSized : second.size = both.size)
    (within :
      ∀ index, 1 ≤ index → index ≤ both.size →
        |first.get index| ≤ solver.settings.clamp ∧
          |second.get index| ≤ solver.settings.clamp ∧
          |both.get index| ≤ solver.settings.clamp)
    (combined :
      ∀ index, 1 ≤ index → index ≤ both.size →
        both.get index = a * first.get index + b * second.get index) :
    Samples.Combines a b (solver.clamped first) (solver.clamped second) (solver.clamped both) := by
  refine .ofInside (by simpa using firstSized) (by simpa using secondSized)
    fun index positive last => ?_
  have inside : index ≤ both.size := by simpa using last
  obtain ⟨firstWithin, secondWithin, bothWithin⟩ := within index positive inside
  rw [get_clamped positive inside, get_clamped positive (firstSized ▸ inside),
    get_clamped positive (secondSized ▸ inside), Exact.clamp_eq_self firstWithin,
    Exact.clamp_eq_self secondWithin, Exact.clamp_eq_self bothWithin,
    combined index positive inside]

/--
Superposition, for every accepted solver, every symmetry and whichever quantity is known:
samples within the bound that are put together of two runs have the charge, the potential
and the field that are put together of theirs.
-/
theorem transforms_superpose
    {settings : Settings K}
    {solver : Solver K}
    (accepted : ofSettings settings = .ok solver)
    (symmetry : Symmetry)
    {known : Quantity}
    (derives : known ≠ .comparison)
    {a b : K}
    {first second both : Samples K}
    (firstSized : first.size = settings.points)
    (secondSized : second.size = settings.points)
    (bothSized : both.size = settings.points)
    (within :
      ∀ index, 1 ≤ index → index ≤ settings.points →
        |first.get index| ≤ settings.clamp ∧
          |second.get index| ≤ settings.clamp ∧
          |both.get index| ≤ settings.clamp)
    (combined :
      ∀ index, 1 ≤ index → index ≤ settings.points →
        both.get index = a * first.get index + b * second.get index) :
    ∃ one other whole,
      solver.transform symmetry known first = .ok one ∧
      solver.transform symmetry known second = .ok other ∧
      solver.transform symmetry known both = .ok whole ∧
      ∀ index,
        whole.charge.get index = a * one.charge.get index + b * other.charge.get index ∧
        whole.potential.get index =
          a * one.potential.get index + b * other.potential.get index ∧
        whole.field.get index = a * one.field.get index + b * other.field.get index := by
  obtain rfl := ofSettings_eq_ok_iff.mp accepted
  have inputs : Samples.Combines a b (solver.clamped first) (solver.clamped second)
      (solver.clamped both) :=
    clamped_combines (firstSized.trans bothSized.symm) (secondSized.trans bothSized.symm)
      (bothSized ▸ within) (bothSized ▸ combined)
  have stretched (index : Nat) : solver.axis.get index = 1 * solver.axis.get index :=
    (one_mul _).symm
  cases known with
  | comparison => exact (derives rfl).elim
  | charge =>
      have fields := inputs.fieldOfCharge one_ne_zero stretched symmetry solver.spacing
      have potentials := fields.potentialOfField 1 solver.spacing
      simp only [one_mul] at fields potentials
      exact ⟨_, _, _, transform_charge firstSized, transform_charge secondSized,
        transform_charge bothSized,
        fun index => ⟨inputs.get index, potentials.get index, fields.get index⟩⟩
  | potential =>
      have fields := inputs.fieldOfPotential 1 solver.spacing
      have charges := fields.chargeOfField one_ne_zero stretched symmetry solver.spacing
      simp only [one_mul, div_one] at fields charges
      exact ⟨_, _, _, transform_potential firstSized, transform_potential secondSized,
        transform_potential bothSized,
        fun index => ⟨charges.get index, inputs.get index, fields.get index⟩⟩
  | field =>
      have charges := inputs.chargeOfField one_ne_zero stretched symmetry solver.spacing
      have potentials := inputs.potentialOfField 1 solver.spacing
      simp only [one_mul, div_one] at charges potentials
      exact ⟨_, _, _, transform_field firstSized, transform_field secondSized,
        transform_field bothSized,
        fun index => ⟨charges.get index, potentials.get index, inputs.get index⟩⟩

/--
Twice one potential less three times another over five samples, around an axis: so are the
charges at the origin, which is continued from the samples behind it.
-/
theorem transforms_superpose_at_the_origin :
    let settings : Settings ℚ := { extent := 4, points := 5, clamp := 1000 }
    let first : Samples ℚ := .ofList [0, 1, 4, 9, 16]
    let second : Samples ℚ := .ofList [1, 0, 2, 0, 3]
    let both : Samples ℚ := .ofList [-3, 2, 2, 18, 23]
    ∃ solver one other whole,
      ofSettings settings = .ok solver ∧
      solver.transform .cylindrical .potential first = .ok one ∧
      solver.transform .cylindrical .potential second = .ok other ∧
      solver.transform .cylindrical .potential both = .ok whole ∧
      whole.charge.get 1 = 2 * one.charge.get 1 + -3 * other.charge.get 1 := by
  intro settings first second both
  let solver : Solver ℚ :=
    { settings := settings
      points_enough := by decide
      extent_positive := by decide
      clamp_positive := by decide }
  have accepted : ofSettings settings = .ok solver := ofSettings_eq_ok_iff.mpr rfl
  have samples :
      ∀ index, 1 ≤ index → index ≤ settings.points →
        (|first.get index| ≤ settings.clamp ∧
            |second.get index| ≤ settings.clamp ∧
            |both.get index| ≤ settings.clamp) ∧
          both.get index = 2 * first.get index + -3 * second.get index := by
    intro index positive last
    have last : index ≤ 5 := last
    interval_cases index <;> decide +kernel
  have derives : Quantity.potential ≠ .comparison := by decide
  obtain ⟨one, other, whole, oneTransformed, otherTransformed, wholeTransformed, superposed⟩ :=
    transforms_superpose accepted .cylindrical derives rfl rfl rfl
      (fun index positive last => (samples index positive last).1)
      (fun index positive last => (samples index positive last).2)
  exact ⟨solver, one, other, whole, accepted, oneTransformed, otherTransformed,
    wholeTransformed, (superposed 1).1⟩

end GaussLaw.Solver

end Electrostatics
