import Electrostatics.Proofs.GaussLaw.EnclosedCharge
import Electrostatics.Proofs.Samples.Reflection
import Mathlib.Data.Rat.Floor
import Mathlib.Tactic.IntervalCases

namespace Electrostatics.GaussLaw

/-!
# Symmetric slabs

A slab is centred, so that a charge that is mirrored about the midpoint has a field that
changes its sign there.  The computed field does so at the ends, and on an odd number of
samples at every odd one.  At the other samples the rules of the running integral are not
mirrored to themselves: there the field and its mirror image add up to forward differences
of the charge, and on an odd number of samples the field at the midpoint need not be zero.
-/

open scoped Exact

variable {K : Type} [Field K] [LinearOrder K] [FloorRing K]

/-- The fields at two samples of a slab, by the integrals up to them and by the whole. -/
theorem fieldOfCharge_planar_add
    [CharZero K]
    {charge axis : Samples K}
    {near far : Nat}
    (h : K)
    (across : near + far = charge.size + 1)
    (nearFirst : 1 ≤ near)
    (farFirst : 1 ≤ far) :
    (fieldOfCharge .planar charge axis h).get near +
        (fieldOfCharge .planar charge axis h).get far =
      charge.integralTo h near + charge.integralTo h far - charge.integralTo h charge.size := by
  rw [fieldOfCharge_planar_eq nearFirst (by omega), fieldOfCharge_planar_eq farFirst (by omega)]
  ring

namespace Solver

variable [IsStrictOrderedRing K]

/--
The field of a charge that is mirrored about the midpoint, at a sample and at its mirror
image.  Where both samples are odd, and at the ends, the field changes its sign.  Where both
are even, and where one is odd and the other even, the two add up to forward differences of
the charge, and so they do at the second sample, which has a rule of its own.
-/
theorem field_of_a_mirrored_slab
    {settings : Settings K}
    {solver : Solver K}
    (accepted : ofSettings settings = .ok solver)
    {charge : Samples K}
    (sized : charge.size = settings.points)
    (mirrored : charge.Mirrored)
    (within :
      ∀ index, 1 ≤ index → index ≤ settings.points →
        |charge.get index| ≤ settings.clamp) :
    ∃ solution,
      solver.transform .planar .charge charge = .ok solution ∧
      solution.field.get settings.points = -solution.field.get 1 ∧
      ∀ near far,
        near + far = settings.points + 1 →
        (near % 2 = 1 → far % 2 = 1 →
          solution.field.get near = -solution.field.get far) ∧
        (near % 2 = 0 → far % 2 = 0 → 4 ≤ near → 4 ≤ far →
          solution.field.get near + solution.field.get far =
            solver.spacing / 24 *
              (charge.forwardDifference 6 (near - 3) +
                charge.forwardDifference 4 (near - 2))) ∧
        (near % 2 = 1 → far % 2 = 0 → 4 ≤ far →
          solution.field.get near + solution.field.get far =
            solver.spacing / 24 *
              ∑ panel ∈ Finset.range (near / 2),
                charge.forwardDifference 5 (2 * panel + 1)) ∧
        (near = 2 → far % 2 = 0 →
          solution.field.get near + solution.field.get far =
            solver.spacing / 24 *
              (charge.forwardDifference 4 1 - charge.forwardDifference 3 1)) ∧
        (near = 2 → far % 2 = 1 →
          solution.field.get near + solution.field.get far =
            -(solver.spacing / 24 * charge.forwardDifference 3 1)) := by
  obtain rfl := ofSettings_eq_ok_iff.mp accepted
  have least : 5 ≤ solver.settings.points := solver.points_enough
  rw [← sized] at within least ⊢
  obtain ⟨solution, transformed, field⟩ :
      ∃ solution,
        solver.transform .planar .charge charge = .ok solution ∧
        solution.field = fieldOfCharge .planar charge solver.axis solver.spacing :=
    ⟨_, transform_charge sized,
      congrArg (fieldOfCharge .planar · solver.axis solver.spacing) (clamped_eq_self within)⟩
  have added
      {near far : Nat}
      (across : near + far = charge.size + 1)
      (nearFirst : 1 ≤ near)
      (farFirst : 1 ≤ far) :
      solution.field.get near + solution.field.get far =
        charge.integralTo solver.spacing near + charge.integralTo solver.spacing far -
          charge.integralTo solver.spacing charge.size := by
    rw [field]
    exact fieldOfCharge_planar_add solver.spacing across nearFirst farFirst
  refine ⟨solution, transformed, ?_, fun near far across => ⟨?_, ?_, ?_, ?_, ?_⟩⟩
  · have ends := added (Nat.add_comm 1 charge.size) le_rfl (by omega)
    rw [Samples.integralTo_first, zero_add, sub_self] at ends
    exact (neg_eq_of_add_eq_zero_right ends).symm
  · intro nearOdd farOdd
    obtain ⟨before, rfl⟩ : ∃ before, near = 2 * before + 1 := ⟨near / 2, by omega⟩
    obtain ⟨behind, rfl⟩ : ∃ behind, far = 2 * behind + 1 := ⟨far / 2, by omega⟩
    rw [eq_neg_iff_add_eq_zero, added across (by omega) (by omega),
      mirrored.integralTo_odd_odd _ (by omega), sub_self]
  · intro nearEven farEven nearInner farInner
    obtain ⟨before, rfl⟩ : ∃ before, near = 2 * before + 4 := ⟨near / 2 - 2, by omega⟩
    obtain ⟨behind, rfl⟩ : ∃ behind, far = 2 * behind + 4 := ⟨far / 2 - 2, by omega⟩
    rw [added across (by omega) (by omega), mirrored.integralTo_even_even _ (by omega),
      add_sub_cancel_left]
    rfl
  · intro nearOdd farEven farInner
    obtain ⟨before, rfl⟩ : ∃ before, near = 2 * before + 1 := ⟨near / 2, by omega⟩
    obtain ⟨behind, rfl⟩ : ∃ behind, far = 2 * behind + 4 := ⟨far / 2 - 2, by omega⟩
    have half : (2 * before + 1) / 2 = before := by omega
    rw [added across (by omega) (by omega), mirrored.integralTo_odd_even _ (by omega),
      add_sub_cancel_left, half]
  · rintro rfl farEven
    obtain ⟨behind, rfl⟩ : ∃ behind, far = 2 * behind + 4 := ⟨far / 2 - 2, by omega⟩
    rw [added across (by omega) (by omega), mirrored.integralTo_second_even _ (by omega),
      add_sub_cancel_left]
  · rintro rfl farOdd
    obtain ⟨behind, rfl⟩ : ∃ behind, far = 2 * behind + 3 := ⟨far / 2 - 1, by omega⟩
    rw [added across (by omega) (by omega), mirrored.integralTo_second_odd _ (by omega)]
    ring

/-- Two sheets of charge at the ends of seven samples, mirrored about the fourth. -/
def twoSheets : Samples ℚ :=
  .ofList [24, 0, 0, 0, 0, 0, 24]

theorem twoSheets_mirrored : twoSheets.Mirrored := by
  intro index first last
  have last : index ≤ 7 := last
  interval_cases index <;> rfl

theorem twoSheets_within :
    ∀ index, 1 ≤ index → index ≤ 7 → |twoSheets.get index| ≤ 1000 := by
  intro index first last
  interval_cases index <;> decide +kernel

/-- The field of the two sheets, where it changes its sign and where it does not. -/
theorem field_of_two_sheets_over_seven_samples :
    let settings : Settings ℚ := { extent := 6, points := 7, clamp := 1000 }
    ∃ solver solution,
      ofSettings settings = .ok solver ∧
      solver.transform .planar .charge twoSheets = .ok solution ∧
      solution.field.get 7 = -solution.field.get 1 ∧
      solution.field.get 3 = -solution.field.get 5 ∧
      solution.field.get 4 + solution.field.get 4 = 2 ∧
      solution.field.get 2 + solution.field.get 6 = 2 := by
  intro settings
  let solver : Solver ℚ :=
    { settings := settings
      points_enough := by decide
      extent_positive := by decide
      clamp_positive := by decide }
  have accepted : ofSettings settings = .ok solver := ofSettings_eq_ok_iff.mpr rfl
  obtain ⟨solution, transformed, ends, inner⟩ :=
    field_of_a_mirrored_slab accepted rfl twoSheets_mirrored twoSheets_within
  have odd := (inner 3 5 rfl).1 rfl rfl
  have middle := (inner 4 4 rfl).2.1 rfl rfl le_rfl le_rfl
  have second := (inner 2 6 rfl).2.2.2.1 rfl rfl
  refine ⟨solver, solution, accepted, transformed, ends, odd, middle.trans ?_, second.trans ?_⟩
  · decide +kernel
  · decide +kernel

/--
The field of a mirrored slab need not change its sign: the two sheets leave a field at the
midpoint, which is its own mirror image.
-/
theorem mirrored_slab_has_a_field_at_its_midpoint :
    let settings : Settings ℚ := { extent := 6, points := 7, clamp := 1000 }
    ∃ solver solution,
      ofSettings settings = .ok solver ∧
      twoSheets.size = settings.points ∧
      twoSheets.Mirrored ∧
      (∀ index, 1 ≤ index → index ≤ settings.points →
        |twoSheets.get index| ≤ settings.clamp) ∧
      solver.transform .planar .charge twoSheets = .ok solution ∧
      solution.field.get 4 = 1 ∧
      solution.field.get 4 ≠ -solution.field.get (settings.points + 1 - 4) := by
  intro settings
  let solver : Solver ℚ :=
    { settings := settings
      points_enough := by decide
      extent_positive := by decide
      clamp_positive := by decide }
  have middle :
      (fieldOfCharge .planar (solver.clamped twoSheets) solver.axis solver.spacing).get 4 = 1 := by
    decide +kernel
  have sign : (1 : ℚ) ≠ -1 := by decide
  exact
    ⟨solver, _, ofSettings_eq_ok_iff.mpr rfl, rfl, twoSheets_mirrored, twoSheets_within,
      transform_charge rfl, middle,
      fun same => sign (middle.symm.trans (same.trans (congrArg Neg.neg middle)))⟩

end Solver

end Electrostatics.GaussLaw
