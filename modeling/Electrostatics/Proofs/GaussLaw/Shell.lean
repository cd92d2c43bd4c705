import Electrostatics.Number.Double
import Electrostatics.Proofs.GaussLaw.Solver
import Electrostatics.Proofs.Samples.Agreement

namespace Electrostatics

/-!
# The shell theorem

Around a point or an axis, charge that lies further out has no effect further in.  This
holds of the samples as they are computed: each step from a charge to its field and its
potential, up to an index, looks at the samples up to that index.  The origin looks at the
fourth sample, so the charges have to agree that far at least.
-/

open GaussLaw

variable {α : Type} [Scalar α]

namespace Samples.AgreeTo

variable
  {left right : Samples α}
  {count : Nat}

theorem continueToOrigin
    (agree : AgreeTo count left right)
    (reach : 4 ≤ count) :
    AgreeTo count (GaussLaw.continueToOrigin left) (GaussLaw.continueToOrigin right) where
  size := by simpa using agree.size
  inside := by simpa using agree.inside
  get index first last := by
    have inside := agree.inside
    have size := agree.size
    by_cases origin : index = 1
    · subst origin
      rw [get_continueToOrigin (by omega), get_continueToOrigin (by omega),
        agree.get 2 (by omega) (by omega), agree.get 3 (by omega) (by omega),
        agree.get 4 (by omega) reach]
    · rw [get_continueToOrigin_of_ne left origin, get_continueToOrigin_of_ne right origin,
        agree.get index first last]

theorem timesArea
    (agree : AgreeTo count left right)
    (power : Int)
    (axis : Samples α) :
    AgreeTo count
      (GaussLaw.timesArea power axis left)
      (GaussLaw.timesArea power axis right) := by
  have weighted := ofFn (α := α) agree.inside fun index first last =>
    congrArg (· * Scalar.powerInt (axis.get index) power) (agree.get index first last)
  rw [GaussLaw.timesArea, GaussLaw.timesArea, ← agree.size]
  exact weighted

theorem overArea
    (agree : AgreeTo count left right)
    (reach : 4 ≤ count)
    (power : Int)
    (axis : Samples α) :
    AgreeTo count
      (GaussLaw.overArea power axis left.size left.get)
      (GaussLaw.overArea power axis right.size right.get) := by
  rw [← agree.size]
  refine continueToOrigin (ofFn agree.inside fun index first last => ?_) reach
  rw [agree.get index first last]

/-- Away from planar symmetry a field depends on the charge further in only. -/
theorem fieldOfCharge
    {symmetry : Symmetry}
    (agree : AgreeTo count left right)
    (curved : symmetry ≠ .planar)
    (reach : 4 ≤ count)
    (axis : Samples α)
    (h : α) :
    AgreeTo count
      (GaussLaw.fieldOfCharge symmetry left axis h)
      (GaussLaw.fieldOfCharge symmetry right axis h) := by
  have weighted := agree.timesArea symmetry.areaPower axis
  have enclosed := weighted.runningIntegral (by omega) h
  have field := enclosed.overArea reach symmetry.areaPower axis
  have sizes (samples : Samples α) :
      ((GaussLaw.timesArea symmetry.areaPower axis samples).runningIntegral h).size =
        samples.size := by
    simp
  rw [sizes, sizes] at field
  rw [fieldOfCharge_of_curved curved, fieldOfCharge_of_curved curved]
  exact field

theorem potentialOfField
    (agree : AgreeTo count left right)
    (reach : 3 ≤ count)
    (h : α) :
    AgreeTo count (GaussLaw.potentialOfField left h) (GaussLaw.potentialOfField right h) :=
  (agree.runningIntegral reach h).map _

end Samples.AgreeTo

namespace GaussLaw.Solver

/--
The shell theorem, for every accepted solver and every number type: two charges that agree
on the first four samples or more have fields and potentials that agree as far.
-/
theorem charge_further_out_has_no_effect
    {settings : Settings α}
    {solver : Solver α}
    (accepted : ofSettings settings = .ok solver)
    {symmetry : Symmetry}
    (curved : symmetry ≠ .planar)
    {count : Nat}
    (reach : 4 ≤ count)
    (inside : count ≤ settings.points)
    {left right : Samples α}
    (leftSized : left.size = settings.points)
    (rightSized : right.size = settings.points)
    (same : ∀ index, 1 ≤ index → index ≤ count → left.get index = right.get index) :
    ∃ first second,
      solver.transform symmetry .charge left = .ok first ∧
      solver.transform symmetry .charge right = .ok second ∧
      ∀ index, 1 ≤ index → index ≤ count →
        first.field.get index = second.field.get index ∧
          first.potential.get index = second.potential.get index := by
  obtain rfl := ofSettings_eq_ok_iff.mp accepted
  have charges : Samples.AgreeTo count left right :=
    { size := leftSized.trans rightSized.symm
      inside := leftSized ▸ inside
      get := same }
  have inputs := charges.map (Scalar.clamp solver.settings.clamp)
  have fields := inputs.fieldOfCharge curved reach solver.axis solver.spacing
  have potentials := fields.potentialOfField (by omega) solver.spacing
  exact ⟨_, _, transform_charge leftSized, transform_charge rightSized,
    fun index first last => ⟨fields.get index first last, potentials.get index first last⟩⟩

/-- A charge at the last of five samples has no effect at the fourth. -/
theorem charge_at_the_last_sample_has_no_effect :
    let settings : Settings Float := { extent := 4, points := 5, clamp := 1000 }
    let weak : Samples Float := .ofList [1, 2, 3, 4, 5]
    let strong : Samples Float := .ofList [1, 2, 3, 4, -500]
    ∃ solver,
      ofSettings settings = .ok solver ∧
      (∀ index, 1 ≤ index → index ≤ 4 → weak.get index = strong.get index) ∧
      ∃ first second,
        solver.transform .spherical .charge weak = .ok first ∧
        solver.transform .spherical .charge strong = .ok second ∧
        first.field.get 4 = second.field.get 4 ∧
        first.potential.get 4 = second.potential.get 4 := by
  intro settings weak strong
  let solver : Solver Float :=
    { settings := settings
      points_enough := by decide
      extent_positive := by decide +kernel
      clamp_positive := by decide +kernel }
  have accepted : ofSettings settings = .ok solver := ofSettings_eq_ok_iff.mpr rfl
  have curved : Symmetry.spherical ≠ .planar := by decide
  have same : ∀ index, 1 ≤ index → index ≤ 4 → weak.get index = strong.get index := by
    intro index first last
    obtain rfl | rfl | rfl | rfl : index = 1 ∨ index = 2 ∨ index = 3 ∨ index = 4 := by
      omega
    all_goals rfl
  obtain ⟨first, second, transformed, other, alike⟩ :=
    charge_further_out_has_no_effect accepted curved (by decide) (by decide) rfl rfl same
  exact ⟨solver, accepted, same, first, second, transformed, other,
    alike 4 (by decide) (by decide)⟩

end GaussLaw.Solver

end Electrostatics
