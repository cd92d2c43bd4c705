import Electrostatics.Proofs.Formula.LastError
import Electrostatics.Slice.VectorField

namespace Electrostatics

/-!
# What a sampling depends on

A sampling looks at the settings, the plane and the one coordinate that the plane holds
fixed.  What earlier planes left at the other coordinates does not matter.  All that it
changes about a formula is the error that the formula remembers, and that error is taken
before the session shows the samples.
-/

open scoped Scalar

variable {α : Type}

/-- The replaced value is the one that is read. -/
theorem PerAxis.get_set
    (values : PerAxis α)
    (axis : Axis)
    (value : α) :
    (values.set axis value).get axis = value := by
  cases axis <;> rfl

/-- Values made of a function are read as its values. -/
@[simp]
theorem PerAxis.get_ofFn
    (value : Axis → α)
    (axis : Axis) :
    (PerAxis.ofFn value).get axis = value axis := by
  cases axis <;> rfl

@[simp]
theorem PerAxis.get_map
    {β : Type}
    (change : α → β)
    (values : PerAxis α)
    (axis : Axis) :
    (values.map change).get axis = change (values.get axis) := by
  cases axis <;> rfl

/-- Values that are the same for every axis are the same. -/
theorem PerAxis.ext_get
    {first second : PerAxis α}
    (same : ∀ axis, first.get axis = second.get axis) :
    first = second := by
  obtain ⟨x, y, z⟩ := first
  obtain ⟨otherX, otherY, otherZ⟩ := second
  obtain rfl : x = otherX := same .x
  obtain rfl : y = otherY := same .y
  obtain rfl : z = otherZ := same .z
  rfl

/-- The values of a list of three are those of the axes. -/
theorem PerAxis.all_toList
    (values : PerAxis α)
    (holds : α → Bool) :
    values.toList.all holds = true ↔ ∀ axis, holds (values.get axis) = true := by
  constructor
  · intro all axis
    simp only [PerAxis.toList, List.all_cons, List.all_nil, Bool.and_true,
      Bool.and_eq_true] at all
    cases axis with
    | x => exact all.1
    | y => exact all.2.1
    | z => exact all.2.2
  · intro each
    have x := each .x
    have y := each .y
    have z := each .z
    simp_all [PerAxis.toList, PerAxis.get]

/-- Samples off the plane; each pass changes the error that a formula remembers, not its tree. -/
theorem Viewpoint.sampleOffPlane_fst
    [Scalar α]
    [Elementary α]
    (viewpoint : Viewpoint α)
    (formula : Formula) :
    (viewpoint.sampleOffPlane.run formula).1 =
      let h := viewpoint.settings.normalStep
      { below₂ := ((viewpoint.sample (-2 * h)).run formula).1
        below₁ := ((viewpoint.sample (-h)).run formula).1
        above₁ := ((viewpoint.sample h).run formula).1
        above₂ := ((viewpoint.sample (2 * h)).run formula).1 } := by
  rfl

/-- An action that changes nothing about a formula but the error it remembers. -/
def KeepsFormula {β : Type} (action : StateM Formula β) : Prop :=
  ∀ formula, (action.run formula).2.cleared = formula.cleared

namespace KeepsFormula

variable {β γ : Type}

theorem pure (value : β) : KeepsFormula (Pure.pure value : StateM Formula β) :=
  fun _ => rfl

theorem bind
    {action : StateM Formula β}
    {next : β → StateM Formula γ}
    (keeps : KeepsFormula action)
    (nextKeeps : ∀ value, KeepsFormula (next value)) :
    KeepsFormula (action >>= next) := by
  intro formula
  exact (nextKeeps _ _).trans (keeps formula)

variable [Scalar α] [Elementary α]

theorem sample
    (viewpoint : Viewpoint α)
    (offset : α) :
    KeepsFormula (viewpoint.sample offset) :=
  fun _ => rfl

theorem sampleOffPlane (viewpoint : Viewpoint α) :
    KeepsFormula viewpoint.sampleOffPlane :=
  (sample viewpoint _).bind fun _ =>
    (sample viewpoint _).bind fun _ =>
      (sample viewpoint _).bind fun _ =>
        (sample viewpoint _).bind fun _ => pure _

theorem scalarField (viewpoint : Viewpoint α) :
    KeepsFormula (ScalarField.sample viewpoint) :=
  (sample viewpoint 0).bind fun _ =>
    (sampleOffPlane viewpoint).bind fun _ => pure _

theorem component
    (viewpoint : Viewpoint α)
    (axis : Axis) :
    KeepsFormula (SampledComponent.sample viewpoint axis) := by
  refine (sample viewpoint 0).bind fun on => ?_
  split
  · exact (sampleOffPlane viewpoint).bind fun _ => pure _
  · exact pure _

end KeepsFormula

/--
Two viewpoints with the same settings on the same plane.  Only the coordinate that the
plane holds fixed has to agree.
-/
structure SameView (first second : Viewpoint α) : Prop where
  settings : first.settings = second.settings
  plane : first.plane = second.plane
  level :
    first.center.get first.plane.normalAxis = second.center.get second.plane.normalAxis

namespace SameView

variable {first second : Viewpoint α}

theorem refl (viewpoint : Viewpoint α) : SameView viewpoint viewpoint :=
  ⟨rfl, rfl, rfl⟩

theorem symm (same : SameView first second) : SameView second first :=
  ⟨same.settings.symm, same.plane.symm, same.level.symm⟩

theorem trans
    {third : Viewpoint α}
    (same : SameView first second)
    (next : SameView second third) :
    SameView first third :=
  ⟨same.settings.trans next.settings, same.plane.trans next.plane,
    same.level.trans next.level⟩

theorem resize
    (same : SameView first second)
    (side : Nat) :
    SameView (first.resize side) (second.resize side) where
  settings := by simp only [Viewpoint.resize, same.settings]
  plane := same.plane
  level := same.level

/-- A new plane sets the only coordinate that counts on it. -/
theorem definePlane
    (settings : first.settings = second.settings)
    (plane : Plane)
    (value : α) :
    SameView (first.definePlane plane value) (second.definePlane plane value) where
  settings := settings
  plane := rfl
  level := by simp only [Viewpoint.definePlane, PerAxis.get_set]

variable [Scalar α]

theorem columnStep_eq
    (same : SameView first second) :
    first.columnStep = second.columnStep := by
  simp only [Viewpoint.columnStep, Viewpoint.step, same.settings, same.plane]

theorem rowStep_eq
    (same : SameView first second) :
    first.rowStep = second.rowStep := by
  simp only [Viewpoint.rowStep, Viewpoint.step, same.settings, same.plane]

theorem worldPoint_eq
    (same : SameView first second) :
    first.worldPoint = second.worldPoint := by
  funext row col offset
  have level := same.level
  rw [same.plane] at level
  simp only [Viewpoint.worldPoint, same.columnStep_eq, same.rowStep_eq, level,
    same.settings, same.plane]

theorem vectorField_eq
    (same : SameView first second) :
    VectorField.ofSamples first = VectorField.ofSamples second := by
  funext sampled
  simp only [VectorField.ofSamples, same.columnStep_eq, same.rowStep_eq, same.settings,
    same.plane]

variable [Elementary α]

theorem sample_eq
    (same : SameView first second) :
    first.sample = second.sample := by
  funext offset formula
  simp only [Viewpoint.sample, Viewpoint.outcomes, same.worldPoint_eq, same.settings]

theorem sampleOffPlane_eq
    (same : SameView first second) :
    first.sampleOffPlane = second.sampleOffPlane := by
  simp only [Viewpoint.sampleOffPlane, same.sample_eq, same.settings]

theorem scalarField_eq
    (same : SameView first second) :
    ScalarField.sample first = ScalarField.sample second := by
  simp only [ScalarField.sample, ScalarField.ofSamples, same.sample_eq,
    same.sampleOffPlane_eq, same.columnStep_eq, same.rowStep_eq, same.settings, same.plane]

theorem component_eq
    (same : SameView first second) :
    SampledComponent.ofFormula? first = SampledComponent.ofFormula? second := by
  funext axis formula?
  simp only [SampledComponent.ofFormula?, SampledComponent.sample, same.sample_eq,
    same.sampleOffPlane_eq, same.settings, same.plane]

end SameView

end Electrostatics
