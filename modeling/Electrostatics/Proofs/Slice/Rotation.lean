import Electrostatics.Proofs.Formula.Renaming
import Electrostatics.Proofs.Grid.Access
import Electrostatics.Proofs.Number.Exact
import Electrostatics.Proofs.Slice.Shape

namespace Electrostatics

/-!
# Rotating the axes

The axes of space can be renamed in turn, each to the next one, in a formula, in the settings
and in the plane at once.  Columns, rows and the normal then keep their parts, so that the
samples are the same, and with them every derived grid, at the next axis.
-/

open scoped Scalar

variable {α : Type}

/-- The axis behind an axis, in turn. -/
def Axis.next : Axis → Axis
  | .x => .y
  | .y => .z
  | .z => .x

theorem Axis.next_injective : Function.Injective next := by
  rintro (_ | _ | _) (_ | _ | _) <;> first | exact fun _ => rfl | exact nofun

/-- Every axis is behind some axis. -/
theorem Axis.forall_next {holds : Axis → Prop} :
    (∀ axis : Axis, holds axis.next) ↔ ∀ axis, holds axis := by
  constructor
  · rintro each (_ | _ | _)
    · exact each .z
    · exact each .x
    · exact each .y
  · exact fun each axis => each axis.next

/-- The plane behind a plane, in turn. -/
def Plane.next : Plane → Plane
  | .yz => .zx
  | .zx => .xy
  | .xy => .yz

/-- The values of the axes, each given to the next axis. -/
def PerAxis.rotated (values : PerAxis α) : PerAxis α :=
  { x := values.z, y := values.x, z := values.y }

namespace PerAxis

variable (values : PerAxis α)

@[simp]
theorem get_rotated (axis : Axis) : values.rotated.get axis.next = values.get axis := by
  cases axis <;> rfl

theorem map_rotated
    {β : Type}
    (change : α → β) :
    values.rotated.map change = (values.map change).rotated := by
  rfl

theorem set_rotated
    (axis : Axis)
    (value : α) :
    values.rotated.set axis.next value = (values.set axis value).rotated := by
  cases axis <;> rfl

end PerAxis

namespace Plane

variable (plane : Plane)

@[simp]
theorem columnAxis_next : plane.next.columnAxis = plane.columnAxis.next := by
  cases plane <;> rfl

@[simp]
theorem rowAxis_next : plane.next.rowAxis = plane.rowAxis.next := by
  cases plane <;> rfl

@[simp]
theorem normalAxis_next : plane.next.normalAxis = plane.normalAxis.next := by
  cases plane <;> rfl

theorem place_next (column row normal : α) :
    plane.next.place column row normal = (plane.place column row normal).rotated := by
  cases plane <;> rfl

end Plane

/-- The settings with the axes renamed. -/
def SliceSettings.rotated (settings : SliceSettings α) : SliceSettings α :=
  { settings with low := settings.low.rotated, high := settings.high.rotated }

namespace Viewpoint

/-- The viewpoint with the axes renamed. -/
def rotated (viewpoint : Viewpoint α) : Viewpoint α :=
  { settings := viewpoint.settings.rotated
    plane := viewpoint.plane.next
    center := viewpoint.center.rotated }

variable [Scalar α] (viewpoint : Viewpoint α)

theorem step_rotated (axis : Axis) : viewpoint.rotated.step axis.next = viewpoint.step axis := by
  simp only [step, rotated, SliceSettings.rotated, PerAxis.get_rotated]

@[simp]
theorem columnStep_rotated : viewpoint.rotated.columnStep = viewpoint.columnStep := by
  have axis : viewpoint.rotated.plane.columnAxis = viewpoint.plane.columnAxis.next :=
    viewpoint.plane.columnAxis_next
  rw [columnStep, axis, step_rotated, columnStep]

@[simp]
theorem rowStep_rotated : viewpoint.rotated.rowStep = viewpoint.rowStep := by
  have axis : viewpoint.rotated.plane.rowAxis = viewpoint.plane.rowAxis.next :=
    viewpoint.plane.rowAxis_next
  rw [rowStep, axis, step_rotated, rowStep]

/-- The cells of a slice lie at the renamed places. -/
theorem worldPoint_rotated (row col offset : α) :
    viewpoint.rotated.worldPoint row col offset =
      (viewpoint.worldPoint row col offset).rotated := by
  rw [worldPoint, columnStep_rotated, rowStep_rotated]
  simp only [rotated, SliceSettings.rotated, Plane.columnAxis_next, Plane.rowAxis_next,
    Plane.normalAxis_next, PerAxis.get_rotated, Plane.place_next]
  rfl

end Viewpoint

/-- A formula in Cartesian coordinates, and one whose tree has the axes renamed. -/
structure Formula.RotatesTo (formula turned : Formula) : Prop where
  tree : turned.tree = formula.tree.rotated
  cartesian : formula.tree.RefersOnlyTo Coordinate.IsCartesian

/-- Formulas that are renamed at the next axes; a component is blank where it was blank. -/
def FormulasRotate (formulas turned : PerAxis (Option Formula)) : Prop :=
  ∀ axis, Option.Rel Formula.RotatesTo (formulas.get axis) (turned.get axis.next)

section Samples

variable
  [Scalar α]
  [Elementary α]
  {formula turned : Formula}
  (viewpoint : Viewpoint α)
  (rotates : formula.RotatesTo turned)

include rotates

theorem Viewpoint.outcomeAt_rotated (place : PerAxis α) :
    outcomeAt turned place.rotated = outcomeAt formula place := by
  have evaluated :
      turned.tree.evaluate
          { x := place.z, y := place.x, z := place.y, r := axialDistance place.z place.x } =
        formula.tree.evaluate
          { x := place.x, y := place.y, z := place.z, r := axialDistance place.x place.y } := by
    rw [rotates.tree]
    exact Expr.evaluate_rotated ⟨rfl, rfl, rfl⟩ rotates.cartesian
  simp only [outcomeAt, PerAxis.rotated, Formula.tryEvaluate, evaluated]

theorem Viewpoint.sample_rotated (offset : α) :
    ((viewpoint.rotated.sample offset).run turned).1 =
      ((viewpoint.sample offset).run formula).1 := by
  have outcomes : viewpoint.rotated.outcomes turned offset = viewpoint.outcomes formula offset := by
    simp only [Viewpoint.outcomes, worldPoint_rotated, outcomeAt_rotated rotates]
    rfl
  exact congrArg (Grid.map Formula.softened) outcomes

theorem Viewpoint.sampleOffPlane_rotated :
    (viewpoint.rotated.sampleOffPlane.run turned).1 =
      (viewpoint.sampleOffPlane.run formula).1 := by
  simp only [sampleOffPlane_fst, viewpoint.sample_rotated rotates]
  rfl

end Samples

/-- A scalar field, and one whose gradient has its components at the next axes. -/
structure ScalarField.RotatesTo (field turned : ScalarField α) : Prop where
  value : turned.value = field.value
  gradient : ∀ axis, turned.gradient.get axis.next = field.gradient.get axis
  laplacian : turned.laplacian = field.laplacian

/-- A vector field, and one whose components and curl stand at the next axes. -/
structure VectorField.RotatesTo (field turned : VectorField α) : Prop where
  components : ∀ axis, turned.components.get axis.next = field.components.get axis
  divergence : turned.divergence = field.divergence
  curl : ∀ axis, turned.curl.get axis.next = field.curl.get axis

section Fields

variable [Scalar α] (viewpoint : Viewpoint α)

theorem ScalarField.ofSamples_rotated
    [Elementary α]
    (value : Grid α)
    (off : Viewpoint.OffPlane α) :
    (ofSamples viewpoint value off).RotatesTo (ofSamples viewpoint.rotated value off) where
  value := rfl
  gradient := fun axis => by
    simp only [ofSamples, Viewpoint.columnStep_rotated, Viewpoint.rowStep_rotated]
    simp only [Viewpoint.rotated, Plane.place_next, PerAxis.map_rotated, PerAxis.get_rotated]
    rfl
  laplacian := by
    simp only [ofSamples, Viewpoint.columnStep_rotated, Viewpoint.rowStep_rotated]
    rfl

theorem VectorField.ofSamples_rotated (sampled : PerAxis (SampledComponent α)) :
    (ofSamples viewpoint sampled).RotatesTo (ofSamples viewpoint.rotated sampled.rotated) where
  components := fun axis => by
    simp only [ofSamples, PerAxis.map_rotated, PerAxis.get_rotated]
  divergence := by
    simp only [ofSamples, Viewpoint.columnStep_rotated, Viewpoint.rowStep_rotated]
    simp only [Viewpoint.rotated, Plane.columnAxis_next, Plane.rowAxis_next,
      Plane.normalAxis_next, PerAxis.get_rotated]
    rfl
  curl := fun axis => by
    simp only [ofSamples, Viewpoint.columnStep_rotated, Viewpoint.rowStep_rotated]
    simp only [Viewpoint.rotated, Plane.columnAxis_next, Plane.rowAxis_next,
      Plane.normalAxis_next, PerAxis.get_rotated, Plane.place_next, PerAxis.map_rotated]
    rfl

variable [Elementary α]

/-- A renamed component is sampled as before, and off the plane if it was so before. -/
theorem SampledComponent.ofFormula?_rotated
    (axis : Axis)
    {formula? turned? : Option Formula}
    (rotates : Option.Rel Formula.RotatesTo formula? turned?) :
    (ofFormula? viewpoint.rotated axis.next turned?).1 =
      (ofFormula? viewpoint axis formula?).1 := by
  cases rotates with
  | none => rfl
  | @some formula turned rotates =>
      have onPlane := viewpoint.sample_rotated rotates 0
      have offPlane := viewpoint.sampleOffPlane_rotated rotates
      have across :
          axis.next = viewpoint.rotated.plane.normalAxis ↔ axis = viewpoint.plane.normalAxis := by
        rw [Viewpoint.rotated, Plane.normalAxis_next]
        exact Axis.next_injective.eq_iff
      by_cases isNormal : axis = viewpoint.plane.normalAxis
      · simp only [ofFormula?, SampledComponent.sample, if_pos isNormal,
          if_pos (across.mpr isNormal)]
        exact congrArg₂ (fun on off => SampledComponent.mk on (some off)) onPlane offPlane
      · simp only [ofFormula?, SampledComponent.sample, if_neg isNormal,
          if_neg (across.not.mpr isNormal)]
        exact congrArg (fun on => SampledComponent.mk on none) onPlane

/-- The field of a renamed formula at the renamed viewpoint. -/
theorem ScalarSession.fieldAt_rotated
    {formula turned : Formula}
    (rotates : formula.RotatesTo turned) :
    (fieldAt viewpoint formula).RotatesTo (fieldAt viewpoint.rotated turned) := by
  have onPlane := viewpoint.sample_rotated rotates 0
  have offPlane := viewpoint.sampleOffPlane_rotated rotates
  have same :
      fieldAt viewpoint.rotated turned =
        ScalarField.ofSamples viewpoint.rotated ((viewpoint.sample 0).run formula).1
          (viewpoint.sampleOffPlane.run formula).1 :=
    congr (congrArg (ScalarField.ofSamples viewpoint.rotated) onPlane) offPlane
  rw [same]
  exact ScalarField.ofSamples_rotated viewpoint _ _

/-- The field of renamed formulas at the renamed viewpoint; both are blank or neither is. -/
theorem VectorSession.fieldAt_rotated
    {formulas turned : PerAxis (Option Formula)}
    (rotates : FormulasRotate formulas turned) :
    Option.Rel VectorField.RotatesTo
      (fieldAt viewpoint formulas) (fieldAt viewpoint.rotated turned) := by
  have blank : allBlank turned = allBlank formulas := by
    rw [Bool.eq_iff_iff, allBlank, allBlank, PerAxis.all_toList, PerAxis.all_toList,
      ← Axis.forall_next]
    refine forall_congr' fun axis => ?_
    have both := rotates axis
    generalize formulas.get axis = formula?, turned.get axis.next = turned? at both ⊢
    cases both <;> exact Iff.rfl
  by_cases isBlank : allBlank formulas = true
  · simp only [fieldAt, display, blank, isBlank, if_true]
    exact .none
  · rw [Bool.not_eq_true] at isBlank
    have sampled :
        (PerAxis.ofFn fun axis =>
            (SampledComponent.ofFormula? viewpoint.rotated axis (turned.get axis)).1) =
          (PerAxis.ofFn fun axis =>
            (SampledComponent.ofFormula? viewpoint axis (formulas.get axis)).1).rotated := by
      refine PerAxis.ext_get (Axis.forall_next.mp fun axis => ?_)
      rw [PerAxis.get_rotated, PerAxis.get_ofFn, PerAxis.get_ofFn]
      exact SampledComponent.ofFormula?_rotated viewpoint axis (rotates axis)
    rw [fieldAt_of_shown viewpoint isBlank,
      fieldAt_of_shown viewpoint.rotated (blank.trans isBlank), sampled]
    exact .some (VectorField.ofSamples_rotated viewpoint _)

end Fields

section Lengths

open scoped Exact

variable {K : Type} [Field K] [LinearOrder K] [FloorRing K]

/-- The sum of three grids of one size, in exact arithmetic. -/
theorem Grid.add_add_eq_build
    {first second third : Grid K}
    {side : Nat}
    (square : first.IsSquare side) :
    (first.add second).add third =
      build side side fun row col =>
        first.get row col + second.get row col + third.get row col := by
  have sum :
      (first.add second).add third =
        build first.rows first.cols fun row col =>
          (first.add second).get row col + third.get row col := by
    rfl
  rw [sum, square.rows, square.cols]
  refine build_congr fun row col rowInside colInside => ?_
  rw [← square.rows] at rowInside
  rw [← square.cols] at colInside
  have cell : (first.add second).get row col = first.get row col + second.get row col :=
    get_build _ rowInside colInside
  rw [cell]

variable [Elementary K]

/-- In exact arithmetic the length of a vector does not depend on the order of its components. -/
theorem vectorLength_rotated
    {components : PerAxis (Grid K)}
    {side : Nat}
    (square : ∀ axis, (components.get axis).IsSquare side) :
    vectorLength components.rotated = vectorLength components := by
  have x := (square .x).map fun value => value * value
  have z := (square .z).map fun value => value * value
  refine congrArg (Grid.map Elementary.sqrt) ?_
  refine (Grid.add_add_eq_build z).trans (Eq.trans ?_ (Grid.add_add_eq_build x).symm)
  refine Grid.build_congr fun row col _ _ => ?_
  exact (add_assoc _ _ _).trans (add_comm _ _)

theorem ScalarSession.magnitude_fieldAt_rotated
    (viewpoint : Viewpoint K)
    {formula turned : Formula}
    (rotates : formula.RotatesTo turned) :
    (fieldAt viewpoint.rotated turned).magnitude = (fieldAt viewpoint formula).magnitude := by
  have rotated := fieldAt_rotated viewpoint rotates
  have gradient :
      (fieldAt viewpoint.rotated turned).gradient =
        (fieldAt viewpoint formula).gradient.rotated := by
    refine PerAxis.ext_get (Axis.forall_next.mp fun axis => ?_)
    rw [rotated.gradient, PerAxis.get_rotated]
  have fills : (fieldAt viewpoint formula).Fills viewpoint.settings.side :=
    ScalarField.ofSamples_fills ⟨rfl, rfl⟩ _
  have length := vectorLength_rotated fills.gradient
  rw [← gradient] at length
  exact length

end Lengths

end Electrostatics
