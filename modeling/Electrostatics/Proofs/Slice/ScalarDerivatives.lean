import Electrostatics.Proofs.Number.Analysis
import Electrostatics.Proofs.Slice.Polynomials
import Electrostatics.Proofs.Slice.ScalarSessions

namespace Electrostatics

/-!
# Derivatives of a scalar field

In exact arithmetic a session differentiates polynomials of low degree without error: away
from the edges the gradient holds the partial derivatives at the place of the cell, and the
laplacian, which differentiates the gradient again, the sum of the second ones.
-/

open MvPolynomial
open scoped Exact

variable
  {K : Type}
  [Field K]
  [LinearOrder K]
  [FloorRing K]
  {viewpoint : Viewpoint K}
  {curve : MvPolynomial Axis K}

/-- The second derivatives in the plane are differences of the gradient. -/
theorem Grid.Plots.laplacian
    {offPlane first second : Grid K}
    {margin : Nat}
    {across along against : MvPolynomial Axis K}
    (acrossPlots : offPlane.Plots viewpoint 0 margin across)
    (alongPlots : first.Plots viewpoint 0 margin along)
    (againstPlots : second.Plots viewpoint 0 margin against)
    (alongLow : along.degreeOf viewpoint.plane.columnAxis ≤ 2)
    (againstLow : against.degreeOf viewpoint.plane.rowAxis ≤ 2)
    (resolve : viewpoint.settings.Resolve viewpoint.plane) :
    (Grid.laplacian offPlane first second viewpoint.columnStep viewpoint.rowStep).Plots
      viewpoint 0 (margin + 1)
      (pderiv viewpoint.plane.columnAxis along + pderiv viewpoint.plane.rowAxis against +
        across) where
  rows := acrossPlots.rows
  cols := acrossPlots.cols
  cell := fun row col rowInner colInner => by
    have sum :
        (Grid.laplacian offPlane first second viewpoint.columnStep
            viewpoint.rowStep).get row col =
          offPlane.get row col + first.columnDifference row col viewpoint.columnStep -
            second.rowDifference row col viewpoint.rowStep :=
      acrossPlots.get_build _ rowInner colInner
    rw [sum, (acrossPlots.mono (Nat.le_succ margin)).cell row col rowInner colInner,
      alongPlots.columnDifference_eq alongLow resolve.columns rowInner colInner,
      againstPlots.rowDifference_eq againstLow resolve.rows rowInner colInner, map_add, map_add]
    ring

namespace ScalarField

variable
  [IsStrictOrderedRing K]
  {value : Grid K}
  {off : Viewpoint.OffPlane K}

/-- The gradient is ordered by axis, and each component plots its partial derivative. -/
theorem gradient_plots
    [Elementary K]
    (plots : value.Plots viewpoint 0 0 curve)
    (plot : off.Plot viewpoint curve)
    (suits : viewpoint.plane.Suits curve)
    (resolve : viewpoint.settings.Resolve viewpoint.plane)
    (axis : Axis) :
    ((ofSamples viewpoint value off).gradient.get axis).Plots viewpoint 0 1
      (pderiv axis curve) := by
  simp only [ofSamples, PerAxis.get_map, Grid.gradient]
  refine Grid.Plots.flatten ?_ resolve.flatness
  rcases viewpoint.plane.axis_cases axis with rfl | rfl | rfl
  · rw [Plane.get_place_columnAxis]
    exact plots.alongFirst suits.column resolve.columns
  · rw [Plane.get_place_rowAxis]
    exact plots.alongSecond suits.row resolve.rows
  · rw [Plane.get_place_normalAxis]
    exact (plot.normalDerivative suits.normal resolve.normal).mono (Nat.zero_le 1)

theorem laplacian_plots
    [Elementary K]
    (plots : value.Plots viewpoint 0 0 curve)
    (plot : off.Plot viewpoint curve)
    (suits : viewpoint.plane.Suits curve)
    (resolve : viewpoint.settings.Resolve viewpoint.plane) :
    (ofSamples viewpoint value off).laplacian.Plots viewpoint 0 2
      (pderiv .x (pderiv .x curve) + pderiv .y (pderiv .y curve) +
        pderiv .z (pderiv .z curve)) := by
  rw [← viewpoint.plane.sum_axes fun axis => pderiv axis (pderiv axis curve)]
  refine Grid.Plots.flatten ?_ resolve.flatness
  refine Grid.Plots.laplacian ?_ (plots.alongFirst suits.column resolve.columns)
    (plots.alongSecond suits.row resolve.rows) ?_ ?_ resolve
  · exact (plot.normalSecondDerivative plots suits.normal resolve.normal).mono (Nat.zero_le 1)
  · exact (degreeOf_pderiv_le _ curve).trans suits.column
  · exact (degreeOf_pderiv_le _ curve).trans suits.row

end ScalarField

namespace ScalarSession

variable [Elementary K]

/-- The field of a formula is made of its samples on the plane and off it. -/
theorem fieldAt_eq
    (viewpoint : Viewpoint K)
    (formula : Formula) :
    fieldAt viewpoint formula =
      ScalarField.ofSamples viewpoint ((viewpoint.sample 0).run formula).1
        (viewpoint.sampleOffPlane.run ((viewpoint.sample 0).run formula).2).1 := by
  rw [← Exact.numeral_zero]
  rfl

variable [Exact.WholePowers K] [IsStrictOrderedRing K]

/--
Polynomials are differentiated exactly.  Whatever was done to a session before, where its
formula denotes a polynomial of degree two at most in the coordinates of its plane and four
in the other one, each component of the gradient is the partial derivative along its axis at
every cell but those of the edge, and the laplacian is the sum of the second derivatives one
cell further in.
-/
theorem polynomials_are_differentiated_exactly
    {settings : SliceSettings K}
    {history : List (Call String K)}
    {formula : Formula}
    {curve : MvPolynomial Axis K}
    (shown : (after settings history).formula = some formula)
    (denotes : formula.tree.Denotes curve)
    (suits : (after settings history).viewpoint.plane.Suits curve)
    (resolve : settings.Resolve (after settings history).viewpoint.plane) :
    let viewpoint := (after settings history).viewpoint
    let side := viewpoint.settings.side
    ∃ field,
      (after settings history).field = some field ∧
      (∀ row ∈ Set.Icc 2 (side - 1), ∀ col ∈ Set.Icc 2 (side - 1), ∀ axis,
        (field.gradient.get axis).get row col =
          eval (viewpoint.place row col 0) (pderiv axis curve)) ∧
      (∀ row ∈ Set.Icc 3 (side - 2), ∀ col ∈ Set.Icc 3 (side - 2),
        field.laplacian.get row col =
          eval (viewpoint.place row col 0)
            (pderiv .x (pderiv .x curve) + pderiv .y (pderiv .y curve) +
              pderiv .z (pderiv .z curve))) := by
  intro viewpoint side
  have reflects := reflects_after settings history
  have field : (after settings history).field = some (fieldAt viewpoint formula) := by
    rw [reflects.field, shown]
    rfl
  have inView : viewpoint.settings.Resolve viewpoint.plane := resolve.of_view reflects.view
  have plots := viewpoint.sample_plots 0 denotes
  -- The samples on the plane change the error that the formula remembers, but not its tree.
  have plot :
      (viewpoint.sampleOffPlane.run ((viewpoint.sample 0).run formula).2).1.Plot
        viewpoint curve :=
    viewpoint.sampleOffPlane_plot denotes
  refine ⟨_, field, fun row rowMember col colMember axis => ?_,
    fun row rowMember col colMember => ?_⟩
  · rw [fieldAt_eq]
    exact (ScalarField.gradient_plots plots plot suits inView axis).cell row col
      (viewpoint.inner_of_mem_Icc rowMember) (viewpoint.inner_of_mem_Icc colMember)
  · rw [fieldAt_eq]
    exact (ScalarField.laplacian_plots plots plot suits inView).cell row col
      (viewpoint.inner_of_mem_Icc rowMember) (viewpoint.inner_of_mem_Icc colMember)

/-- The quartic `x^4*y+z^2` on the plane `x = 1/2`, at the cell over `y = -2/5`, `z = 3/5`. -/
theorem quartic_is_differentiated_exactly :
    let history : List (Call String ℝ) := [.definePlane .yz (1 / 2), .setFormula "x^4*y+z^2"]
    ∃ field,
      (after SliceSettings.fifths history).field = some field ∧
      field.gradient.x.get 3 4 = -1 / 5 ∧
      field.gradient.y.get 3 4 = 1 / 16 ∧
      field.gradient.z.get 3 4 = 6 / 5 ∧
      field.laplacian.get 3 4 = 4 / 5 := by
  intro history
  let tree : Expr :=
    .operation .add
      (.operation .mul (.operation .pow (.coordinate .x) (.number ⟨4, 0⟩)) (.coordinate .y))
      (.operation .pow (.coordinate .z) (.number ⟨2, 0⟩))
  let curve : MvPolynomial Axis ℝ := X .x ^ 4 * X .y + X .z ^ 2
  have denotes : tree.Denotes curve :=
    .add (.mul (.pow (.coordinate .x) (.wholeNumber 4)) (.coordinate .y))
      (.pow (.coordinate .z) (.wholeNumber 2))
  have read : Formula.parse "x^4*y+z^2" = .ok ⟨"x^4*y+z^2", tree, none⟩ := by rfl
  have reflects := reflects_after SliceSettings.fifths history
  have shown :
      (after SliceSettings.fifths history).formula = some ⟨"x^4*y+z^2", tree, none⟩ := by
    rw [reflects.formula]
    simp [Recent.formula?, Recent.ofCalls, Call.accepted?, accepts, history, read, Except.isOk,
      Except.toBool, Except.toOption]
  have view :
      SameView (after SliceSettings.fifths history).viewpoint
        ((Viewpoint.start SliceSettings.fifths).definePlane .yz (1 / 2)) :=
    reflects.view
  have suits : Plane.yz.Suits curve :=
    (Plane.yz_suits_power_mul (le_refl 4)).add Plane.yz_suits_square
  obtain ⟨field, drawn, gradient, laplacian⟩ :=
    polynomials_are_differentiated_exactly shown denotes (view.plane ▸ suits)
      (SliceSettings.fifths_resolve _)
  have side : (after SliceSettings.fifths history).viewpoint.settings.side = 11 :=
    congrArg SliceSettings.side view.settings
  have place :
      (after SliceSettings.fifths history).viewpoint.place 3 4 0 =
        (PerAxis.mk (1 / 2) (-2 / 5) (3 / 5)).get := by
    rw [Viewpoint.place_of_sameView view, Viewpoint.place_fifths]
    norm_num
  have whole :
      ∀ (axis : Axis) (count : Nat) [count.AtLeastTwo],
        pderiv axis (OfNat.ofNat count : MvPolynomial Axis ℝ) = 0 :=
    fun axis count _ => (pderiv axis).map_natCast count
  rw [side] at gradient laplacian
  have slopes := gradient 3 (by decide) 4 (by decide)
  have bend := laplacian 3 (by decide) 4 (by decide)
  rw [place] at slopes bend
  refine
    ⟨field, drawn, (slopes .x).trans ?_, (slopes .y).trans ?_, (slopes .z).trans ?_,
      bend.trans ?_⟩
  · simp [curve, PerAxis.get]
    norm_num
  · simp [curve, PerAxis.get]
    norm_num
  · simp [curve, PerAxis.get]
    norm_num
  · simp [curve, PerAxis.get, whole]
    norm_num

end ScalarSession

end Electrostatics
