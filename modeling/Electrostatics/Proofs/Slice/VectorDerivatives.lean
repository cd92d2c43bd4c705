import Electrostatics.Proofs.Number.Analysis
import Electrostatics.Proofs.Slice.Polynomials
import Electrostatics.Proofs.Slice.VectorSessions

namespace Electrostatics

/-!
# Divergence and curl of a vector field

Components are stored by the axis of space that they point along, and differenced by the
axes of the plane, of which the rows run backwards.  In exact arithmetic the divergence and
the component of the curl across the plane are without error on polynomials of low degree.
-/

open MvPolynomial
open scoped Exact

variable
  {K : Type}
  [Field K]
  [LinearOrder K]
  [FloorRing K]
  {viewpoint : Viewpoint K}
  {margin : Nat}

namespace Grid.Plots

variable
  {first second : Grid K}
  {along against : MvPolynomial Axis K}

/-- The sum of two grids plots the sum of their polynomials. -/
theorem add
    (firstPlots : first.Plots viewpoint 0 margin along)
    (secondPlots : second.Plots viewpoint 0 margin against) :
    (first.add second).Plots viewpoint 0 margin (along + against) where
  rows := firstPlots.rows
  cols := firstPlots.cols
  cell := fun row col rowInner colInner => by
    have sum : (first.add second).get row col = first.get row col + second.get row col :=
      firstPlots.get_build _ rowInner colInner
    rw [sum, firstPlots.cell row col rowInner colInner,
      secondPlots.cell row col rowInner colInner, map_add]

/-- The divergence in the plane, of the components along its columns and along its rows. -/
theorem divergence
    (firstPlots : first.Plots viewpoint 0 margin along)
    (secondPlots : second.Plots viewpoint 0 margin against)
    (firstLow : along.degreeOf viewpoint.plane.columnAxis ≤ 2)
    (secondLow : against.degreeOf viewpoint.plane.rowAxis ≤ 2)
    (resolve : viewpoint.settings.Resolve viewpoint.plane) :
    (Grid.divergence first second viewpoint.columnStep viewpoint.rowStep).Plots
      viewpoint 0 (margin + 1)
      (pderiv viewpoint.plane.columnAxis along +
        pderiv viewpoint.plane.rowAxis against) where
  rows := firstPlots.rows
  cols := firstPlots.cols
  cell := fun row col rowInner colInner => by
    have difference :
        (Grid.divergence first second viewpoint.columnStep viewpoint.rowStep).get row col =
          first.columnDifference row col viewpoint.columnStep -
            second.rowDifference row col viewpoint.rowStep :=
      firstPlots.get_build _ rowInner colInner
    rw [difference, firstPlots.columnDifference_eq firstLow resolve.columns rowInner colInner,
      secondPlots.rowDifference_eq secondLow resolve.rows rowInner colInner, map_add,
      sub_neg_eq_add]

/-- The curl across the plane: each component is differenced along the axis of the other. -/
theorem curlNormal
    (firstPlots : first.Plots viewpoint 0 margin along)
    (secondPlots : second.Plots viewpoint 0 margin against)
    (firstLow : along.degreeOf viewpoint.plane.rowAxis ≤ 2)
    (secondLow : against.degreeOf viewpoint.plane.columnAxis ≤ 2)
    (resolve : viewpoint.settings.Resolve viewpoint.plane) :
    (Grid.curlNormal first second viewpoint.columnStep viewpoint.rowStep).Plots
      viewpoint 0 (margin + 1)
      (pderiv viewpoint.plane.columnAxis against -
        pderiv viewpoint.plane.rowAxis along) where
  rows := firstPlots.rows
  cols := firstPlots.cols
  cell := fun row col rowInner colInner => by
    have difference :
        (Grid.curlNormal first second viewpoint.columnStep viewpoint.rowStep).get row col =
          second.columnDifference row col viewpoint.columnStep -
            -first.rowDifference row col viewpoint.rowStep :=
      firstPlots.get_build _ rowInner colInner
    rw [difference, secondPlots.columnDifference_eq secondLow resolve.columns rowInner colInner,
      firstPlots.rowDifference_eq firstLow resolve.rows rowInner colInner, map_sub, neg_neg]

end Grid.Plots

/--
The samples of a component along an axis plot a polynomial.  Those off the plane are needed
only across it, and where there are none the component is zero.
-/
structure SampledComponent.Plots
    (sampled : SampledComponent K)
    (viewpoint : Viewpoint K)
    (axis : Axis)
    (curve : MvPolynomial Axis K) :
    Prop where
  on : sampled.on.Plots viewpoint 0 0 curve
  off : ∀ off ∈ sampled.off, off.Plot viewpoint curve
  blank : axis = viewpoint.plane.normalAxis → sampled.off = none → curve = 0

section Components

variable
  [Elementary K]

/-- A component that is blank denotes zero, any other what its formula denotes. -/
inductive ComponentDenotes : Option Formula → MvPolynomial Axis K → Prop where
  | blank : ComponentDenotes none 0
  | shown {formula : Formula} {curve : MvPolynomial Axis K} :
      formula.tree.Denotes curve →
      ComponentDenotes (some formula) curve

/-- A component is sampled on the plane, and off it if it points across. -/
theorem SampledComponent.ofFormula?_some
    (viewpoint : Viewpoint K)
    (axis : Axis)
    (formula : Formula) :
    (SampledComponent.ofFormula? viewpoint axis (some formula)).1 =
      { on := ((viewpoint.sample 0).run formula).1
        off :=
          if axis = viewpoint.plane.normalAxis then
            some (viewpoint.sampleOffPlane.run ((viewpoint.sample 0).run formula).2).1
          else
            none } := by
  rw [← Exact.numeral_zero]
  by_cases across : axis = viewpoint.plane.normalAxis
  · rw [if_pos across]
    simp only [SampledComponent.ofFormula?, SampledComponent.sample, if_pos across]
    rfl
  · rw [if_neg across]
    simp only [SampledComponent.ofFormula?, SampledComponent.sample, if_neg across]
    rfl

variable [Exact.WholePowers K] [IsStrictOrderedRing K]

theorem SampledComponent.ofFormula?_plots
    (viewpoint : Viewpoint K)
    (axis : Axis)
    {formula? : Option Formula}
    {curve : MvPolynomial Axis K}
    (denotes : ComponentDenotes formula? curve) :
    (SampledComponent.ofFormula? viewpoint axis formula?).1.Plots viewpoint axis curve := by
  cases denotes with
  | blank =>
      refine ⟨⟨rfl, rfl, fun row col _ _ => ?_⟩, nofun, fun _ _ => rfl⟩
      rw [map_zero]
      exact (Grid.get_zeros _ _ row col).trans Exact.numeral_zero
  | shown denotes =>
      rw [SampledComponent.ofFormula?_some]
      refine ⟨viewpoint.sample_plots 0 denotes, fun off sampled => ?_, fun across missing => ?_⟩
      · simp only [Option.mem_def, Option.ite_none_right_eq_some, Option.some.injEq] at sampled
        obtain ⟨_, rfl⟩ := sampled
        exact viewpoint.sampleOffPlane_plot denotes
      · simp [across] at missing

end Components

namespace VectorField

variable
  [IsStrictOrderedRing K]
  {sampled : PerAxis (SampledComponent K)}
  {curves : Axis → MvPolynomial Axis K}

theorem divergence_plots
    (plots : ∀ axis, (sampled.get axis).Plots viewpoint axis (curves axis))
    (suits : ∀ axis, viewpoint.plane.Suits (curves axis))
    (resolve : viewpoint.settings.Resolve viewpoint.plane) :
    (ofSamples viewpoint sampled).divergence.Plots viewpoint 0 1
      (pderiv .x (curves .x) + pderiv .y (curves .y) + pderiv .z (curves .z)) := by
  rw [← viewpoint.plane.sum_axes fun axis => pderiv axis (curves axis)]
  refine Grid.Plots.flatten ?_ resolve.flatness
  have inPlane :=
    (plots viewpoint.plane.columnAxis).on.divergence (plots viewpoint.plane.rowAxis).on
      (suits _).column (suits _).row resolve
  have across := plots viewpoint.plane.normalAxis
  -- A component that was not sampled off the plane is blank and adds nothing across it.
  cases sampledOff : (sampled.get viewpoint.plane.normalAxis).off with
  | none =>
      rw [across.blank rfl sampledOff, map_zero, add_zero]
      exact inPlane
  | some off =>
      have along := (across.off off sampledOff).normalDerivative (suits _).normal resolve.normal
      exact inPlane.add (along.mono (Nat.zero_le 1))

theorem curl_plots
    (plots : ∀ axis, (sampled.get axis).Plots viewpoint axis (curves axis))
    (suits : ∀ axis, viewpoint.plane.Suits (curves axis))
    (resolve : viewpoint.settings.Resolve viewpoint.plane) :
    ((ofSamples viewpoint sampled).curl.get viewpoint.plane.normalAxis).Plots viewpoint 0 1
      (pderiv viewpoint.plane.columnAxis (curves viewpoint.plane.rowAxis) -
        pderiv viewpoint.plane.rowAxis (curves viewpoint.plane.columnAxis)) := by
  simp only [ofSamples, PerAxis.get_map, Plane.get_place_normalAxis]
  refine Grid.Plots.flatten ?_ resolve.flatness
  exact (plots viewpoint.plane.columnAxis).on.curlNormal (plots viewpoint.plane.rowAxis).on
    (suits _).row (suits _).column resolve

end VectorField

namespace VectorSession

variable [Elementary K] [Exact.WholePowers K] [IsStrictOrderedRing K]

/--
Divergence and curl are exact on polynomials.  Whatever was done to a session before, where
its components denote polynomials of degree two at most in the coordinates of its plane and
four in the other one, at every cell but those of the edge the divergence is the sum of the
derivatives of each component along its own axis, and the curl across the plane the
difference of those of the two components in it, each along the axis of the other.
-/
theorem divergence_and_curl_are_exact
    {settings : SliceSettings K}
    {history : List (Call (PerAxis String) K)}
    {curves : Axis → MvPolynomial Axis K}
    (shown : allBlank (after settings history).formulas = false)
    (denotes :
      ∀ axis, ComponentDenotes ((after settings history).formulas.get axis) (curves axis))
    (suits : ∀ axis, (after settings history).viewpoint.plane.Suits (curves axis))
    (resolve : settings.Resolve (after settings history).viewpoint.plane) :
    let viewpoint := (after settings history).viewpoint
    let plane := viewpoint.plane
    let side := viewpoint.settings.side
    ∃ field,
      (after settings history).field = some field ∧
      ∀ row ∈ Set.Icc 2 (side - 1), ∀ col ∈ Set.Icc 2 (side - 1),
        field.divergence.get row col =
          eval (viewpoint.place row col 0)
            (pderiv .x (curves .x) + pderiv .y (curves .y) + pderiv .z (curves .z)) ∧
        (field.curl.get plane.normalAxis).get row col =
          eval (viewpoint.place row col 0)
            (pderiv plane.columnAxis (curves plane.rowAxis) -
              pderiv plane.rowAxis (curves plane.columnAxis)) := by
  intro viewpoint plane side
  have reflects := reflects_after settings history
  have inView : viewpoint.settings.Resolve viewpoint.plane := resolve.of_view reflects.view
  have plots :
      ∀ axis,
        ((PerAxis.ofFn fun axis =>
          (SampledComponent.ofFormula? viewpoint axis
            ((after settings history).formulas.get axis)).1).get axis).Plots
          viewpoint axis (curves axis) := by
    intro axis
    rw [PerAxis.get_ofFn]
    exact SampledComponent.ofFormula?_plots viewpoint axis (denotes axis)
  refine ⟨_, reflects.field.trans (fieldAt_of_shown viewpoint shown),
    fun row rowMember col colMember => ⟨?_, ?_⟩⟩
  · exact (VectorField.divergence_plots plots suits inView).cell row col
      (viewpoint.inner_of_mem_Icc rowMember) (viewpoint.inner_of_mem_Icc colMember)
  · exact (VectorField.curl_plots plots suits inView).cell row col
      (viewpoint.inner_of_mem_Icc rowMember) (viewpoint.inner_of_mem_Icc colMember)

/--
The field `(x^3*y, z^2, 0)` on the plane `x = 1/2`, at the cell over `y = -2/5`, `z = 3/5`.
-/
theorem cubic_field_has_its_divergence_and_curl :
    let history : List (Call (PerAxis String) ℝ) :=
      [.definePlane .yz (1 / 2), .setFormula ⟨"x^3*y", "z^2", ""⟩]
    ∃ field,
      (after SliceSettings.fifths history).field = some field ∧
      field.divergence.get 3 4 = -3 / 10 ∧
      field.curl.x.get 3 4 = -6 / 5 := by
  intro history
  let cubic : Expr :=
    .operation .mul (.operation .pow (.coordinate .x) (.number ⟨3, 0⟩)) (.coordinate .y)
  let square : Expr := .operation .pow (.coordinate .z) (.number ⟨2, 0⟩)
  let curves : PerAxis (MvPolynomial Axis ℝ) :=
    { x := X .x ^ 3 * X .y, y := X .z ^ 2, z := 0 }
  have reflects := reflects_after SliceSettings.fifths history
  have read :
      (Recent.ofCalls accepts history).formulas =
        ⟨some ⟨"x^3*y", cubic, none⟩, some ⟨"z^2", square, none⟩, none⟩ := by
    rfl
  have view :
      SameView (after SliceSettings.fifths history).viewpoint
        ((Viewpoint.start SliceSettings.fifths).definePlane .yz (1 / 2)) :=
    reflects.view
  have denotes :
      ∀ axis,
        ComponentDenotes ((after SliceSettings.fifths history).formulas.get axis)
          (curves.get axis) := by
    rw [reflects.formulas, read]
    rintro (_ | _ | _)
    · exact .shown (.mul (.pow (.coordinate .x) (.wholeNumber 3)) (.coordinate .y))
    · exact .shown (.pow (.coordinate .z) (.wholeNumber 2))
    · exact .blank
  have suits : ∀ axis, Plane.yz.Suits (curves.get axis) := by
    rintro (_ | _ | _)
    · exact Plane.yz_suits_power_mul (by decide)
    · exact Plane.yz_suits_square
    · exact Plane.suits_zero .yz
  have shown : allBlank (after SliceSettings.fifths history).formulas = false := by
    rw [reflects.formulas, read]
    rfl
  obtain ⟨field, drawn, exact⟩ :=
    divergence_and_curl_are_exact shown denotes (view.plane ▸ suits)
      (SliceSettings.fifths_resolve _)
  have side : (after SliceSettings.fifths history).viewpoint.settings.side = 11 :=
    congrArg SliceSettings.side view.settings
  have plane : (after SliceSettings.fifths history).viewpoint.plane = .yz := view.plane
  have place :
      (after SliceSettings.fifths history).viewpoint.place 3 4 0 =
        (PerAxis.mk (1 / 2) (-2 / 5) (3 / 5)).get := by
    rw [Viewpoint.place_of_sameView view, Viewpoint.place_fifths]
    norm_num
  rw [side, plane] at exact
  obtain ⟨divergence, curl⟩ := exact 3 (by decide) 4 (by decide)
  rw [place] at divergence curl
  refine ⟨field, drawn, divergence.trans ?_, curl.trans ?_⟩
  · simp [curves, PerAxis.get]
    norm_num
  · simp [curves, PerAxis.get, Plane.columnAxis, Plane.rowAxis]
    norm_num

end VectorSession

end Electrostatics
