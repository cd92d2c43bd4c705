import Electrostatics.Proofs.Formula.Polynomials
import Electrostatics.Proofs.Grid.Access
import Electrostatics.Proofs.Grid.Stencils
import Electrostatics.Proofs.Slice.Geometry

namespace Electrostatics

/-!
# Slices of polynomials

A grid plots a polynomial if its cells hold the values of the polynomial at their places,
but for a margin at the edges.  In exact arithmetic a sampled grid plots the polynomial of
its formula, and each difference plots a partial derivative, at the price of one more row
and column of margin when it is taken in the plane.
-/

open MvPolynomial
open scoped Exact

variable {K : Type} [Field K]

namespace Plane

/-- A polynomial that the differences on a plane follow: the degrees in its coordinates are low. -/
structure Suits
    (plane : Plane)
    (curve : MvPolynomial Axis K) :
    Prop where
  column : curve.degreeOf plane.columnAxis ≤ 2
  row : curve.degreeOf plane.rowAxis ≤ 2
  normal : curve.degreeOf plane.normalAxis ≤ 4

theorem suits_zero (plane : Plane) : plane.Suits (0 : MvPolynomial Axis K) := by
  constructor <;> simp

theorem Suits.add
    {plane : Plane}
    {first second : MvPolynomial Axis K}
    (firstSuits : plane.Suits first)
    (secondSuits : plane.Suits second) :
    plane.Suits (first + second) where
  column := (degreeOf_add_le _ _ _).trans (max_le firstSuits.column secondSuits.column)
  row := (degreeOf_add_le _ _ _).trans (max_le firstSuits.row secondSuits.row)
  normal := (degreeOf_add_le _ _ _).trans (max_le firstSuits.normal secondSuits.normal)

/-- A power across the plane may be as high as four, here times the coordinate of a column. -/
theorem yz_suits_power_mul
    {power : Nat}
    (low : power ≤ 4) :
    Plane.yz.Suits (X .x ^ power * X .y : MvPolynomial Axis K) := by
  have product := fun axis => degreeOf_mul_le axis (X .x ^ power : MvPolynomial Axis K) (X .y)
  exact {
    column := (product .y).trans (by simp [degreeOf_X_pow_of_ne])
    row := (product .z).trans (by simp [degreeOf_X_pow_of_ne, degreeOf_X_of_ne])
    normal := (product .x).trans (by simpa [degreeOf_X_of_ne] using low)
  }

theorem yz_suits_square : Plane.yz.Suits (X .z ^ 2 : MvPolynomial Axis K) where
  column := by simp [Plane.columnAxis, degreeOf_X_pow_of_ne]
  row := by simp [Plane.rowAxis]
  normal := by simp [Plane.normalAxis, degreeOf_X_pow_of_ne]

end Plane

theorem natCast_succ_sub (index : Nat) :
    ((index + 1 : Nat) : K) - index = 1 := by
  rw [Nat.cast_succ, add_sub_cancel_left]

theorem natCast_pred_sub
    {index : Nat}
    (positive : 0 < index) :
    ((index - 1 : Nat) : K) - index = -1 := by
  rw [Nat.cast_pred positive, sub_sub_cancel_left]

variable [LinearOrder K] [FloorRing K]

/--
A grid plots a polynomial: up to a margin of rows and columns at the edges, each cell holds
the value of the polynomial at its place.
-/
structure Grid.Plots
    (grid : Grid K)
    (viewpoint : Viewpoint K)
    (offset : K)
    (margin : Nat)
    (curve : MvPolynomial Axis K) :
    Prop where
  rows : grid.rows = viewpoint.settings.side
  cols : grid.cols = viewpoint.settings.side
  cell :
    ∀ row col,
      viewpoint.Inner margin row →
      viewpoint.Inner margin col →
      grid.get row col = eval (viewpoint.place row col offset) curve

namespace Grid.Plots

variable
  {grid : Grid K}
  {viewpoint : Viewpoint K}
  {offset : K}
  {margin row col : Nat}
  {curve : MvPolynomial Axis K}

/-- A wider margin asks for less. -/
theorem mono
    {wider : Nat}
    (plots : grid.Plots viewpoint offset margin curve)
    (atMost : margin ≤ wider) :
    grid.Plots viewpoint offset wider curve where
  rows := plots.rows
  cols := plots.cols
  cell := fun row col rowInner colInner =>
    plots.cell row col (rowInner.mono atMost) (colInner.mono atMost)

/-- Off the plane a cell holds the value at the place that lies further along the normal. -/
theorem cell_of_offset
    (plots : grid.Plots viewpoint offset margin curve)
    (rowInner : viewpoint.Inner margin row)
    (colInner : viewpoint.Inner margin col) :
    grid.get row col =
      eval
        (Function.update (viewpoint.place row col 0) viewpoint.plane.normalAxis
          (viewpoint.place row col 0 viewpoint.plane.normalAxis + offset))
        curve := by
  rw [plots.cell row col rowInner colInner, viewpoint.place_of_offset]

/-- A grid built in the size of one that plots is read as it is built. -/
theorem get_build
    (plots : grid.Plots viewpoint offset margin curve)
    (value : Nat → Nat → K)
    {wider : Nat}
    (rowInner : viewpoint.Inner wider row)
    (colInner : viewpoint.Inner wider col) :
    (Grid.build grid.rows grid.cols value).get row col = value row col :=
  Grid.get_build value (plots.rows ▸ rowInner.inside) (plots.cols ▸ colInner.inside)

/-- Along the columns the difference is the partial derivative. -/
theorem columnDifference_eq
    (plots : grid.Plots viewpoint offset margin curve)
    (low : curve.degreeOf viewpoint.plane.columnAxis ≤ 2)
    (wide : viewpoint.settings.IsWide viewpoint.plane.columnAxis)
    (rowInner : viewpoint.Inner (margin + 1) row)
    (colInner : viewpoint.Inner (margin + 1) col) :
    grid.columnDifference row col viewpoint.columnStep =
      eval (viewpoint.place row col offset) (pderiv viewpoint.plane.columnAxis curve) := by
  have apart : viewpoint.columnStep ≠ 0 := colInner.step_ne_zero wide
  have sameRow := rowInner.mono (Nat.le_succ margin)
  have ⟨before, behind⟩ := colInner
  have last : col + 1 ≤ grid.cols := by rw [plots.cols]; omega
  rw [grid.columnDifference_interior row _ (by omega) last,
    plots.cell row (col + 1) sameRow colInner.next,
    plots.cell row (col - 1) sameRow colInner.previous,
    viewpoint.place_of_column row col (col + 1), viewpoint.place_of_column row col (col - 1),
    natCast_succ_sub, natCast_pred_sub (by omega), one_mul, neg_one_mul, ← sub_eq_add_neg,
    Exact.numeral_ofNat]
  exact centralDifference_eq_pderiv low apart _

/-- Along the rows, which run backwards, the difference is minus the partial derivative. -/
theorem rowDifference_eq
    (plots : grid.Plots viewpoint offset margin curve)
    (low : curve.degreeOf viewpoint.plane.rowAxis ≤ 2)
    (wide : viewpoint.settings.IsWide viewpoint.plane.rowAxis)
    (rowInner : viewpoint.Inner (margin + 1) row)
    (colInner : viewpoint.Inner (margin + 1) col) :
    grid.rowDifference row col viewpoint.rowStep =
      -eval (viewpoint.place row col offset) (pderiv viewpoint.plane.rowAxis curve) := by
  have apart : viewpoint.rowStep ≠ 0 := rowInner.step_ne_zero wide
  have sameCol := colInner.mono (Nat.le_succ margin)
  have ⟨before, behind⟩ := rowInner
  have last : row + 1 ≤ grid.rows := by rw [plots.rows]; omega
  -- The next row lies a step back, so the neighbours of the central difference change places.
  rw [grid.rowDifference_interior col _ (by omega) last,
    plots.cell (row + 1) col rowInner.next sameCol,
    plots.cell (row - 1) col rowInner.previous sameCol,
    viewpoint.place_of_row row col (row + 1), viewpoint.place_of_row row col (row - 1),
    natCast_succ_sub, natCast_pred_sub (by omega), one_mul, neg_one_mul, sub_neg_eq_add,
    Exact.numeral_ofNat, ← centralDifference_eq_pderiv low apart, ← neg_div, neg_sub]

/-- The derivative along the columns plots the partial derivative, with a wider margin. -/
theorem alongFirst
    (plots : grid.Plots viewpoint offset margin curve)
    (low : curve.degreeOf viewpoint.plane.columnAxis ≤ 2)
    (wide : viewpoint.settings.IsWide viewpoint.plane.columnAxis) :
    (grid.alongFirst viewpoint.columnStep).Plots viewpoint offset (margin + 1)
      (pderiv viewpoint.plane.columnAxis curve) where
  rows := plots.rows
  cols := plots.cols
  cell := fun _ _ rowInner colInner =>
    (plots.get_build _ rowInner colInner).trans
      (plots.columnDifference_eq low wide rowInner colInner)

/-- The derivative along the rows plots the partial derivative, with a wider margin. -/
theorem alongSecond
    (plots : grid.Plots viewpoint offset margin curve)
    (low : curve.degreeOf viewpoint.plane.rowAxis ≤ 2)
    (wide : viewpoint.settings.IsWide viewpoint.plane.rowAxis) :
    (grid.alongSecond viewpoint.rowStep).Plots viewpoint offset (margin + 1)
      (pderiv viewpoint.plane.rowAxis curve) where
  rows := plots.rows
  cols := plots.cols
  cell := fun _ _ rowInner colInner =>
    (plots.get_build _ rowInner colInner).trans
      (neg_eq_iff_eq_neg.mpr (plots.rowDifference_eq low wide rowInner colInner))

/-- No grid is flat to a bound that is not positive. -/
theorem flatten
    [IsStrictOrderedRing K]
    {epsilon : K}
    (plots : grid.Plots viewpoint offset margin curve)
    (nothing : epsilon ≤ 0) :
    (grid.flatten epsilon).Plots viewpoint offset margin curve := by
  rwa [grid.flatten_of_nonpos nothing]

end Grid.Plots

/-- Samples off the plane plot a polynomial at two steps to either side. -/
structure Viewpoint.OffPlane.Plot
    (off : Viewpoint.OffPlane K)
    (viewpoint : Viewpoint K)
    (curve : MvPolynomial Axis K) :
    Prop where
  below₂ : off.below₂.Plots viewpoint (-(2 • viewpoint.settings.normalStep)) 0 curve
  below₁ : off.below₁.Plots viewpoint (-viewpoint.settings.normalStep) 0 curve
  above₁ : off.above₁.Plots viewpoint viewpoint.settings.normalStep 0 curve
  above₂ : off.above₂.Plots viewpoint (2 • viewpoint.settings.normalStep) 0 curve

namespace Viewpoint.OffPlane.Plot

variable
  {viewpoint : Viewpoint K}
  {off : Viewpoint.OffPlane K}
  {value : Grid K}
  {curve : MvPolynomial Axis K}

/-- The rule for the slope along the normal plots the partial derivative everywhere. -/
theorem normalDerivative
    (plot : off.Plot viewpoint curve)
    (low : curve.degreeOf viewpoint.plane.normalAxis ≤ 4)
    (apart : viewpoint.settings.normalStep ≠ 0) :
    (normalDerivative viewpoint.settings.side off viewpoint.settings.normalStep).Plots
      viewpoint 0 0 (pderiv viewpoint.plane.normalAxis curve) where
  rows := rfl
  cols := rfl
  cell := fun row col rowInner colInner => by
    rw [Electrostatics.normalDerivative, Grid.get_build _ rowInner.inside colInner.inside,
      plot.below₂.cell_of_offset rowInner colInner,
      plot.below₁.cell_of_offset rowInner colInner,
      plot.above₁.cell_of_offset rowInner colInner,
      plot.above₂.cell_of_offset rowInner colInner]
    simp only [nsmul_eq_mul, Nat.cast_ofNat, ← sub_eq_add_neg]
    exact fivePointFirst_eq_pderiv low apart _

/-- The rule for the second derivative along the normal. -/
theorem normalSecondDerivative
    (plot : off.Plot viewpoint curve)
    (plots : value.Plots viewpoint 0 0 curve)
    (low : curve.degreeOf viewpoint.plane.normalAxis ≤ 4)
    (apart : viewpoint.settings.normalStep ≠ 0) :
    (normalSecondDerivative viewpoint.settings.side value off
        viewpoint.settings.normalStep).Plots
      viewpoint 0 0
        (pderiv viewpoint.plane.normalAxis (pderiv viewpoint.plane.normalAxis curve)) where
  rows := rfl
  cols := rfl
  cell := fun row col rowInner colInner => by
    rw [Electrostatics.normalSecondDerivative,
      Grid.get_build _ rowInner.inside colInner.inside, plots.cell row col rowInner colInner,
      plot.below₂.cell_of_offset rowInner colInner,
      plot.below₁.cell_of_offset rowInner colInner,
      plot.above₁.cell_of_offset rowInner colInner,
      plot.above₂.cell_of_offset rowInner colInner]
    simp only [nsmul_eq_mul, Nat.cast_ofNat, ← sub_eq_add_neg]
    exact fivePointSecond_eq_pderiv (low.trans (Nat.le_succ 4)) apart _

end Viewpoint.OffPlane.Plot

section Sampling

variable
  [Elementary K]
  [Exact.WholePowers K]
  [IsStrictOrderedRing K]
  {formula : Formula}
  {curve : MvPolynomial Axis K}

/-- The samples of a formula plot the polynomial that it denotes. -/
theorem Viewpoint.sample_plots
    (viewpoint : Viewpoint K)
    (offset : K)
    (denotes : formula.tree.Denotes curve) :
    ((viewpoint.sample offset).run formula).1.Plots viewpoint offset 0 curve where
  rows := rfl
  cols := rfl
  cell := fun row col rowInner colInner => by
    have everywhere :
        ((viewpoint.sample offset).run formula).1 =
          Grid.build viewpoint.settings.side viewpoint.settings.side fun row col =>
            Formula.softened (Viewpoint.outcomeAt formula
              (viewpoint.worldPoint (row : K) (col : K) offset)) :=
      Grid.map_build _ _ _ _
    rw [everywhere, Grid.get_build _ rowInner.inside colInner.inside, Viewpoint.outcomeAt,
      Formula.tryEvaluate_of_denotes denotes, Formula.softened]
    congr 2
    funext axis
    cases axis <;> rfl

theorem Viewpoint.sampleOffPlane_plot
    (viewpoint : Viewpoint K)
    (denotes : formula.tree.Denotes curve) :
    (viewpoint.sampleOffPlane.run formula).1.Plot viewpoint curve where
  below₂ := by
    rw [nsmul_eq_mul, ← neg_mul]
    exact viewpoint.sample_plots _ denotes
  below₁ := viewpoint.sample_plots _ denotes
  above₁ := viewpoint.sample_plots _ denotes
  above₂ := by
    rw [nsmul_eq_mul]
    exact viewpoint.sample_plots _ denotes

end Sampling

end Electrostatics
