import Electrostatics.Proofs.Grid.Access
import Mathlib.Data.Rat.Floor
import Mathlib.Tactic.Linarith

namespace Electrostatics.Grid

/-!
# Flat grids

A grid that varies by less than a bound is given one value between its least and its greatest
cell, so no cell moves further than the grid varies.  That value is zero if there are cells
on both sides of zero.  What has been flattened varies no more and is kept as it is.
-/

section Filling

variable
  {α : Type}
  [Scalar α]
  {grid : Grid α}
  {epsilon : α}

open scoped Scalar

theorem fill_eq_filled
    (grid : Grid α)
    (value : α) :
    grid.fill value = filled grid.rows grid.cols value := by
  rw [← build_const, fill]
  conv_lhs => rw [← grid.build_get, map_build]

theorem eq_of_mem_filled
    {rows cols : Nat}
    {value cell : α}
    (met : cell ∈ (filled rows cols value).toList) :
    cell = value := by
  obtain ⟨row, col, rowInside, colInside, same⟩ := mem_toList_iff.mp met
  rw [← same, ← build_const]
  exact get_build _ rowInside colInside

/-- Where there is a row and a column, there is a cell. -/
theorem get_one_mem_toList
    (inhabited : 1 ≤ grid.rows ∧ 1 ≤ grid.cols) :
    grid.get 1 1 ∈ grid.toList :=
  mem_toList_iff.mpr ⟨1, 1, ⟨le_rfl, inhabited.1⟩, ⟨le_rfl, inhabited.2⟩, rfl⟩

theorem isFlat_iff :
    grid.isFlat epsilon = true ↔ grid.bounds.2 - grid.bounds.1 < epsilon :=
  decide_eq_true_iff

theorem flatten_of_isFlat (flat : grid.isFlat epsilon = true) :
    grid.flatten epsilon = filled grid.rows grid.cols grid.flatValue := by
  rw [flatten, if_pos flat, fill_eq_filled]

theorem flatten_of_not_isFlat (varies : grid.isFlat epsilon = false) :
    grid.flatten epsilon = grid := by
  rw [flatten, varies]
  exact if_neg Bool.false_ne_true

end Filling

open scoped Exact

variable
  {K : Type}
  [Field K]
  [LinearOrder K]
  [FloorRing K]
  [IsStrictOrderedRing K]
  {grid : Grid K}
  {epsilon : K}

/-- The bounds of a grid that has cells are its least and its greatest cell. -/
theorem bounds_extreme (inhabited : 1 ≤ grid.rows ∧ 1 ≤ grid.cols) :
    IsLeast {cell | cell ∈ grid.toList} grid.bounds.1 ∧
      IsGreatest {cell | cell ∈ grid.toList} grid.bounds.2 := by
  obtain ⟨least, greatest⟩ :=
    bounds_of_number (get_one_mem_toList inhabited) (decide_eq_true rfl)
  exact
    ⟨⟨least.mem, fun cell met => least.bounds cell met (decide_eq_true rfl)⟩,
      ⟨greatest.mem, fun cell met => greatest.bounds cell met (decide_eq_true rfl)⟩⟩

/-- Bounds that differ in sign have cells on both sides of zero between them. -/
theorem bounds_mul_neg_iff (inhabited : 1 ≤ grid.rows ∧ 1 ≤ grid.cols) :
    grid.bounds.1 * grid.bounds.2 < 0 ↔
      (∃ cell ∈ grid.toList, cell < 0) ∧ ∃ cell ∈ grid.toList, 0 < cell := by
  obtain ⟨least, greatest⟩ := bounds_extreme inhabited
  have inOrder := grid.bounds_inOrder
  constructor
  · intro signs
    rcases mul_neg_iff.mp signs with ⟨positive, negative⟩ | ⟨negative, positive⟩
    · exact absurd (positive.trans_le inOrder) negative.not_gt
    · exact ⟨⟨_, least.1, negative⟩, ⟨_, greatest.1, positive⟩⟩
  · rintro ⟨⟨below, belowMet, negative⟩, ⟨above, aboveMet, positive⟩⟩
    exact
      mul_neg_of_neg_of_pos ((least.2 belowMet).trans_lt negative)
        (positive.trans_le (greatest.2 aboveMet))

/-- The value of a flat grid lies between its bounds. -/
theorem flatValue_between (grid : Grid K) :
    grid.bounds.1 ≤ grid.flatValue ∧ grid.flatValue ≤ grid.bounds.2 := by
  have inOrder := grid.bounds_inOrder
  unfold flatValue
  simp only [Exact.numeral_zero, Exact.numeral_ofNat]
  split
  case isTrue signs =>
    rcases mul_neg_iff.mp signs with ⟨positive, negative⟩ | ⟨negative, positive⟩
    · exact absurd (positive.trans_le inOrder) negative.not_gt
    · exact ⟨negative.le, positive.le⟩
  case isFalse =>
    constructor <;> linarith

/-- Cells between the bounds of a flat grid are near its value. -/
theorem abs_flatValue_sub_lt
    (flat : grid.isFlat epsilon = true)
    {cell : K}
    (above : grid.bounds.1 ≤ cell)
    (below : cell ≤ grid.bounds.2) :
    |grid.flatValue - cell| < epsilon := by
  have spread := isFlat_iff.mp flat
  obtain ⟨low, high⟩ := grid.flatValue_between
  rw [abs_lt]
  constructor <;> linarith

theorem bounds_filled
    {rows cols : Nat}
    (inhabited : 1 ≤ rows ∧ 1 ≤ cols)
    (value : K) :
    (filled rows cols value).bounds = (value, value) := by
  let flat := filled rows cols value
  have extreme :
      IsLeast {cell | cell ∈ flat.toList} flat.bounds.1 ∧
        IsGreatest {cell | cell ∈ flat.toList} flat.bounds.2 :=
    bounds_extreme inhabited
  exact Prod.ext (eq_of_mem_filled extreme.1.1) (eq_of_mem_filled extreme.2.1)

/-- A grid of one value keeps it. -/
theorem flatten_filled
    {rows cols : Nat}
    (inhabited : 1 ≤ rows ∧ 1 ≤ cols)
    (value epsilon : K) :
    (filled rows cols value).flatten epsilon = filled rows cols value := by
  have kept : (filled rows cols value).flatValue = value := by
    simp only [flatValue, bounds_filled inhabited, Exact.numeral_zero, Exact.numeral_ofNat,
      if_neg (mul_self_nonneg value).not_gt, add_self_div_two]
  cases flat : (filled rows cols value).isFlat epsilon with
  | true => rw [flatten_of_isFlat flat, kept]; rfl
  | false => exact flatten_of_not_isFlat flat

/--
Flattening is a bounded projection.  A grid counts as flat exactly if its cells are all less
than the bound apart, and one that does not is kept.  A flat grid is filled with one value:
zero if it has cells on both sides of zero, and else the middle between its least and its
greatest cell.  Every cell moves by less than the bound, and nothing moves a second time.
-/
theorem flattening_is_a_bounded_projection
    {grid : Grid K}
    (inhabited : 1 ≤ grid.rows ∧ 1 ≤ grid.cols)
    (epsilon : K) :
    ∃ low high,
      IsLeast {cell | cell ∈ grid.toList} low ∧
      IsGreatest {cell | cell ∈ grid.toList} high ∧
      (grid.isFlat epsilon = true ↔ high - low < epsilon) ∧
      (grid.isFlat epsilon = false → grid.flatten epsilon = grid) ∧
      (grid.isFlat epsilon = true →
        ∃ level,
          grid.flatten epsilon = filled grid.rows grid.cols level ∧
          level =
            (if (∃ cell ∈ grid.toList, cell < 0) ∧ ∃ cell ∈ grid.toList, 0 < cell then
              0
            else
              (low + high) / 2) ∧
          (∀ row col,
            1 ≤ row ∧ row ≤ grid.rows →
            1 ≤ col ∧ col ≤ grid.cols →
            |level - grid.get row col| < epsilon) ∧
          (grid.flatten epsilon).flatten epsilon = grid.flatten epsilon) := by
  obtain ⟨least, greatest⟩ := bounds_extreme inhabited
  refine
    ⟨grid.bounds.1, grid.bounds.2, least, greatest, isFlat_iff, flatten_of_not_isFlat,
      fun flat => ?_⟩
  have level :
      grid.flatValue =
        if (∃ cell ∈ grid.toList, cell < 0) ∧ ∃ cell ∈ grid.toList, 0 < cell then
          0
        else
          (grid.bounds.1 + grid.bounds.2) / 2 := by
    simp only [flatValue, Exact.numeral_zero, Exact.numeral_ofNat, bounds_mul_neg_iff inhabited]
  have flattened := flatten_of_isFlat flat
  refine ⟨grid.flatValue, flattened, level, fun row col rowInside colInside => ?_, ?_⟩
  · have met : grid.get row col ∈ grid.toList :=
      mem_toList_iff.mpr ⟨row, col, rowInside, colInside, rfl⟩
    exact abs_flatValue_sub_lt flat (least.2 met) (greatest.2 met)
  · rw [flattened]
    exact flatten_filled inhabited grid.flatValue epsilon

/-- A grid that touches zero from above is flattened to its middle, and that only once. -/
theorem flattening_beside_zero :
    let grid : Grid ℚ := ofRows [[1 / 8, 1 / 4, 0], [0, 1 / 8, 1 / 16]]
    (1 ≤ grid.rows ∧ 1 ≤ grid.cols) ∧
      grid.isFlat (1 / 2) = true ∧
      grid.flatten (1 / 2) = filled 2 3 (1 / 8) ∧
      (grid.flatten (1 / 2)).flatten (1 / 2) = filled 2 3 (1 / 8) := by
  intro grid
  have inhabited : 1 ≤ grid.rows ∧ 1 ≤ grid.cols := by decide
  have oneSided : ¬((∃ cell ∈ grid.toList, cell < 0) ∧ ∃ cell ∈ grid.toList, 0 < cell) := by
    decide +kernel
  have flat : grid.isFlat (1 / 2) = true := by decide +kernel
  obtain ⟨low, high, least, greatest, -, -, flattens⟩ :=
    flattening_is_a_bounded_projection inhabited (1 / 2)
  obtain ⟨level, flattened, levelIs, -, again⟩ := flattens flat
  have lowIs : low = 0 :=
    least.unique ⟨by decide +kernel, show ∀ cell ∈ grid.toList, 0 ≤ cell by decide +kernel⟩
  have highIs : high = 1 / 4 :=
    greatest.unique
      ⟨by decide +kernel, show ∀ cell ∈ grid.toList, cell ≤ 1 / 4 by decide +kernel⟩
  have middle : ((0 : ℚ) + 1 / 4) / 2 = 1 / 8 := by norm_num
  rw [if_neg oneSided, lowIs, highIs, middle] at levelIs
  subst levelIs
  exact ⟨inhabited, flat, flattened, again.trans flattened⟩

end Electrostatics.Grid
