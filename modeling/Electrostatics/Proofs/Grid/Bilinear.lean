import Mathlib.Data.Rat.Floor
import Electrostatics.Proofs.Grid.Access
import Electrostatics.Proofs.Grid.Interpolation

namespace Electrostatics.Grid

/-!
# Reading bilinearly

Cells that are linear along either axis are read as such at every position, on the grid and off
it, and at a pair of indices every cell is read as it is.  On any grid the reading stays between
the cells around a position, takes no others in, and goes over from one cell to the next along the
line on the boundary that they share.
-/

open scoped Exact

variable
  {K : Type}
  [Field K]
  [LinearOrder K]

/-- The value at a place of what is linear along either axis. -/
def bilinearValue (level perCol perRow perBoth col row : K) : K :=
  level + perCol * col + perRow * row + perBoth * row * col

variable
  [FloorRing K]
  {grid : Grid K}
  {col row : K}

/-- Cells that are linear along either axis are continued by every patch over them. -/
theorem patch_of_bilinearValue
    {level perCol perRow perBoth : K}
    {top left : Nat}
    (corners :
      ∀ r c : Nat, top ≤ r ∧ r ≤ top + 1 → left ≤ c ∧ c ≤ left + 1 →
        grid.get r c = bilinearValue level perCol perRow perBoth c r)
    (col row : K) :
    grid.patch top (top + 1) left (left + 1) col row =
      bilinearValue level perCol perRow perBoth col row := by
  have first (index : Nat) : index ≤ index ∧ index ≤ index + 1 := ⟨le_rfl, Nat.le_succ index⟩
  have last (index : Nat) : index ≤ index + 1 ∧ index + 1 ≤ index + 1 := ⟨Nat.le_succ index, le_rfl⟩
  simp only [patch, line_neighbours, corners _ _ (first top) (first left),
    corners _ _ (first top) (last left), corners _ _ (last top) (first left),
    corners _ _ (last top) (last left), bilinearValue, Nat.cast_succ]
  ring

/-- The cell of a position ends within the grid. -/
theorem cellBefore_add_two_le
    {count : Nat}
    (pair : 2 ≤ count)
    (position : K) :
    cellBefore count position + 2 ≤ count :=
  Nat.add_le_of_le_sub pair (Nat.min_le_right _ _)

variable
  [IsStrictOrderedRing K]

/-- At a pair of indices the reading is the cell there. -/
theorem bilinear_natCast
    (pairOfRows : 2 ≤ grid.rows)
    (pairOfCols : 2 ≤ grid.cols)
    {r c : Nat}
    (rowInside : 1 ≤ r ∧ r ≤ grid.rows)
    (colInside : 1 ≤ c ∧ c ≤ grid.cols) :
    grid.bilinear (c : K) (r : K) = grid.get r c := by
  have rowOn : 1 ≤ (r : K) ∧ (r : K) ≤ grid.rows :=
    ⟨Nat.one_le_cast.mpr rowInside.1, Nat.cast_le.mpr rowInside.2⟩
  have colOn : 1 ≤ (c : K) ∧ (c : K) ≤ grid.cols :=
    ⟨Nat.one_le_cast.mpr colInside.1, Nat.cast_le.mpr colInside.2⟩
  rw [bilinear_eq_of_liesBetween pairOfRows pairOfCols rowOn colOn (liesBetween_self r)
      (liesBetween_self c),
    patch, line_self, line_self]

/--
Bilinear cells are reproduced everywhere.  If the cells of a grid with two rows and two columns at
least are linear along either axis, the reading at every position, on the grid and off it, is what
they are there; and on every such grid the reading at a pair of indices is exactly the cell.
-/
theorem bilinear_cells_are_reproduced
    {grid : Grid K}
    (pairOfRows : 2 ≤ grid.rows)
    (pairOfCols : 2 ≤ grid.cols) :
    (∀ level perCol perRow perBoth : K,
        (∀ r c : Nat, 1 ≤ r ∧ r ≤ grid.rows → 1 ≤ c ∧ c ≤ grid.cols →
          grid.get r c = bilinearValue level perCol perRow perBoth c r) →
        ∀ col row : K,
          grid.bilinear col row = bilinearValue level perCol perRow perBoth col row) ∧
      ∀ r c : Nat, 1 ≤ r ∧ r ≤ grid.rows → 1 ≤ c ∧ c ≤ grid.cols →
        grid.bilinear (c : K) (r : K) = grid.get r c := by
  refine
    ⟨fun level perCol perRow perBoth cells col row => ?_,
      fun r c => bilinear_natCast pairOfRows pairOfCols⟩
  have lastRow := cellBefore_add_two_le pairOfRows row
  have lastCol := cellBefore_add_two_le pairOfCols col
  rw [bilinear_eq_patch pairOfRows pairOfCols]
  refine patch_of_bilinearValue (fun r c rows cols => cells r c ?_ ?_) col row
  · exact ⟨Nat.le_trans (Nat.le_add_left 1 _) rows.1, rows.2.trans lastRow⟩
  · exact ⟨Nat.le_trans (Nat.le_add_left 1 _) cols.1, cols.2.trans lastCol⟩

/-- Two rows and three columns of bilinear cells are continued to the right and above. -/
theorem bilinear_cells_beyond_a_corner :
    let grid : Grid ℚ := build 2 3 fun r c => bilinearValue 1 2 3 4 (c : ℚ) (r : ℚ)
    (2 ≤ grid.rows ∧ 2 ≤ grid.cols) ∧
      (∀ r c : Nat, 1 ≤ r ∧ r ≤ grid.rows → 1 ≤ c ∧ c ≤ grid.cols →
        grid.get r c = bilinearValue 1 2 3 4 (c : ℚ) (r : ℚ)) ∧
      grid.bilinear (13 / 2) (-1) = -15 ∧
      grid.bilinear 3 2 = grid.get 2 3 := by
  intro grid
  have pairOfRows : 2 ≤ grid.rows := Nat.le_refl 2
  have pairOfCols : 2 ≤ grid.cols := Nat.le_succ 2
  have cells (r c : Nat) (rowInside : 1 ≤ r ∧ r ≤ grid.rows) (colInside : 1 ≤ c ∧ c ≤ grid.cols) :
      grid.get r c = bilinearValue 1 2 3 4 (c : ℚ) (r : ℚ) :=
    get_build _ rowInside colInside
  obtain ⟨everywhere, atIndices⟩ := bilinear_cells_are_reproduced pairOfRows pairOfCols
  refine ⟨⟨pairOfRows, pairOfCols⟩, cells, ?_, ?_⟩
  · rw [everywhere 1 2 3 4 cells, bilinearValue]
    norm_num
  · exact atIndices 2 3 ⟨one_le_two, Nat.le_refl 2⟩ ⟨by decide, Nat.le_refl 3⟩

/--
The reading stays within its cell.  At every position on a grid with two rows and two columns at
least, it lies between the least and the greatest of the four cells at the indices before and
behind the position, and a grid of any size that has the same four cells is read alike.  Where the
position is on a column or a row of cells, the reading is that of the line between the two cells
on that boundary; and it is that of every patch around the position, so two patches that share a
boundary agree on it.
-/
theorem readings_stay_within_their_cell
    (pairOfRows : 2 ≤ grid.rows)
    (pairOfCols : 2 ≤ grid.cols)
    (rowInside : 1 ≤ row ∧ row ≤ grid.rows)
    (colInside : 1 ≤ col ∧ col ≤ grid.cols) :
    (min (min (grid.get ⌊row⌋₊ ⌊col⌋₊) (grid.get ⌊row⌋₊ ⌈col⌉₊))
            (min (grid.get ⌈row⌉₊ ⌊col⌋₊) (grid.get ⌈row⌉₊ ⌈col⌉₊)) ≤
          grid.bilinear col row ∧
        grid.bilinear col row ≤
          max (max (grid.get ⌊row⌋₊ ⌊col⌋₊) (grid.get ⌊row⌋₊ ⌈col⌉₊))
            (max (grid.get ⌈row⌉₊ ⌊col⌋₊) (grid.get ⌈row⌉₊ ⌈col⌉₊))) ∧
      (∀ other : Grid K,
        2 ≤ other.rows → 2 ≤ other.cols → row ≤ other.rows → col ≤ other.cols →
        (∀ r ∈ [⌊row⌋₊, ⌈row⌉₊], ∀ c ∈ [⌊col⌋₊, ⌈col⌉₊], other.get r c = grid.get r c) →
        other.bilinear col row = grid.bilinear col row) ∧
      (∀ c : Nat, col = c → ∀ top bottom, LiesBetween row top bottom →
        grid.bilinear col row = line (fun r => grid.get r c) top bottom row) ∧
      (∀ r : Nat, row = r → ∀ left right, LiesBetween col left right →
        grid.bilinear col row = line (fun c => grid.get r c) left right col) ∧
      ∀ top bottom left right,
        LiesBetween row top bottom → LiesBetween col left right →
        grid.bilinear col row = grid.patch top bottom left right col row := by
  have rows : LiesBetween row ⌊row⌋₊ ⌈row⌉₊ :=
    liesBetween_floor_ceil (zero_le_one.trans rowInside.1)
  have cols : LiesBetween col ⌊col⌋₊ ⌈col⌉₊ :=
    liesBetween_floor_ceil (zero_le_one.trans colInside.1)
  have around {top bottom left right : Nat}
      (rows : LiesBetween row top bottom) (cols : LiesBetween col left right) :
      grid.bilinear col row = grid.patch top bottom left right col row :=
    bilinear_eq_of_liesBetween pairOfRows pairOfCols rowInside colInside rows cols
  refine ⟨⟨?_, ?_⟩, ?_, ?_, ?_, fun _ _ _ _ => around⟩
  · rw [around rows cols]
    exact le_patch rows cols (min_le_left _ _) (min_le_right _ _)
  · rw [around rows cols]
    exact patch_le rows cols (le_max_left _ _) (le_max_right _ _)
  · intro other otherPairOfRows otherPairOfCols rowOn colOn same
    have otherAround :=
      bilinear_eq_of_liesBetween otherPairOfRows otherPairOfCols ⟨rowInside.1, rowOn⟩
        ⟨colInside.1, colOn⟩ rows cols
    rw [otherAround, around rows cols]
    exact patch_congr same
  · rintro c rfl top bottom rows
    rw [around rows (liesBetween_self c)]
    simp only [patch, line_self]
  · rintro r rfl left right cols
    rw [around (liesBetween_self r) cols]
    simp only [patch, line_self]

/--
On the second of three rows, between the last two columns, the reading stays between two cells, is
that of a grid of another size with these two, and is had from the cells above and below alike.
-/
theorem readings_on_a_shared_row :
    let grid : Grid ℚ := ofRows [[1, 2, 3], [4, 5, 7], [6, 8, 10]]
    let other : Grid ℚ := ofRows [[0, 9, 0, 9], [9, 5, 7, 0]]
    ((2 ≤ grid.rows ∧ 2 ≤ grid.cols) ∧
        (1 ≤ (2 : ℚ) ∧ (2 : ℚ) ≤ grid.rows) ∧ (1 ≤ (5 / 2 : ℚ) ∧ (5 / 2 : ℚ) ≤ grid.cols)) ∧
      (LiesBetween (2 : ℚ) 1 2 ∧ LiesBetween (2 : ℚ) 2 3 ∧ LiesBetween (5 / 2 : ℚ) 2 3) ∧
      (5 ≤ grid.bilinear (5 / 2) 2 ∧ grid.bilinear (5 / 2) 2 ≤ 7) ∧
      other.bilinear (5 / 2) 2 = grid.bilinear (5 / 2) 2 ∧
      grid.bilinear (5 / 2) 2 = line (fun c => grid.get 2 c) 2 3 (5 / 2) ∧
      grid.bilinear (5 / 2) 2 = grid.patch 1 2 2 3 (5 / 2) 2 ∧
      grid.bilinear (5 / 2) 2 = grid.patch 2 3 2 3 (5 / 2) 2 := by
  intro grid other
  have pairs : 2 ≤ grid.rows ∧ 2 ≤ grid.cols := by decide
  have rowInside : 1 ≤ (2 : ℚ) ∧ (2 : ℚ) ≤ grid.rows := by decide +kernel
  have colInside : 1 ≤ (5 / 2 : ℚ) ∧ (5 / 2 : ℚ) ≤ grid.cols := by decide +kernel
  have rowAbove : LiesBetween (2 : ℚ) 1 2 := by constructor <;> norm_num
  have rowBelow : LiesBetween (2 : ℚ) 2 3 := by constructor <;> norm_num
  have cols : LiesBetween (5 / 2 : ℚ) 2 3 := by constructor <;> norm_num
  obtain ⟨⟨low, high⟩, sameCells, -, onRow, onPatches⟩ :=
    readings_stay_within_their_cell pairs.1 pairs.2 rowInside colInside
  refine
    ⟨⟨pairs, rowInside, colInside⟩, ⟨rowAbove, rowBelow, cols⟩, ⟨?_, ?_⟩, ?_,
      onRow 2 rfl 2 3 cols, onPatches 1 2 2 3 rowAbove cols, onPatches 2 3 2 3 rowBelow cols⟩
  · exact le_trans (by decide +kernel) low
  · exact high.trans (by decide +kernel)
  · exact sameCells other (by decide) (by decide) (by decide +kernel) (by decide +kernel)
      (by decide +kernel)

end Electrostatics.Grid
