import Electrostatics.Proofs.Grid.Access
import Electrostatics.Proofs.Number.DoubleRanks

namespace Electrostatics.Grid

/-!
# The bounds of a block

A block is given by a range of rows and one of columns, which may be empty, run backwards or
reach past the grid.  What is looked at are exactly the cells of the grid that lie in the block,
and the bounds are their extrema.  A block without such cells has the bounds of no value.
-/

open scoped Scalar

/-- A range of rows and one of columns, both ends included. -/
structure Block where
  firstRow : Nat
  lastRow : Nat
  firstCol : Nat
  lastCol : Nat
  deriving Repr, DecidableEq

/-- A place whose row and column lie in the ranges of a block. -/
def Block.Contains
    (block : Block)
    (row col : Nat) : Prop :=
  (block.firstRow ≤ row ∧ row ≤ block.lastRow) ∧ block.firstCol ≤ col ∧ col ≤ block.lastCol

section Cells

variable {α : Type}

/-- A place where a grid has a cell. -/
def HasCell
    (grid : Grid α)
    (row col : Nat) : Prop :=
  (1 ≤ row ∧ row ≤ grid.rows) ∧ 1 ≤ col ∧ col ≤ grid.cols

/-- A place in a block where a grid has a cell. -/
def Meets
    (grid : Grid α)
    (block : Block)
    (row col : Nat) : Prop :=
  grid.HasCell row col ∧ block.Contains row col

/-- The places of a grid that are looked at for a block, row by row. -/
def placesIn
    (grid : Grid α)
    (block : Block) : List (Nat × Nat) :=
  (indices (max block.firstRow 1) (min block.lastRow grid.rows)).flatMap fun row =>
    (indices (max block.firstCol 1) (min block.lastCol grid.cols)).map fun col => (row, col)

variable
  {grid : Grid α}
  {block : Block}

/-- Clipping a block at all four sides leaves the places where it meets the grid, and no other. -/
theorem mem_placesIn_iff {row col : Nat} :
    (row, col) ∈ grid.placesIn block ↔ grid.Meets block row col := by
  simp only [placesIn, List.mem_flatMap, List.mem_map, mem_indices, Nat.max_le, Nat.le_min,
    Prod.mk.injEq]
  constructor
  · rintro ⟨_, ⟨⟨fromRow, first⟩, toRow, last⟩, _, ⟨⟨fromCol, left⟩, toCol, right⟩, rfl, rfl⟩
    exact ⟨⟨⟨first, last⟩, left, right⟩, ⟨fromRow, toRow⟩, fromCol, toCol⟩
  · rintro ⟨⟨⟨first, last⟩, left, right⟩, ⟨fromRow, toRow⟩, fromCol, toCol⟩
    exact ⟨row, ⟨⟨fromRow, first⟩, toRow, last⟩, col, ⟨⟨fromCol, left⟩, toCol, right⟩, rfl, rfl⟩

variable [Scalar α]

/-- The cells of a grid that are looked at for a block. -/
def cellsIn
    (grid : Grid α)
    (block : Block) : List α :=
  grid.block block.firstRow block.lastRow block.firstCol block.lastCol

/-- The bounds of the part of a grid that lies in a block. -/
def boundsOf
    (grid : Grid α)
    (block : Block) : α × α :=
  grid.boundsIn block.firstRow block.lastRow block.firstCol block.lastCol

theorem cellsIn_eq_map
    (grid : Grid α)
    (block : Block) :
    grid.cellsIn block = (grid.placesIn block).map fun place => grid.get place.1 place.2 := by
  simp only [cellsIn, Grid.block, placesIn, List.map_flatMap, List.map_map, Function.comp_def]

theorem mem_cellsIn_iff {cell : α} :
    cell ∈ grid.cellsIn block ↔
      ∃ row col, grid.Meets block row col ∧ grid.get row col = cell := by
  simp only [cellsIn_eq_map, List.mem_map, Prod.exists, mem_placesIn_iff]

theorem get_mem_cellsIn
    {row col : Nat}
    (meets : grid.Meets block row col) :
    grid.get row col ∈ grid.cellsIn block :=
  mem_cellsIn_iff.mpr ⟨row, col, meets, rfl⟩

theorem mem_toList_of_mem_cellsIn
    {cell : α}
    (met : cell ∈ grid.cellsIn block) :
    cell ∈ grid.toList := by
  obtain ⟨row, col, ⟨⟨rowInside, colInside⟩, _⟩, same⟩ := mem_cellsIn_iff.mp met
  exact mem_toList_iff.mpr ⟨row, col, rowInside, colInside, same⟩

/-- A range that covers the indices from one on is clipped to all of them. -/
theorem indices_clipped
    {first last count : Nat}
    (start : first ≤ 1)
    (reached : count ≤ last) :
    indices (max first 1) (min last count) = indices 1 count := by
  rw [Nat.max_eq_right start, Nat.min_eq_right reached]

/-- A block that covers the grid contains all its cells, each at its place in the order. -/
theorem cellsIn_of_covers
    (covers : ∀ row col, grid.HasCell row col → block.Contains row col) :
    grid.cellsIn block = grid.toList := by
  by_cases inhabited : 1 ≤ grid.rows ∧ 1 ≤ grid.cols
  · obtain ⟨someRow, someCol⟩ := inhabited
    obtain ⟨⟨firstRow, _⟩, firstCol, _⟩ :=
      covers 1 1 ⟨⟨Nat.le_refl 1, someRow⟩, Nat.le_refl 1, someCol⟩
    obtain ⟨⟨_, lastRow⟩, _, lastCol⟩ :=
      covers grid.rows grid.cols ⟨⟨someRow, Nat.le_refl _⟩, someCol, Nat.le_refl _⟩
    have whole := toList_build grid.rows grid.cols grid.get
    rw [grid.build_get] at whole
    rw [whole, cellsIn, Grid.block, indices_clipped firstRow lastRow,
      indices_clipped firstCol lastCol]
  · have noCell : ∀ cell, cell ∉ grid.toList := by
      intro cell met
      obtain ⟨row, col, rowInside, colInside, _⟩ := mem_toList_iff.mp met
      exact inhabited
        ⟨Nat.le_trans rowInside.1 rowInside.2, Nat.le_trans colInside.1 colInside.2⟩
    rw [List.eq_nil_iff_forall_not_mem.mpr noCell]
    exact List.eq_nil_iff_forall_not_mem.mpr fun cell met =>
      noCell cell (mem_toList_of_mem_cellsIn met)

theorem boundsOf_of_covers
    (covers : ∀ row col, grid.HasCell row col → block.Contains row col) :
    grid.boundsOf block = grid.bounds := by
  have cells := cellsIn_of_covers covers
  rw [cellsIn] at cells
  rw [boundsOf, boundsIn, cells, bounds]

end Cells

section Extrema

variable
  {α : Type}
  [Scalar α]
  [LinearNumbers α]
  {grid : Grid α}
  {block : Block}

/-- The bounds of a block with a number are the least and the greatest number of its cells. -/
theorem boundsOf_extreme
    {row col : Nat}
    (meets : grid.Meets block row col)
    (number : Scalar.isNumber (grid.get row col) = true) :
    IsLeastNumber (grid.cellsIn block) (grid.boundsOf block).1 ∧
      IsGreatestNumber (grid.cellsIn block) (grid.boundsOf block).2 :=
  rangeBounds_of_number (get_mem_cellsIn meets) number

/-- A block that shares no cell with the grid has the bounds of no value. -/
theorem boundsOf_of_apart (apart : ¬∃ row col, grid.Meets block row col) :
    grid.boundsOf block = (Scalar.unbounded, -Scalar.unbounded) := by
  refine rangeBounds_of_undefined fun cell met => ?_
  obtain ⟨row, col, meets, _⟩ := mem_cellsIn_iff.mp met
  exact absurd ⟨row, col, meets⟩ apart

end Extrema

section Doubles

variable
  {grid : Grid Float}
  (numbers : ∀ cell ∈ grid.toList, Scalar.isNumber cell = true)
include numbers

theorem isNumber_of_meets
    {block : Block}
    {row col : Nat}
    (meets : grid.Meets block row col) :
    Scalar.isNumber (grid.get row col) = true :=
  numbers _ (mem_toList_of_mem_cellsIn (get_mem_cellsIn meets))

theorem between_boundsOf
    {block : Block}
    {row col : Nat}
    (meets : grid.Meets block row col) :
    (grid.boundsOf block).1 ≤ grid.get row col ∧ grid.get row col ≤ (grid.boundsOf block).2 := by
  have number := isNumber_of_meets numbers meets
  have met := get_mem_cellsIn meets
  obtain ⟨least, greatest⟩ := boundsOf_extreme meets number
  exact ⟨least.bounds _ met number, greatest.bounds _ met number⟩

theorem boundsOf_attained
    {block : Block}
    (shared : ∃ row col, grid.Meets block row col) :
    (∃ row col, grid.Meets block row col ∧ grid.get row col = (grid.boundsOf block).1) ∧
      ∃ row col, grid.Meets block row col ∧ grid.get row col = (grid.boundsOf block).2 := by
  obtain ⟨row, col, meets⟩ := shared
  obtain ⟨least, greatest⟩ := boundsOf_extreme meets (isNumber_of_meets numbers meets)
  exact ⟨mem_cellsIn_iff.mp least.mem, mem_cellsIn_iff.mp greatest.mem⟩

theorem boundsOf_eq_unbounded_iff {block : Block} :
    grid.boundsOf block = (Scalar.unbounded, -Scalar.unbounded) ↔
      ¬∃ row col, grid.Meets block row col := by
  refine ⟨?_, boundsOf_of_apart⟩
  rintro backwards ⟨row, col, meets⟩
  obtain ⟨low, high⟩ := between_boundsOf numbers meets
  rw [backwards] at low high
  exact Double.not_unbounded_le_neg (LinearNumbers.le_trans low high)

/-- The bounds of a block are numbers, also if it shares no cell with the grid. -/
theorem isNumber_boundsOf (block : Block) :
    Scalar.isNumber (grid.boundsOf block).1 = true ∧
      Scalar.isNumber (grid.boundsOf block).2 = true := by
  by_cases shared : ∃ row col, grid.Meets block row col
  · obtain ⟨row, col, meets⟩ := shared
    obtain ⟨least, greatest⟩ := boundsOf_extreme meets (isNumber_of_meets numbers meets)
    exact ⟨least.isNumber, greatest.isNumber⟩
  · rw [boundsOf_of_apart shared]
    exact ⟨rfl, rfl⟩

/-- A block that contains more of the grid has bounds that are no closer. -/
theorem boundsOf_mono
    {narrow wide : Block}
    (wider :
      ∀ row col, grid.HasCell row col → narrow.Contains row col → wide.Contains row col) :
    (grid.boundsOf wide).1 ≤ (grid.boundsOf narrow).1 ∧
      (grid.boundsOf narrow).2 ≤ (grid.boundsOf wide).2 := by
  by_cases shared : ∃ row col, grid.Meets narrow row col
  · obtain ⟨⟨lowRow, lowCol, lowMeets, low⟩, highRow, highCol, highMeets, high⟩ :=
      boundsOf_attained numbers shared
    have widened : ∀ {row col}, grid.Meets narrow row col → grid.Meets wide row col :=
      fun meets => ⟨meets.1, wider _ _ meets.1 meets.2⟩
    rw [← low, ← high]
    exact
      ⟨(between_boundsOf numbers (widened lowMeets)).1,
        (between_boundsOf numbers (widened highMeets)).2⟩
  · obtain ⟨lowNumber, highNumber⟩ := isNumber_boundsOf numbers wide
    rw [boundsOf_of_apart shared]
    exact ⟨Double.le_unbounded lowNumber, Double.neg_unbounded_le highNumber⟩

end Doubles

/--
The bounds of a block are the least and the greatest of exactly the cells that lie both in the
block and in the grid, each of them the value of such a cell.  They run backwards from end to
end exactly if there is no such cell.  A block that covers the grid has the bounds of the grid,
and a wider block never has closer bounds.
-/
theorem block_bounds_are_extrema
    {grid : Grid Float}
    (numbers : ∀ cell ∈ grid.toList, Scalar.isNumber cell = true) :
    (∀ block,
        (∀ row col,
          grid.Meets block row col →
            (grid.boundsOf block).1 ≤ grid.get row col ∧
              grid.get row col ≤ (grid.boundsOf block).2) ∧
          ((∃ row col, grid.Meets block row col) →
            (∃ row col, grid.Meets block row col ∧ grid.get row col = (grid.boundsOf block).1) ∧
              ∃ row col,
                grid.Meets block row col ∧ grid.get row col = (grid.boundsOf block).2) ∧
          (grid.boundsOf block = (Scalar.unbounded, -Scalar.unbounded) ↔
            ¬∃ row col, grid.Meets block row col)) ∧
      (∀ block : Block,
        (∀ row col, grid.HasCell row col → block.Contains row col) →
        grid.bounds = grid.boundsOf block) ∧
      (∀ narrow wide : Block,
        (∀ row col, grid.HasCell row col → narrow.Contains row col → wide.Contains row col) →
        (grid.boundsOf wide).1 ≤ (grid.boundsOf narrow).1 ∧
          (grid.boundsOf narrow).2 ≤ (grid.boundsOf wide).2) :=
  ⟨fun _ =>
      ⟨fun _ _ => between_boundsOf numbers, boundsOf_attained numbers,
        boundsOf_eq_unbounded_iff numbers⟩,
    fun _ covers => (boundsOf_of_covers covers).symm,
    fun _ _ => boundsOf_mono numbers⟩

/-- A block that reaches past the right edge, one that runs backwards and one around the grid. -/
theorem bounds_of_a_clipped_and_an_empty_block :
    let grid : Grid Float := ofRows [[3, -1, 7], [2, 9, -5]]
    (∀ cell ∈ grid.toList, Scalar.isNumber cell = true) ∧
      (∃ row col, grid.Meets ⟨0, 1, 2, 9⟩ row col ∧ grid.get row col = -1) ∧
      grid.boundsOf ⟨2, 1, 1, 3⟩ = (Scalar.unbounded, -Scalar.unbounded) ∧
      grid.bounds = grid.boundsOf ⟨0, 2, 1, 4⟩ ∧
      grid.bounds.1 ≤ -1 := by
  intro grid
  have numbers : ∀ cell ∈ grid.toList, Scalar.isNumber cell = true := by decide +kernel
  obtain ⟨extrema, covered, widened⟩ := block_bounds_are_extrema numbers
  have clipped : (grid.boundsOf ⟨0, 1, 2, 9⟩).1 = -1 := by decide +kernel
  have shared : ∃ row col, grid.Meets ⟨0, 1, 2, 9⟩ row col :=
    ⟨1, 2, by simp [Meets, HasCell, Block.Contains, grid, ofRows, build]⟩
  have around : ∀ row col, grid.HasCell row col → Block.Contains ⟨0, 2, 1, 4⟩ row col := by
    rintro row col ⟨⟨_, lastRow⟩, firstCol, lastCol⟩
    exact ⟨⟨Nat.zero_le row, lastRow⟩, firstCol, Nat.le_trans lastCol (by decide)⟩
  have whole := covered _ around
  refine ⟨numbers, ?_, ?_, whole, ?_⟩
  · rw [← clipped]
    exact ((extrema _).2.1 shared).1
  · refine (extrema _).2.2.mpr ?_
    rintro ⟨row, col, _, ⟨first, last⟩, _⟩
    exact absurd (Nat.le_trans first last) (by decide)
  · rw [whole, ← clipped]
    exact (widened _ _ fun row col inside _ => around row col inside).1

end Electrostatics.Grid
