import Electrostatics.Grid.Lookup
import Electrostatics.Proofs.Number.Between
import Electrostatics.Proofs.Number.Exact

namespace Electrostatics.Grid

/-!
# Lines and patches between indices

The bilinear reading of a grid is a line between two rows, each of which is a line between two
columns.  A position that lies between two indices, the same or neighbours, has one height on the
line between them, whichever two they are.  So inside the grid the reading is that of every patch
around the position.
-/

open scoped Exact

variable
  {K : Type}
  [Field K]
  [LinearOrder K]

/-- A position between two indices that are the same or neighbours. -/
structure LiesBetween
    (position : K)
    (low high : Nat) :
    Prop where
  low_le : (low : K) ≤ position
  le_high : position ≤ (high : K)
  adjacent : high ≤ low + 1

theorem liesBetween_self (index : Nat) :
    LiesBetween (index : K) index index where
  low_le := le_rfl
  le_high := le_rfl
  adjacent := Nat.le_succ index

variable
  [FloorRing K]
  {position : K}

theorem liesBetween_floor_ceil (nonnegative : 0 ≤ position) :
    LiesBetween position ⌊position⌋₊ ⌈position⌉₊ where
  low_le := Nat.floor_le nonnegative
  le_high := Nat.le_ceil position
  adjacent := Nat.ceil_le_floor_add_one position

/-- The height at a position on the straight line through the values at two indices. -/
def line
    (value : Nat → K)
    (low high : Nat)
    (position : K) :
    K :=
  interpolateLine position (low : K) (value low) (high : K) (value high)

/-- The height at a position on the line between two rows of lines between two columns. -/
def patch
    (grid : Grid K)
    (top bottom left right : Nat)
    (col row : K) :
    K :=
  line (fun index => line (grid.get index) left right col) top bottom row

/-! ## Lines -/

/-- Through one index the line is level. -/
theorem line_self (value : Nat → K) (index : Nat) (position : K) :
    line value index index position = value index :=
  if_pos (decide_eq_true rfl)

/-- Through neighbours the line rises by the difference of their values. -/
theorem line_neighbours (value : Nat → K) (low : Nat) (position : K) :
    line value low (low + 1) position =
      value low + (position - low) * (value (low + 1) - value low) := by
  have step : ((low + 1 : Nat) : K) - low = 1 := by
    rw [Nat.cast_succ, add_sub_cancel_left]
  have apart : ((low + 1 : Nat) : K) ≠ low := sub_ne_zero.mp (step ▸ one_ne_zero)
  have rises :
      line value low (low + 1) position =
        value low +
          (value (low + 1) - value low) * (position - low) / (((low + 1 : Nat) : K) - low) :=
    if_neg (mt of_decide_eq_true apart)
  rw [rises, step, div_one, mul_comm]

/-- At its first index a line has the value there. -/
theorem line_at_low (value : Nat → K) (low : Nat) :
    line value low (low + 1) (low : K) = value low := by
  rw [line_neighbours, sub_self, zero_mul, add_zero]

variable
  [IsStrictOrderedRing K]
  {value : Nat → K}
  {low high otherLow otherHigh : Nat}
  {bound : K}

/-- The indices that a position lies between are in order. -/
theorem LiesBetween.low_le_high (between : LiesBetween position low high) :
    low ≤ high :=
  Nat.cast_le.mp (between.low_le.trans between.le_high)

/-- At its last index a line has the value there. -/
theorem line_at_high (between : LiesBetween (high : K) low high) :
    line value low high (high : K) = value high := by
  rcases Nat.le_or_eq_of_le_succ between.adjacent with same | rfl
  · obtain rfl := between.low_le_high.antisymm same
    exact line_self value low (low : K)
  · rw [line_neighbours, Nat.cast_succ, add_sub_cancel_left, one_mul, add_sub_cancel]

/-- A line stays between its two values. -/
theorem line_mem_uIcc (between : LiesBetween position low high) :
    line value low high position ∈ Set.uIcc (value low) (value high) := by
  rcases Nat.le_or_eq_of_le_succ between.adjacent with same | rfl
  · obtain rfl := between.low_le_high.antisymm same
    rw [line_self]
    exact Set.left_mem_uIcc
  · have part : position - low ≤ 1 := by
      rw [sub_le_iff_le_add', ← Nat.cast_succ]
      exact between.le_high
    rw [line_neighbours]
    exact part_of_the_way_mem_uIcc (sub_nonneg.mpr between.low_le) part

theorem le_line
    (between : LiesBetween position low high)
    (below : bound ≤ value low)
    (belowOther : bound ≤ value high) :
    bound ≤ line value low high position :=
  (le_min below belowOther).trans (line_mem_uIcc between).1

theorem line_le
    (between : LiesBetween position low high)
    (above : value low ≤ bound)
    (aboveOther : value high ≤ bound) :
    line value low high position ≤ bound :=
  (line_mem_uIcc between).2.trans (max_le above aboveOther)

/-- Every line at a position has the height of the one through the index before and the next. -/
theorem line_eq_floor (between : LiesBetween position low high) :
    line value low high position = line value ⌊position⌋₊ (⌊position⌋₊ + 1) position := by
  have first : low ≤ ⌊position⌋₊ := Nat.le_floor between.low_le
  have floorLe : (⌊position⌋₊ : K) ≤ position :=
    Nat.floor_le ((Nat.cast_nonneg low).trans between.low_le)
  rcases Nat.lt_or_ge ⌊position⌋₊ high with inside | atEnd
  · obtain rfl := first.antisymm (Nat.lt_succ_iff.mp (inside.trans_le between.adjacent))
    obtain rfl := between.adjacent.antisymm inside
    rfl
  · -- The position is the last index, where the line through it and the next one begins.
    have reached : (high : K) ≤ ⌊position⌋₊ := Nat.cast_le.mpr atEnd
    obtain rfl : position = high := between.le_high.antisymm (reached.trans floorLe)
    rw [Nat.floor_natCast, line_at_high between, line_at_low]

/-- Whichever indices a position lies between, the line has the same height there. -/
theorem line_unique
    (between : LiesBetween position low high)
    (otherBetween : LiesBetween position otherLow otherHigh) :
    line value low high position = line value otherLow otherHigh position :=
  (line_eq_floor between).trans (line_eq_floor otherBetween).symm

/-! ## Patches -/

variable
  {grid : Grid K}
  {col row : K}
  {top bottom left right : Nat}

/-- Whichever rows and columns a place lies between, the patch has the same height there. -/
theorem patch_unique
    {otherTop otherBottom otherLeft otherRight : Nat}
    (rows : LiesBetween row top bottom)
    (cols : LiesBetween col left right)
    (otherRows : LiesBetween row otherTop otherBottom)
    (otherCols : LiesBetween col otherLeft otherRight) :
    grid.patch top bottom left right col row =
      grid.patch otherTop otherBottom otherLeft otherRight col row := by
  have alike (index : Nat) :
      line (grid.get index) left right col = line (grid.get index) otherLeft otherRight col :=
    line_unique cols otherCols
  simp only [patch, alike]
  exact line_unique rows otherRows

theorem le_patch
    (rows : LiesBetween row top bottom)
    (cols : LiesBetween col left right)
    (atTop : bound ≤ min (grid.get top left) (grid.get top right))
    (atBottom : bound ≤ min (grid.get bottom left) (grid.get bottom right)) :
    bound ≤ grid.patch top bottom left right col row := by
  rw [le_min_iff] at atTop atBottom
  exact le_line rows (le_line cols atTop.1 atTop.2) (le_line cols atBottom.1 atBottom.2)

theorem patch_le
    (rows : LiesBetween row top bottom)
    (cols : LiesBetween col left right)
    (atTop : max (grid.get top left) (grid.get top right) ≤ bound)
    (atBottom : max (grid.get bottom left) (grid.get bottom right) ≤ bound) :
    grid.patch top bottom left right col row ≤ bound := by
  rw [max_le_iff] at atTop atBottom
  exact line_le rows (line_le cols atTop.1 atTop.2) (line_le cols atBottom.1 atBottom.2)

omit [IsStrictOrderedRing K] in
/-- A patch takes in no more than its four corners. -/
theorem patch_congr
    {other : Grid K}
    (same : ∀ r ∈ [top, bottom], ∀ c ∈ [left, right], other.get r c = grid.get r c) :
    other.patch top bottom left right col row = grid.patch top bottom left right col row := by
  have first {a b : Nat} : a ∈ [a, b] := List.mem_cons_self
  have second {a b : Nat} : b ∈ [a, b] := List.mem_cons_of_mem a List.mem_cons_self
  simp only [patch, line, same _ first _ first, same _ first _ second, same _ second _ first,
    same _ second _ second]

/-! ## The cell of a position -/

/-- The number of places before a cell follows the whole part of the position. -/
theorem cellBefore_eq (count : Nat) (position : K) :
    cellBefore count position = min (⌊position⌋₊ - 1) (count - 2) := by
  have whole : Scalar.floor (position - 1) = ((⌊position⌋ - 1 : Int) : K) := by
    rw [← Int.floor_sub_one]
    rfl
  have counted (value : K) : Scalar.toCount value = ⌊value⌋.toNat := rfl
  simp only [cellBefore, Exact.numeral_zero, Exact.numeral_one, whole, counted]
  rw [← Int.cast_zero, Exact.floor_atLeast, ← Int.floor_toNat]
  omega

/-- A position on the grid lies between the indices of its cell. -/
theorem liesBetween_cell
    {count : Nat}
    (pair : 2 ≤ count)
    (first : 1 ≤ position)
    (last : position ≤ count) :
    LiesBetween position (cellBefore count position + 1) (cellBefore count position + 2) := by
  have positive : 1 ≤ ⌊position⌋₊ := (Nat.one_le_floor_iff position).mpr first
  have cell := cellBefore_eq count position
  refine
    { low_le := ?_
      le_high := ?_
      adjacent := Nat.le_refl _ }
  · have before : cellBefore count position + 1 ≤ ⌊position⌋₊ := by omega
    exact (Nat.cast_le.mpr before).trans (Nat.floor_le (zero_le_one.trans first))
  · rcases Nat.lt_or_ge ⌊position⌋₊ count with inside | atEnd
    · have behind : ⌊position⌋₊ + 1 ≤ cellBefore count position + 2 := by omega
      exact (Nat.lt_floor_add_one position).le.trans (by exact_mod_cast behind)
    · have behind : count ≤ cellBefore count position + 2 := by omega
      exact last.trans (Nat.cast_le.mpr behind)

omit [IsStrictOrderedRing K] in
/-- The bilinear reading is that of the patch of the cell, at every position. -/
theorem bilinear_eq_patch
    (pairOfRows : 2 ≤ grid.rows)
    (pairOfCols : 2 ≤ grid.cols)
    (col row : K) :
    grid.bilinear col row =
      grid.patch (cellBefore grid.rows row + 1) (cellBefore grid.rows row + 2)
        (cellBefore grid.cols col + 1) (cellBefore grid.cols col + 2) col row := by
  have large : ¬(grid.rows < 2 ∨ grid.cols < 2) := by omega
  simp only [bilinear, if_neg large, Exact.numeral_one, patch, line_neighbours, Nat.cast_succ]
  ring

/-- A position on the grid is read from every patch around it. -/
theorem bilinear_eq_of_liesBetween
    (pairOfRows : 2 ≤ grid.rows)
    (pairOfCols : 2 ≤ grid.cols)
    (rowInside : 1 ≤ row ∧ row ≤ grid.rows)
    (colInside : 1 ≤ col ∧ col ≤ grid.cols)
    (rows : LiesBetween row top bottom)
    (cols : LiesBetween col left right) :
    grid.bilinear col row = grid.patch top bottom left right col row :=
  (bilinear_eq_patch pairOfRows pairOfCols col row).trans
    (patch_unique
      (liesBetween_cell pairOfRows rowInside.1 rowInside.2)
      (liesBetween_cell pairOfCols colInside.1 colInside.2) rows cols)

end Electrostatics.Grid
