import Electrostatics.Grid.Operator
import Electrostatics.Proofs.Samples.Extrema
import Mathlib.Data.List.FinRange
import Mathlib.Tactic.Order

namespace Electrostatics

/-!
# Reading grids

What is read from a grid that was built or changed.  The bounds of a grid are its least and
its greatest number.  In exact arithmetic they are in order, so a bound on its spread that is
not positive flattens no grid.
-/

namespace Grid

open scoped Scalar

variable {α : Type}

/-- A change of every cell of a built grid changes what it is built of. -/
theorem map_build
    {β : Type}
    (rows cols : Nat)
    (value : Nat → Nat → α)
    (change : α → β) :
    (build rows cols value).map change =
      build rows cols fun row col => change (value row col) := by
  simp only [map, build, mk.injEq, heq_eq_eq, true_and]
  refine Vector.ext fun row rowInside => Vector.ext fun col colInside => ?_
  simp

/-- A built grid is made of the values inside alone. -/
theorem build_congr
    {rows cols : Nat}
    {first second : Nat → Nat → α}
    (same :
      ∀ row col,
        1 ≤ row ∧ row ≤ rows →
        1 ≤ col ∧ col ≤ cols →
        first row col = second row col) :
    build rows cols first = build rows cols second := by
  simp only [build, mk.injEq, heq_eq_eq, true_and]
  refine Vector.ext fun row rowInside => Vector.ext fun col colInside => ?_
  simpa using same (row + 1) (col + 1) ⟨by omega, rowInside⟩ ⟨by omega, colInside⟩

/-- A grid that is built of one value holds it everywhere. -/
theorem build_const
    (rows cols : Nat)
    (value : α) :
    (build rows cols fun _ _ => value) = filled rows cols value := by
  simp only [build, filled, mk.injEq, heq_eq_eq, true_and]
  refine Vector.ext fun row rowInside => Vector.ext fun col colInside => ?_
  simp

/-- The rows of a built grid list its values from the left. -/
theorem toRows_build
    (rows cols : Nat)
    (value : Nat → Nat → α) :
    (build rows cols value).toRows =
      (indices 1 rows).map fun row => (indices 1 cols).map fun col => value row col := by
  have counted :
      ∀ count, indices 1 count = (List.finRange count).map fun index => index.val + 1 := by
    intro count
    simp [indices, List.range'_eq_map_range, ← List.map_coe_finRange_eq_range, Nat.add_comm]
  simp [toRows, build, counted, Vector.toList_ofFn, List.ofFn_eq_map, Function.comp_def]

/-- The cells of a built grid stand row by row. -/
theorem toList_build
    (rows cols : Nat)
    (value : Nat → Nat → α) :
    (build rows cols value).toList =
      (indices 1 rows).flatMap fun row => (indices 1 cols).map fun col => value row col := by
  rw [toList, toRows_build, List.flatMap]

/-- Setting a cell keeps the shape. -/
theorem shape_set
    (grid : Grid α)
    (row col : Nat)
    (value : α) :
    (grid.set row col value).rows = grid.rows ∧ (grid.set row col value).cols = grid.cols := by
  unfold set
  split <;> exact ⟨rfl, rfl⟩

variable [Scalar α]

/-- A grid is built of what is read from it. -/
theorem build_get (grid : Grid α) :
    build grid.rows grid.cols grid.get = grid := by
  obtain ⟨rows, cols, cells⟩ := grid
  simp only [build, mk.injEq, heq_eq_eq, true_and]
  refine Vector.ext fun row rowInside => Vector.ext fun col colInside => ?_
  rw [Vector.getElem_ofFn, Vector.getElem_ofFn]
  exact
    dif_pos ⟨⟨Nat.le_add_left 1 row, rowInside⟩, Nat.le_add_left 1 col, colInside⟩

theorem mem_indices {first last index : Nat} :
    index ∈ indices first last ↔ first ≤ index ∧ index ≤ last := by
  rw [indices, List.mem_range'_1]
  omega

/-- The rows of a grid list what is read from the left. -/
theorem toRows_eq (grid : Grid α) :
    grid.toRows =
      (indices 1 grid.rows).map fun row => (indices 1 grid.cols).map fun col =>
        grid.get row col := by
  conv_lhs => rw [← grid.build_get, toRows_build]

/-- The cells of a grid are what is read inside it. -/
theorem mem_toList_iff
    {grid : Grid α}
    {cell : α} :
    cell ∈ grid.toList ↔
      ∃ row col,
        (1 ≤ row ∧ row ≤ grid.rows) ∧ (1 ≤ col ∧ col ≤ grid.cols) ∧ grid.get row col = cell := by
  conv_lhs => rw [← grid.build_get, toList_build]
  simp only [List.mem_flatMap, List.mem_map, mem_indices]
  exact
    ⟨fun ⟨row, rowInside, col, colInside, same⟩ => ⟨row, col, rowInside, colInside, same⟩,
      fun ⟨row, col, rowInside, colInside, same⟩ => ⟨row, rowInside, col, colInside, same⟩⟩

theorem get_build
    {rows cols row col : Nat}
    (value : Nat → Nat → α)
    (rowInside : 1 ≤ row ∧ row ≤ rows)
    (colInside : 1 ≤ col ∧ col ≤ cols) :
    (build rows cols value).get row col = value row col := by
  have rowPlace : row - 1 + 1 = row := by omega
  have colPlace : col - 1 + 1 = col := by omega
  simp [get, build, rowInside, colInside, rowPlace, colPlace]

/-- Outside the grid zero is read. -/
theorem get_eq_zero
    {grid : Grid α}
    {row col : Nat}
    (outside : ¬ ((1 ≤ row ∧ row ≤ grid.rows) ∧ 1 ≤ col ∧ col ≤ grid.cols)) :
    grid.get row col = 0 :=
  dif_neg outside

/-- A cell that is set inside is read at its place, and every other one is read as before. -/
theorem get_set
    {grid : Grid α}
    {row col : Nat}
    (inside : (1 ≤ row ∧ row ≤ grid.rows) ∧ 1 ≤ col ∧ col ≤ grid.cols)
    (value : α)
    (otherRow otherCol : Nat) :
    (grid.set row col value).get otherRow otherCol =
      if otherRow = row ∧ otherCol = col then value else grid.get otherRow otherCol := by
  have changed : grid.set row col value = _ := dif_pos inside
  rw [changed]
  by_cases placed :
      (1 ≤ otherRow ∧ otherRow ≤ grid.rows) ∧ 1 ≤ otherCol ∧ otherCol ≤ grid.cols
  · have rowPlace : row - 1 = otherRow - 1 ↔ otherRow = row := by omega
    have colPlace : col - 1 = otherCol - 1 ↔ otherCol = col := by omega
    simp only [get, placed, and_self, dif_pos, Vector.getElem_set, rowPlace]
    by_cases sameRow : otherRow = row
    · simp [sameRow, Vector.getElem_set, colPlace]
    · simp [sameRow]
  · have apart : ¬ (otherRow = row ∧ otherCol = col) := by
      rintro ⟨rfl, rfl⟩
      exact placed inside
    rw [if_neg apart, get_eq_zero placed]
    exact get_eq_zero placed

/-- A grid of zeros is zero everywhere, also outside. -/
theorem get_zeros (rows cols row col : Nat) :
    (zeros rows cols : Grid α).get row col = 0 := by
  simp [get, zeros, filled]

/-- Where a column has neighbours on both sides, the difference is taken between them. -/
theorem columnDifference_interior
    (grid : Grid α)
    (row : Nat)
    {col : Nat}
    (h : α)
    (left : 2 ≤ col)
    (right : col + 1 ≤ grid.cols) :
    grid.columnDifference row col h =
      (grid.get row (col + 1) - grid.get row (col - 1)) / (2 * h) :=
  if_neg (by omega)

/-- Where a row has neighbours on both sides, the difference is taken between them. -/
theorem rowDifference_interior
    (grid : Grid α)
    {row : Nat}
    (col : Nat)
    (h : α)
    (above : 2 ≤ row)
    (below : row + 1 ≤ grid.rows) :
    grid.rowDifference row col h =
      (grid.get (row + 1) col - grid.get (row - 1) col) / (2 * h) :=
  if_neg (by omega)

section Bounds

variable
  [LinearNumbers α]
  {grid : Grid α}

/-- The bounds of a grid with a number are its least and its greatest number. -/
theorem bounds_of_number
    {cell : α}
    (met : cell ∈ grid.toList)
    (number : Scalar.isNumber cell = true) :
    IsLeastNumber grid.toList grid.bounds.1 ∧ IsGreatestNumber grid.toList grid.bounds.2 :=
  rangeBounds_of_number met number

/-- The bounds of a grid without numbers run backwards from end to end. -/
theorem bounds_of_undefined
    (undefined : ∀ cell ∈ grid.toList, Scalar.isNumber cell = false) :
    grid.bounds = (Scalar.unbounded, -Scalar.unbounded) :=
  rangeBounds_of_undefined undefined

end Bounds

end Grid

section Flatness

open scoped Exact

variable {K : Type} [Field K] [LinearOrder K] [FloorRing K] [IsStrictOrderedRing K]

namespace Grid

theorem bounds_inOrder (grid : Grid K) :
    grid.bounds.1 ≤ grid.bounds.2 := by
  have reaches := reaches_extrema? grid.toList
  unfold bounds
  cases reached : extrema? grid.toList with
  | none => simp [rangeBounds, Scalar.unbounded]
  | some ends =>
      rw [reached] at reaches
      obtain ⟨least, greatest⟩ := reaches
      exact least.bounds ends.2 greatest.mem greatest.isNumber

/-- No grid varies by less than nothing. -/
theorem flatten_of_nonpos
    {epsilon : K}
    (nothing : epsilon ≤ 0)
    (grid : Grid K) :
    grid.flatten epsilon = grid := by
  have spread : epsilon ≤ grid.bounds.2 - grid.bounds.1 :=
    nothing.trans (sub_nonneg.mpr grid.bounds_inOrder)
  have varies : grid.isFlat epsilon = false := decide_eq_false (not_lt.mpr spread)
  simp only [flatten, varies, Bool.false_eq_true, if_false]

end Grid

end Flatness

end Electrostatics
