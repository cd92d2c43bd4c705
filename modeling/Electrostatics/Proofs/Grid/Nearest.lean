import Electrostatics.Grid.Lookup
import Electrostatics.Proofs.Number.DoubleRounding

namespace Electrostatics

/-!
# The nearest cell

A position is read at the nearest index, and one before or behind the grid at its edge.  In
exact arithmetic this is a matter of rounding.  For a position that is a double the index is
that of its value, and an infinite one is read at the edge on its side; an undefined one,
which is nowhere, is read at the first index.  No other index is nearest, so a grid of
doubles is read at one cell whatever the position is.
-/

open scoped Exact

namespace Grid

variable {K : Type} [Field K] [LinearOrder K]

/-- The nearest of the first `count` indices to a position, the later one of two as near. -/
structure IsNearest
    (count : Nat)
    (position : K)
    (index : Nat) :
    Prop where
  first : 1 ≤ index
  last : index ≤ count
  nearest :
    ∀ other, 1 ≤ other → other ≤ count →
      |position - index| ≤ |position - other|
  later :
    ∀ other, 1 ≤ other → other ≤ count →
      |position - other| = |position - index| → other ≤ index

variable [FloorRing K] [IsStrictOrderedRing K]

/-- Where a half goes makes no difference below one. -/
theorem exists_roundHalfAway_eq (position : K) :
    ∃ whole : ℤ,
      Exact.roundHalfAway position = whole ∧ max 1 whole = max 1 (round position) := by
  rcases lt_or_ge position 0 with negative | nonneg
  · refine ⟨-round (-position), by rw [Exact.roundHalfAway, if_pos negative, Int.cast_neg], ?_⟩
    have mirrored : (-1 : ℤ) < round (-position) := by
      have above := sub_half_lt_round (-position)
      rw [← Int.cast_lt (R := K)]
      push_cast
      linarith
    have below : round position < 1 := by
      have atMost := round_le_add_half position
      rw [← Int.cast_lt (R := K)]
      push_cast
      linarith
    omega
  · exact ⟨round position, if_neg nonneg.not_gt, rfl⟩

/-- The nearest index is the nearest whole number, held within the indices. -/
theorem nearestIndex_eq
    (count : Nat)
    (position : K) :
    nearestIndex count position = min (max 1 (round position)).toNat count := by
  have rounded : Scalar.round position = Exact.roundHalfAway position := rfl
  have counted (value : K) : Scalar.toCount value = ⌊value⌋.toNat := rfl
  obtain ⟨whole, half, same⟩ := exists_roundHalfAway_eq position
  simp only [nearestIndex, Exact.numeral_one, rounded, counted, half]
  rw [← Int.cast_one, Exact.floor_atLeast, same]

omit [FloorRing K] in
/-- Before the second index the first one is nearest. -/
theorem isNearest_first
    {count : Nat}
    {position : K}
    (inhabited : 1 ≤ count)
    (before : position ≤ 1) :
    IsNearest count position 1 := by
  have distance (other : Nat) (first : 1 ≤ other) : |position - other| = other - position := by
    have reached : (1 : K) ≤ other := Nat.one_le_cast.mpr first
    rw [abs_sub_comm]
    exact abs_of_nonneg (sub_nonneg.mpr (before.trans reached))
  refine
    { first := le_rfl
      last := inhabited
      nearest := fun other first _ => ?_
      later := fun other first _ same => ?_ }
  · have reached : (1 : K) ≤ other := Nat.one_le_cast.mpr first
    rw [distance 1 le_rfl, distance other first, Nat.cast_one]
    exact sub_le_sub_right reached position
  · rw [distance 1 le_rfl, distance other first, sub_left_inj, Nat.cast_inj] at same
    exact same.le

omit [FloorRing K] in
/-- Behind the last index that one is nearest. -/
theorem isNearest_last
    {count : Nat}
    {position : K}
    (inhabited : 1 ≤ count)
    (behind : (count : K) ≤ position) :
    IsNearest count position count := by
  have distance (other : Nat) (last : other ≤ count) : |position - other| = position - other :=
    abs_of_nonneg (sub_nonneg.mpr ((Nat.cast_le.mpr last).trans behind))
  refine
    { first := inhabited
      last := le_rfl
      nearest := fun other _ last => ?_
      later := fun other _ last _ => last }
  rw [distance count le_rfl, distance other last]
  exact sub_le_sub_left (Nat.cast_le.mpr last) position

/-- Among the indices the nearest whole number is nearest. -/
theorem isNearest_round
    {count index : Nat}
    {position : K}
    (first : 1 ≤ index)
    (last : index ≤ count)
    (rounded : round position = index) :
    IsNearest count position index where
  first := first
  last := last
  nearest := fun other _ _ => by
    have nearest := round_le position other
    rw [rounded] at nearest
    exact_mod_cast nearest
  later := fun other _ _ same => by
    by_contra notLater
    obtain ⟨-, high⟩ := round_eq_iff.mp rounded
    have near := abs_sub_round position
    have next : (index : K) + 1 ≤ other := by exact_mod_cast not_le.mp notLater
    have far : (other : K) - position ≤ |position - other| := by
      rw [abs_sub_comm]
      exact le_abs_self _
    rw [rounded, Int.cast_natCast, ← same] at near
    rw [Int.cast_natCast] at high
    linarith

omit [FloorRing K] [IsStrictOrderedRing K] in
/-- One index only is nearest and the later one of two as near. -/
theorem IsNearest.unique
    {count index other : Nat}
    {position : K}
    (first : IsNearest count position index)
    (second : IsNearest count position other) :
    index = other := by
  have same : |position - index| = |position - other| :=
    le_antisymm (first.nearest other second.first second.last)
      (second.nearest index first.first first.last)
  exact
    le_antisymm (second.later index first.first first.last same)
      (first.later other second.first second.last same.symm)

omit [FloorRing K] in
/-- Nearest to an index is that index. -/
theorem IsNearest.eq_of_natCast
    {count whole index : Nat}
    (nearest : IsNearest count (whole : K) index)
    (first : 1 ≤ whole)
    (last : whole ≤ count) :
    index = whole := by
  have none := nearest.nearest whole first last
  rw [sub_self, abs_zero, abs_nonpos_iff, sub_eq_zero, Nat.cast_inj] at none
  exact none.symm

/-- In exact arithmetic a position is read at the nearest index. -/
theorem isNearest_nearestIndex
    {count : Nat}
    (inhabited : 1 ≤ count)
    (position : K) :
    IsNearest count position (nearestIndex count position) := by
  obtain ⟨low, high⟩ := round_eq_iff.mp (Eq.refl (round position))
  rw [nearestIndex_eq]
  rcases lt_or_ge (round position) 1 with below | notBelow
  · have index : min (max 1 (round position)).toNat count = 1 := by omega
    have atMost : (round position : K) ≤ 0 := by exact_mod_cast Int.lt_add_one_iff.mp below
    rw [index]
    exact isNearest_first inhabited (by linarith)
  · rcases le_or_gt (round position) count with inside | above
    · have index : min (max 1 (round position)).toNat count = (round position).toNat := by omega
      rw [index]
      exact isNearest_round (by omega) (by omega) (Int.toNat_of_nonneg (by omega)).symm
    · have index : min (max 1 (round position)).toNat count = count := by omega
      have atLeast : (count : K) + 1 ≤ round position := by exact_mod_cast above
      rw [index]
      exact isNearest_last inhabited (by linarith)

end Grid

namespace Double

open Float.Model

/-- The index at which a double is read among the first `count`. -/
structure IsNearest
    (count : Nat)
    (position : Float)
    (index : Nat) :
    Prop where
  first : 1 ≤ index
  last : index ≤ count
  ordinary :
    ∀ value, exactValue? position = some value →
      Grid.IsNearest count value index
  infinite :
    ∀ negative, Binary64.parts position = .infinite negative →
      index = if negative then 1 else count
  undefined :
    Binary64.parts position = .undefined →
      index = 1

theorem exactValue_one : exactValue? 1 = some 1 := by
  decide +kernel

theorem toCount_one : Scalar.toCount (1 : Float) = 1 := by
  decide +kernel

/-- The larger of one and an ordinary double. -/
theorem exactValue_atLeast_one
    {value : Float}
    {exact : ℚ}
    (hasValue : exactValue? value = some exact) :
    exactValue? (Scalar.atLeast 1 value) = some (Scalar.atLeast 1 exact) := by
  have order : (1 : Float) < value ↔ 1 < exact := lt_iff_exactValue exactValue_one hasValue
  unfold Scalar.atLeast
  by_cases beyond : 1 < exact
  · rw [if_pos (order.mpr beyond), if_pos beyond, hasValue]
  · rw [if_neg fun less => beyond (order.mp less), if_neg beyond, exactValue_one]

/-- An ordinary double is read where its value is. -/
theorem nearestIndex_eq
    {count : Nat}
    {position : Float}
    {value : ℚ}
    (hasValue : exactValue? position = some value)
    (small : count ≤ greatestCount) :
    Grid.nearestIndex count position = Grid.nearestIndex count value := by
  have held := exactValue_atLeast_one (exactValue_round hasValue)
  have counted :
      Grid.nearestIndex count position =
        min (Scalar.toCount (Scalar.atLeast 1 (Scalar.round position))) count :=
    rfl
  have exactly :
      Grid.nearestIndex count value =
        min ⌊Scalar.atLeast 1 (Exact.roundHalfAway value)⌋₊ count := by
    simp only [Grid.nearestIndex, Exact.numeral_one]
    rfl
  rw [counted, exactly, toCount_eq held, min_assoc, min_eq_right small]

variable
  {ordinary position : Float}
  {value : ℚ}

/-- Positive infinity is above every ordinary double, and nothing else beyond them is. -/
theorem lt_of_parts_infinite
    {negative : Bool}
    (hasValue : exactValue? ordinary = some value)
    (infinite : Binary64.parts position = .infinite negative) :
    ordinary < position ↔ negative = false := by
  rw [exactValue?, parts_eq] at hasValue
  rw [parts_eq] at infinite
  rw [lt_iff]
  cases first : ordinary.toModel.unpack with
  | notANumber | infinity _ => rw [first] at hasValue; cases hasValue
  | zero _ | finite _ _ _ _ =>
      cases second : position.toModel.unpack with
      | notANumber | zero _ | finite _ _ _ _ => rw [second] at infinite; cases infinite
      | infinity sign =>
          rw [second] at infinite
          obtain rfl := Binary64.Parts.infinite.inj infinite
          cases sign with
          | negative => exact iff_of_false Bool.false_ne_true Bool.false_ne_true.symm
          | positive => exact iff_of_true rfl rfl

/-- An undefined double is above none. -/
theorem not_lt_of_parts_undefined
    (undefined : Binary64.parts position = .undefined) :
    ¬ ordinary < position := by
  rw [parts_eq] at undefined
  rw [lt_iff]
  cases second : position.toModel.unpack with
  | infinity _ | zero _ | finite _ _ _ _ => rw [second] at undefined; cases undefined
  | notANumber => cases ordinary.toModel.unpack <;> exact Bool.false_ne_true

/-- The count of infinity is the largest. -/
theorem toCount_of_infinite (infinite : Binary64.parts position = .infinite false) :
    Scalar.toCount position = greatestCount := by
  rw [parts_eq] at infinite
  rw [toCount_eq_min]
  cases kind : position.toModel.unpack with
  | notANumber | zero _ | finite _ _ _ _ => rw [kind] at infinite; cases infinite
  | infinity sign =>
      rw [kind] at infinite
      cases sign with
      | negative => cases infinite
      | positive => rfl

/-- What is not above one is read at the first index. -/
theorem nearestIndex_of_not_one_lt
    {count : Nat}
    (inhabited : 1 ≤ count)
    (notBeyond : ¬ (1 : Float) < Scalar.round position) :
    Grid.nearestIndex count position = 1 := by
  have held : Scalar.atLeast (1 : Float) (Scalar.round position) = 1 := if_neg notBeyond
  have counted :
      Grid.nearestIndex count position =
        min (Scalar.toCount (Scalar.atLeast 1 (Scalar.round position))) count :=
    rfl
  rw [counted, held, toCount_one, min_eq_left inhabited]

/-- An infinite double is read at the edge on its side. -/
theorem nearestIndex_of_infinite
    {count : Nat}
    {negative : Bool}
    (inhabited : 1 ≤ count)
    (small : count ≤ greatestCount)
    (infinite : Binary64.parts position = .infinite negative) :
    Grid.nearestIndex count position = if negative then 1 else count := by
  have order := lt_of_parts_infinite exactValue_one infinite
  have rounded : Scalar.round position = position := by
    have rule : Scalar.round position = Binary64.roundToWhole position := rfl
    rw [rule, Binary64.roundToWhole, infinite]
  cases negative with
  | true =>
      refine nearestIndex_of_not_one_lt inhabited ?_
      rw [rounded, order]
      exact Bool.false_ne_true.symm
  | false =>
      have held : Scalar.atLeast (1 : Float) (Scalar.round position) = position := by
        rw [rounded]
        exact if_pos (order.mpr rfl)
      have counted :
          Grid.nearestIndex count position =
            min (Scalar.toCount (Scalar.atLeast 1 (Scalar.round position))) count :=
        rfl
      rw [counted, held, toCount_of_infinite infinite, min_eq_right small]
      rfl

/-- An undefined double is read at the first index. -/
theorem nearestIndex_of_undefined
    {count : Nat}
    (inhabited : 1 ≤ count)
    (undefined : Binary64.parts position = .undefined) :
    Grid.nearestIndex count position = 1 := by
  refine nearestIndex_of_not_one_lt inhabited ?_
  have rule : Scalar.round position = Binary64.roundToWhole position := rfl
  rw [rule, Binary64.roundToWhole, undefined]
  exact not_lt_of_parts_undefined undefined

/-- A double is read at the nearest index, and off the grid at its edge. -/
theorem isNearest_nearestIndex
    {count : Nat}
    (inhabited : 1 ≤ count)
    (small : count ≤ greatestCount)
    (position : Float) :
    IsNearest count position (Grid.nearestIndex count position) where
  first := by
    cases kind : Binary64.parts position with
    | undefined => exact (nearestIndex_of_undefined inhabited kind).ge
    | infinite negative =>
        rw [nearestIndex_of_infinite inhabited small kind]
        cases negative with
        | true => exact le_rfl
        | false => exact inhabited
    | finite negative significand exponent =>
        have hasValue : exactValue? position = some (dyadic negative significand exponent) :=
          congrArg valueOf? kind
        rw [nearestIndex_eq hasValue small]
        exact (Grid.isNearest_nearestIndex inhabited _).first
  last := Nat.min_le_right _ _
  ordinary := fun value hasValue => by
    rw [nearestIndex_eq hasValue small]
    exact Grid.isNearest_nearestIndex inhabited value
  infinite := fun negative infinite => nearestIndex_of_infinite inhabited small infinite
  undefined := nearestIndex_of_undefined inhabited

/-- One index only is that at which a double is read. -/
theorem IsNearest.unique
    {count index other : Nat}
    (first : IsNearest count position index)
    (second : IsNearest count position other) :
    index = other := by
  cases kind : Binary64.parts position with
  | undefined => exact (first.undefined kind).trans (second.undefined kind).symm
  | infinite negative =>
      exact (first.infinite negative kind).trans (second.infinite negative kind).symm
  | finite negative significand exponent =>
      have hasValue : exactValue? position = some (dyadic negative significand exponent) :=
        congrArg valueOf? kind
      exact (first.ordinary _ hasValue).unique (second.ordinary _ hasValue)

end Double

namespace Grid

/-- A grid with cells is read at the indices nearest to a position. -/
theorem nearest_of_inhabited
    {α : Type}
    [Scalar α]
    {grid : Grid α}
    (rows : grid.rows ≠ 0)
    (cols : grid.cols ≠ 0)
    (row col : α) :
    grid.nearest row col =
      grid.get (nearestIndex grid.rows row) (nearestIndex grid.cols col) :=
  if_neg (not_or.mpr ⟨rows, cols⟩)

/--
Every position is read, and at the nearest cell.  A grid without cells gives zero.  Any other
grid, no larger than the largest count that is read off a double, has exactly one cell whose
row and column are nearest to the position: of two as near the later one, for an infinite
position the edge on its side and for an undefined one the first.  Its value is the answer.
-/
theorem every_position_reads_its_nearest_cell
    {grid : Grid Float}
    (rowsReached : grid.rows ≤ Double.greatestCount)
    (colsReached : grid.cols ≤ Double.greatestCount)
    (row col : Float) :
    (grid.rows = 0 ∨ grid.cols = 0 → grid.nearest row col = 0) ∧
    (1 ≤ grid.rows →
      1 ≤ grid.cols →
      ∃ nearRow nearCol,
        Double.IsNearest grid.rows row nearRow ∧
        Double.IsNearest grid.cols col nearCol ∧
        (∀ other, Double.IsNearest grid.rows row other → other = nearRow) ∧
        (∀ other, Double.IsNearest grid.cols col other → other = nearCol) ∧
        grid.nearest row col = grid.get nearRow nearCol) := by
  refine ⟨fun empty => if_pos empty, fun rows cols => ?_⟩
  have rowNear := Double.isNearest_nearestIndex rows rowsReached row
  have colNear := Double.isNearest_nearestIndex cols colsReached col
  exact
    ⟨_, _, rowNear, colNear, fun _ near => near.unique rowNear, fun _ near => near.unique colNear,
      nearest_of_inhabited (Nat.ne_of_gt rows) (Nat.ne_of_gt cols) row col⟩

/-- Two rows are read halfway between them at the later one, and far to the right at the end. -/
theorem cells_nearest_to_a_middle_and_to_infinity :
    let grid : Grid Float := ofRows [[1, 2, 3], [4, 5, 6]]
    (grid.rows ≤ Double.greatestCount ∧ grid.cols ≤ Double.greatestCount) ∧
      Double.IsNearest grid.rows 1.5 2 ∧
      Double.IsNearest grid.cols (1 / 0) 3 ∧
      grid.nearest 1.5 (1 / 0) = 6 := by
  intro grid
  have reached : grid.rows ≤ Double.greatestCount ∧ grid.cols ≤ Double.greatestCount := by decide
  obtain ⟨-, reads⟩ := every_position_reads_its_nearest_cell reached.1 reached.2 1.5 (1 / 0)
  obtain ⟨nearRow, nearCol, rowNear, colNear, -, -, read⟩ := reads (by decide) (by decide)
  have middle : Double.exactValue? 1.5 = some (3 / 2) := by decide +kernel
  have rounded : round (3 / 2 : ℚ) = (2 : Nat) := by decide +kernel
  obtain rfl : nearRow = 2 :=
    (rowNear.ordinary _ middle).unique (isNearest_round (by decide) (by decide) rounded)
  obtain rfl : nearCol = 3 := colNear.infinite false (by decide +kernel)
  exact ⟨reached, rowNear, colNear, read⟩

end Grid

end Electrostatics
