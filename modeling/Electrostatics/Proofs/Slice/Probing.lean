import Electrostatics.Proofs.Grid.Access
import Electrostatics.Proofs.Grid.Nearest
import Electrostatics.Proofs.Number.Analysis
import Electrostatics.Proofs.Slice.Geometry
import Electrostatics.Proofs.Slice.Shape

namespace Electrostatics

/-!
# Probing a scalar field

A probe takes a position apart into a place, which it computes anew, and a cell of the grids
that were sampled earlier.  The two fit together after every history of calls, since a
session samples its field again whenever it looks elsewhere.
-/

section Reading

open scoped Scalar

variable {α : Type} [Scalar α]

/-- The place in space of a cell of a slice. -/
def Viewpoint.cellPoint
    (viewpoint : Viewpoint α)
    (row col : Nat) :
    PerAxis α :=
  viewpoint.worldPoint (row : α) (col : α) 0

/-- A square grid is read at one pair of nearest indices. -/
theorem Grid.nearest_of_isSquare
    {grid : Grid α}
    {side : Nat}
    (square : grid.IsSquare side)
    (inhabited : side ≠ 0)
    (row col : α) :
    grid.nearest row col = grid.get (nearestIndex side row) (nearestIndex side col) := by
  have read :=
    Grid.nearest_of_inhabited (square.rows.trans_ne inhabited) (square.cols.trans_ne inhabited)
      row col
  rwa [square.rows, square.cols] at read

/-- The plane of a history of calls, and the level at which it is held. -/
def Call.heldPlane
    {Request : Type}
    (history : List (Call Request α)) :
    Plane × α :=
  (history.filterMap Call.plane?).getLast?.getD (.xy, 0)

/-- A session looks at the plane that was defined last, in the box it was given. -/
theorem Recent.viewpoint_held
    {Request : Type}
    (settings : SliceSettings α)
    (accepts : Request → Bool)
    (history : List (Call Request α)) :
    let viewpoint := (Recent.ofCalls accepts history).viewpoint settings
    viewpoint.plane = (Call.heldPlane history).1 ∧
      viewpoint.center.get viewpoint.plane.normalAxis = (Call.heldPlane history).2 ∧
      viewpoint.settings.low = settings.low ∧
      viewpoint.settings.high = settings.high := by
  simp only [Recent.viewpoint, Recent.ofCalls, Call.heldPlane]
  cases (history.filterMap Call.side?).getLast? with
  | none =>
      cases (history.filterMap Call.plane?).getLast? with
      | none => exact ⟨rfl, rfl, rfl, rfl⟩
      | some held => exact ⟨rfl, PerAxis.get_set _ _ _, rfl, rfl⟩
  | some side =>
      cases (history.filterMap Call.plane?).getLast? with
      | none => exact ⟨rfl, rfl, rfl, rfl⟩
      | some held => exact ⟨rfl, PerAxis.get_set _ _ _, rfl, rfl⟩

variable [Elementary α]

/-- A reading of a cell of a field that was sampled from a formula. -/
structure Probe.ReadsCell
    (probe : Probe α)
    (viewpoint : Viewpoint α)
    (formula : Formula)
    (field : ScalarField α)
    (row col : Nat) :
    Prop where
  value :
    probe.value =
      Formula.softened (Viewpoint.outcomeAt formula (viewpoint.cellPoint row col))
  gradient : ∀ axis, probe.gradient.get axis = (field.gradient.get axis).get row col
  laplacian : probe.laplacian = field.laplacian.get row col

namespace ScalarSession

/-- A cell of a field holds the value of the formula at its place. -/
theorem fieldAt_get
    {viewpoint : Viewpoint α}
    (formula : Formula)
    {row col : Nat}
    (rowInside : 1 ≤ row ∧ row ≤ viewpoint.settings.side)
    (colInside : 1 ≤ col ∧ col ≤ viewpoint.settings.side) :
    (fieldAt viewpoint formula).value.get row col =
      Formula.softened (Viewpoint.outcomeAt formula (viewpoint.cellPoint row col)) := by
  have built :
      (fieldAt viewpoint formula).value =
        Grid.build viewpoint.settings.side viewpoint.settings.side fun row col =>
          Formula.softened (Viewpoint.outcomeAt formula (viewpoint.cellPoint row col)) :=
    Grid.map_build _ _ _ _
  rw [built]
  exact Grid.get_build _ rowInside colInside

/-- After every history a probe reads one cell of what is shown. -/
theorem probe_readsCell
    {settings : SliceSettings α}
    {history : List (Call String α)}
    {field : ScalarField α}
    (shown : (after settings history).field = some field) :
    let session := after settings history
    let side := session.viewpoint.settings.side
    ∃ formula,
      session.formula = some formula ∧
      ∀ row col,
        1 ≤ Grid.nearestIndex side row → 1 ≤ Grid.nearestIndex side col →
        ∃ probe,
          session.probe row col = some probe ∧
          probe.point = session.viewpoint.worldPoint row col 0 ∧
          probe.ReadsCell session.viewpoint formula field (Grid.nearestIndex side row)
            (Grid.nearestIndex side col) := by
  intro session side
  have inShape := inShape_after settings history
  have reflects := reflects_after settings history
  have fills := inShape.fills field shown
  have inhabited : side ≠ 0 := (Nat.zero_lt_of_lt inShape.range.least).ne'
  obtain ⟨formula, formulaShown, sampled⟩ :=
    Option.map_eq_some_iff.mp (reflects.field.symm.trans shown)
  refine ⟨formula, formulaShown, fun row col rowFirst colFirst => ?_⟩
  have read : session.probe row col = some _ := congrArg (Option.map _) shown
  have rowInside : 1 ≤ Grid.nearestIndex side row ∧ Grid.nearestIndex side row ≤ side :=
    ⟨rowFirst, Nat.min_le_right _ _⟩
  have colInside : 1 ≤ Grid.nearestIndex side col ∧ Grid.nearestIndex side col ≤ side :=
    ⟨colFirst, Nat.min_le_right _ _⟩
  refine
    ⟨_, read, rfl,
      { value := ?_
        gradient := fun axis => ?_
        laplacian := Grid.nearest_of_isSquare fills.laplacian inhabited row col }⟩
  · have sampledCell := fieldAt_get formula rowInside colInside
    rw [sampled] at sampledCell
    exact (Grid.nearest_of_isSquare fills.value inhabited row col).trans sampledCell
  · rw [PerAxis.get_map]
    exact Grid.nearest_of_isSquare (fills.gradient axis) inhabited row col

end ScalarSession

end Reading

/-! ## The corners of a slice -/

section Corners

open scoped Exact

variable
  {K : Type}
  [Field K]
  [LinearOrder K]
  [FloorRing K]

/-- A slice that reaches from edge to edge of a box, at a level along its normal. -/
structure Viewpoint.Spans
    (viewpoint : Viewpoint K)
    (low high : PerAxis K)
    (level : K) :
    Prop where
  firstColumn :
    (viewpoint.cellPoint 1 1).get viewpoint.plane.columnAxis =
      low.get viewpoint.plane.columnAxis
  firstRow :
    (viewpoint.cellPoint 1 1).get viewpoint.plane.rowAxis =
      high.get viewpoint.plane.rowAxis
  lastColumn :
    (viewpoint.cellPoint viewpoint.settings.side viewpoint.settings.side).get
        viewpoint.plane.columnAxis =
      high.get viewpoint.plane.columnAxis
  lastRow :
    (viewpoint.cellPoint viewpoint.settings.side viewpoint.settings.side).get
        viewpoint.plane.rowAxis =
      low.get viewpoint.plane.rowAxis
  normal :
    ∀ row col, (viewpoint.cellPoint row col).get viewpoint.plane.normalAxis = level

/-- All steps along an axis make up the extent of the box. -/
theorem Viewpoint.steps_mul_step
    [IsStrictOrderedRing K]
    {viewpoint : Viewpoint K}
    (range : viewpoint.InRange)
    (axis : Axis) :
    ((viewpoint.settings.side : K) - 1) * viewpoint.step axis =
      viewpoint.settings.high.get axis - viewpoint.settings.low.get axis := by
  have least := range.least
  have steps : ((viewpoint.settings.side - 1 : Nat) : K) ≠ 0 := Nat.cast_ne_zero.mpr (by omega)
  have count : ((viewpoint.settings.side - 1 : Nat) : K) = viewpoint.settings.side - 1 :=
    Nat.cast_pred (by omega)
  rw [← count]
  exact mul_div_cancel₀ _ steps

/-- A slice spans its box. -/
theorem Viewpoint.spans
    [IsStrictOrderedRing K]
    {viewpoint : Viewpoint K}
    (range : viewpoint.InRange) :
    viewpoint.Spans viewpoint.settings.low viewpoint.settings.high
      (viewpoint.center.get viewpoint.plane.normalAxis) := by
  have columns := steps_mul_step range viewpoint.plane.columnAxis
  have rows := steps_mul_step range viewpoint.plane.rowAxis
  have along (row col : Nat) :
      (viewpoint.cellPoint row col).get viewpoint.plane.columnAxis =
        viewpoint.settings.low.get viewpoint.plane.columnAxis +
          ((col : K) - 1) * viewpoint.step viewpoint.plane.columnAxis := by
    simp only [cellPoint, worldPoint, Plane.get_place_columnAxis, Exact.numeral_one, columnStep]
  have against (row col : Nat) :
      (viewpoint.cellPoint row col).get viewpoint.plane.rowAxis =
        viewpoint.settings.high.get viewpoint.plane.rowAxis -
          ((row : K) - 1) * viewpoint.step viewpoint.plane.rowAxis := by
    simp only [cellPoint, worldPoint, Plane.get_place_rowAxis, Exact.numeral_one, rowStep]
  refine
    { firstColumn := ?_
      firstRow := ?_
      lastColumn := ?_
      lastRow := ?_
      normal := fun row col => ?_ }
  · rw [along, Nat.cast_one, sub_self, zero_mul, add_zero]
  · rw [against, Nat.cast_one, sub_self, zero_mul, sub_zero]
  · rw [along, columns, add_sub_cancel]
  · rw [against, rows, sub_sub_cancel]
  · simp only [cellPoint, worldPoint, Plane.get_place_normalAxis, Exact.numeral_zero, add_zero]

/-- After every history the slice of a session spans the box it was given. -/
theorem ScalarSession.spans_after
    [IsStrictOrderedRing K]
    [Elementary K]
    (settings : SliceSettings K)
    (history : List (Call String K)) :
    (after settings history).viewpoint.plane = (Call.heldPlane history).1 ∧
      (after settings history).viewpoint.Spans settings.low settings.high
        (Call.heldPlane history).2 := by
  have view := (reflects_after settings history).view
  obtain ⟨plane, level, low, high⟩ := Recent.viewpoint_held settings accepts history
  have spans := Viewpoint.spans (inShape_after settings history).range
  rw [← view.settings] at low high
  rw [← view.level] at level
  rw [low, high, level] at spans
  exact ⟨view.plane.trans plane, spans⟩

end Corners

/-! ## Positions that are doubles -/

namespace Double

/-- The numbers of rows and columns are doubles of their own value. -/
theorem exactValue_natCast
    {count : Nat}
    (small : count ≤ greatestSide) :
    exactValue? (count : Float) = some (count : ℚ) := by
  have each :
      ∀ index : Fin (greatestSide + 1), exactValue? ((index : Nat) : Float) = some (index : ℚ) := by
    decide +kernel
  exact each ⟨count, Nat.lt_succ_of_le small⟩

/-- A position whose value is a row or a column is that row or column. -/
theorem eq_natCast
    {position : Float}
    {index : Nat}
    (first : 1 ≤ index)
    (small : index ≤ greatestSide)
    (hasValue : exactValue? position = some (index : ℚ)) :
    position = (index : Float) :=
  eq_of_exactValue (Nat.cast_ne_zero.mpr (Nat.ne_of_gt first)) hasValue (exactValue_natCast small)

end Double

namespace ScalarSession

open scoped Exact

/--
A probe reads the field it claims to.  After every history of calls that leaves a field, a
position is read at one cell: the nearest one to a position of ordinary doubles, the one at
the edge for an infinite coordinate and the first for an undefined one.  The value is that of
the formula at the place of the cell, zero where it has none there, and the derivatives are
those that are shown at the cell.  On a cell the place of the probe is that of the cell.  In
exact arithmetic the first cell lies at the low end of the columns and the high end of the
rows, the last one opposite, and all of them at the level of the plane that was defined last.
-/
theorem probe_reads_the_field
    {settings : SliceSettings Float}
    {history : List (Call String Float)}
    {field : ScalarField Float}
    (shown : (after settings history).field = some field)
    {K : Type}
    [Field K]
    [LinearOrder K]
    [IsStrictOrderedRing K]
    [FloorRing K]
    [Elementary K]
    (exactSettings : SliceSettings K)
    (exactHistory : List (Call String K)) :
    (let session := after settings history
    let side := session.viewpoint.settings.side
    ∃ formula,
      session.formula = some formula ∧
      ∀ row col,
        ∃ probe nearRow nearCol,
          session.probe row col = some probe ∧
          Double.IsNearest side row nearRow ∧
          Double.IsNearest side col nearCol ∧
          probe.ReadsCell session.viewpoint formula field nearRow nearCol ∧
          ∀ cellRow ∈ Set.Icc 1 side, ∀ cellCol ∈ Set.Icc 1 side,
            Double.exactValue? row = some (cellRow : ℚ) →
            Double.exactValue? col = some (cellCol : ℚ) →
            nearRow = cellRow ∧
              nearCol = cellCol ∧
              probe.point = session.viewpoint.cellPoint cellRow cellCol) ∧
    (after exactSettings exactHistory).viewpoint.plane = (Call.heldPlane exactHistory).1 ∧
    (after exactSettings exactHistory).viewpoint.Spans exactSettings.low exactSettings.high
      (Call.heldPlane exactHistory).2 := by
  refine ⟨?_, spans_after exactSettings exactHistory⟩
  intro session side
  have range := (inShape_after settings history).range
  have inhabited : 1 ≤ side := Nat.one_le_of_lt range.least
  have small : side ≤ Double.greatestCount := range.greatest.trans (by decide)
  obtain ⟨formula, formulaShown, reads⟩ := probe_readsCell shown
  refine ⟨formula, formulaShown, fun row col => ?_⟩
  have rowNear := Double.isNearest_nearestIndex inhabited small row
  have colNear := Double.isNearest_nearestIndex inhabited small col
  obtain ⟨probe, read, point, readsCell⟩ := reads row col rowNear.first colNear.first
  refine ⟨probe, _, _, read, rowNear, colNear, readsCell, ?_⟩
  intro cellRow rowInside cellCol colInside rowValue colValue
  refine
    ⟨(rowNear.ordinary _ rowValue).eq_of_natCast rowInside.1 rowInside.2,
      (colNear.ordinary _ colValue).eq_of_natCast colInside.1 colInside.2, ?_⟩
  obtain rfl := Double.eq_natCast rowInside.1 (rowInside.2.trans range.greatest) rowValue
  obtain rfl := Double.eq_natCast colInside.1 (colInside.2.trans range.greatest) colValue
  exact point

/-- A probe of `1/x`, on a cell and far beside the grid; a real slice is held at `x = 2`. -/
theorem probes_of_a_reciprocal :
    let session : ScalarSession Float := after SliceSettings.standard [.setFormula "1/x"]
    let slice : Viewpoint ℝ :=
      (after SliceSettings.fifths [.definePlane .yz 2]).viewpoint
    ∃ field formula onCell beside,
      session.field = some field ∧
      session.formula = some formula ∧
      session.probe 2 3 = some onCell ∧
      onCell.ReadsCell session.viewpoint formula field 2 3 ∧
      onCell.point = session.viewpoint.cellPoint 2 3 ∧
      session.probe (0 / 0) (1 / 0) = some beside ∧
      beside.ReadsCell session.viewpoint formula field 1 30 ∧
      (slice.cellPoint 1 1).get .y = -1 ∧
      (slice.cellPoint 1 1).get .z = 1 ∧
      (slice.cellPoint 3 4).get .x = 2 := by
  intro session slice
  let tree : Expr := .operation .div (.number ⟨1, 0⟩) (.coordinate .x)
  have read : Formula.parse "1/x" = .ok ⟨"1/x", tree, none⟩ := by rfl
  have reflects :=
    reflects_after (SliceSettings.standard : SliceSettings Float) [.setFormula "1/x"]
  have side : session.viewpoint.settings.side = 30 :=
    congrArg SliceSettings.side reflects.view.settings
  have formulaShown : session.formula = some ⟨"1/x", tree, none⟩ := by
    rw [reflects.formula]
    simp [Recent.formula?, Recent.ofCalls, Call.accepted?, accepts, read, Except.isOk,
      Except.toBool, Except.toOption]
  have shown : session.field = some (fieldAt session.viewpoint ⟨"1/x", tree, none⟩) :=
    reflects.field.trans (congrArg (Option.map (fieldAt session.viewpoint)) formulaShown)
  obtain ⟨⟨formula, formulaShown, reads⟩, plane, spans⟩ :=
    probe_reads_the_field shown (SliceSettings.fifths : SliceSettings ℝ) [.definePlane .yz 2]
  obtain ⟨onCell, nearRow, nearCol, found, -, -, readsCell, onPlace⟩ := reads 2 3
  obtain ⟨beside, edgeRow, edgeCol, foundBeside, rowNear, colNear, readsEdge, -⟩ :=
    reads (0 / 0) (1 / 0)
  have two : 2 ∈ Set.Icc 1 session.viewpoint.settings.side := by rw [side]; decide
  have three : 3 ∈ Set.Icc 1 session.viewpoint.settings.side := by rw [side]; decide
  obtain ⟨rfl, rfl, point⟩ := onPlace 2 two 3 three (by decide +kernel) (by decide +kernel)
  obtain rfl : edgeRow = 1 := rowNear.undefined (by decide +kernel)
  obtain rfl : edgeCol = 30 := (colNear.infinite false (by decide +kernel)).trans side
  have column := spans.firstColumn
  have row := spans.firstRow
  have level := spans.normal 3 4
  rw [plane] at column row level
  exact
    ⟨_, formula, onCell, beside, shown, formulaShown, found, readsCell, point, foundBeside,
      readsEdge, column.trans (congrArg Neg.neg Exact.numeral_one), row.trans Exact.numeral_one,
      level⟩

end ScalarSession

end Electrostatics
