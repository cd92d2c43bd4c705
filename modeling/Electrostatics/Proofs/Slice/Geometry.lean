import Electrostatics.Proofs.Number.Exact
import Electrostatics.Proofs.Slice.History
import Mathlib.Algebra.Ring.Basic
import Mathlib.Tactic.NormNum

namespace Electrostatics

/-!
# Where the cells of a slice lie

The axes of a plane and its normal are those of space, and the places of neighbouring cells
differ along one of them.  Columns run with their axis and rows against theirs.
-/

open scoped Exact

namespace Plane

variable {α : Type}

/-- Every axis is along the columns, along the rows or across the plane. -/
theorem axis_cases
    (plane : Plane)
    (axis : Axis) :
    axis = plane.columnAxis ∨ axis = plane.rowAxis ∨ axis = plane.normalAxis := by
  cases plane <;> cases axis <;> simp [columnAxis, rowAxis, normalAxis]

@[simp]
theorem get_place_columnAxis
    (plane : Plane)
    (column row normal : α) :
    (plane.place column row normal).get plane.columnAxis = column := by
  cases plane <;> rfl

@[simp]
theorem get_place_rowAxis
    (plane : Plane)
    (column row normal : α) :
    (plane.place column row normal).get plane.rowAxis = row := by
  cases plane <;> rfl

@[simp]
theorem get_place_normalAxis
    (plane : Plane)
    (column row normal : α) :
    (plane.place column row normal).get plane.normalAxis = normal := by
  cases plane <;> rfl

theorem get_place_of_column
    (plane : Plane)
    (column row normal other : α) :
    (plane.place other row normal).get =
      Function.update (plane.place column row normal).get plane.columnAxis other := by
  funext axis
  cases plane <;> cases axis <;> rfl

theorem get_place_of_row
    (plane : Plane)
    (column row normal other : α) :
    (plane.place column other normal).get =
      Function.update (plane.place column row normal).get plane.rowAxis other := by
  funext axis
  cases plane <;> cases axis <;> rfl

theorem get_place_of_normal
    (plane : Plane)
    (column row normal other : α) :
    (plane.place column row other).get =
      Function.update (plane.place column row normal).get plane.normalAxis other := by
  funext axis
  cases plane <;> cases axis <;> rfl

/-- The axes of a plane and its normal are those of space. -/
theorem sum_axes
    {M : Type}
    [AddCommMonoid M]
    (plane : Plane)
    (term : Axis → M) :
    term plane.columnAxis + term plane.rowAxis + term plane.normalAxis =
      term .x + term .y + term .z := by
  cases plane with
  | yz => exact (add_comm _ _).trans (add_assoc _ _ _).symm
  | zx => exact (add_assoc _ _ _).trans (add_comm _ _)
  | xy => rfl

end Plane

namespace Viewpoint

variable {α : Type}

/-- Rows or columns away from the edges of a slice, with a margin of others before and behind. -/
def Inner
    (viewpoint : Viewpoint α)
    (margin index : Nat) :
    Prop :=
  margin < index ∧ index + margin ≤ viewpoint.settings.side

variable {viewpoint : Viewpoint α}

theorem inner_of_mem_Icc
    (viewpoint : Viewpoint α)
    {margin index : Nat}
    (member : index ∈ Set.Icc (margin + 1) (viewpoint.settings.side - margin)) :
    viewpoint.Inner margin index := by
  obtain ⟨first, last⟩ := member
  exact ⟨by omega, by omega⟩

theorem Inner.inside
    {margin index : Nat}
    (inner : viewpoint.Inner margin index) :
    1 ≤ index ∧ index ≤ viewpoint.settings.side := by
  obtain ⟨before, behind⟩ := inner
  exact ⟨by omega, by omega⟩

theorem Inner.mono
    {wider margin index : Nat}
    (inner : viewpoint.Inner wider index)
    (atMost : margin ≤ wider) :
    viewpoint.Inner margin index := by
  obtain ⟨before, behind⟩ := inner
  exact ⟨by omega, by omega⟩

theorem Inner.next
    {margin index : Nat}
    (inner : viewpoint.Inner (margin + 1) index) :
    viewpoint.Inner margin (index + 1) := by
  obtain ⟨before, behind⟩ := inner
  exact ⟨by omega, by omega⟩

theorem Inner.previous
    {margin index : Nat}
    (inner : viewpoint.Inner (margin + 1) index) :
    viewpoint.Inner margin (index - 1) := by
  obtain ⟨before, behind⟩ := inner
  exact ⟨by omega, by omega⟩

end Viewpoint

variable {K : Type} [Field K] [LinearOrder K] [FloorRing K]

namespace SliceSettings

/-- A box that has some extent along an axis. -/
def IsWide
    (settings : SliceSettings K)
    (axis : Axis) :
    Prop :=
  settings.low.get axis ≠ settings.high.get axis

/--
Settings under which no difference on a plane is taken over nothing and no grid is
flattened.
-/
structure Resolve
    (settings : SliceSettings K)
    (plane : Plane) :
    Prop where
  columns : settings.IsWide plane.columnAxis
  rows : settings.IsWide plane.rowAxis
  normal : settings.normalStep ≠ 0
  flatness : settings.flatness ≤ 0

/-- A session keeps the settings it was given, but for the number of samples. -/
theorem Resolve.of_view
    {Request : Type}
    {settings : SliceSettings K}
    {recent : Recent Request K}
    {viewpoint : Viewpoint K}
    {plane : Plane}
    (resolve : settings.Resolve plane)
    (view : SameView viewpoint (recent.viewpoint settings)) :
    viewpoint.settings.Resolve plane := by
  rw [view.settings]
  obtain ⟨request, side, held⟩ := recent
  cases side <;> cases held <;>
    exact ⟨resolve.columns, resolve.rows, resolve.normal, resolve.flatness⟩

end SliceSettings

namespace Viewpoint

/-- The coordinates of a cell of a slice that is moved along the normal by an offset. -/
def place
    (viewpoint : Viewpoint K)
    (row col : Nat)
    (offset : K) :
    Axis → K :=
  (viewpoint.worldPoint (row : K) (col : K) offset).get

/-- Cells lie at the same places where a session looks and where it was last told to. -/
theorem place_of_sameView
    {first second : Viewpoint K}
    (same : SameView first second) :
    first.place = second.place := by
  unfold place
  rw [same.worldPoint_eq]

variable
  (viewpoint : Viewpoint K)
  (row col other : Nat)
  (offset : K)

/-- Another column lies further along its axis. -/
theorem place_of_column :
    viewpoint.place row other offset =
      Function.update (viewpoint.place row col offset) viewpoint.plane.columnAxis
        (viewpoint.place row col offset viewpoint.plane.columnAxis +
          ((other : K) - col) * viewpoint.columnStep) := by
  simp only [place, worldPoint, Plane.get_place_columnAxis]
  rw [viewpoint.plane.get_place_of_column]
  congr 1
  ring

/-- Another row lies further back along its axis. -/
theorem place_of_row :
    viewpoint.place other col offset =
      Function.update (viewpoint.place row col offset) viewpoint.plane.rowAxis
        (viewpoint.place row col offset viewpoint.plane.rowAxis -
          ((other : K) - row) * viewpoint.rowStep) := by
  simp only [place, worldPoint, Plane.get_place_rowAxis]
  rw [viewpoint.plane.get_place_of_row]
  congr 1
  ring

/-- An offset moves a place along the normal. -/
theorem place_of_offset :
    viewpoint.place row col offset =
      Function.update (viewpoint.place row col 0) viewpoint.plane.normalAxis
        (viewpoint.place row col 0 viewpoint.plane.normalAxis + offset) := by
  simp only [place, worldPoint, Plane.get_place_normalAxis, add_zero]
  exact viewpoint.plane.get_place_of_normal _ _ _ _

variable {viewpoint}

/-- A slice with an inner cell resolves an axis along which its box has an extent. -/
theorem Inner.step_ne_zero
    {margin index : Nat}
    {axis : Axis}
    (inner : viewpoint.Inner (margin + 1) index)
    (wide : viewpoint.settings.IsWide axis) :
    viewpoint.step axis ≠ 0 := by
  obtain ⟨before, behind⟩ := inner
  have steps : ((viewpoint.settings.side - 1 : Nat) : K) ≠ 0 :=
    Nat.cast_ne_zero.mpr (by omega)
  exact div_ne_zero (sub_ne_zero.mpr wide.symm) steps

end Viewpoint

section StandardBox

/-- The standard box, sampled in steps of a fifth, and no grid taken for flat. -/
def SliceSettings.fifths : SliceSettings K :=
  { SliceSettings.standard with side := 11, flatness := 0 }

theorem SliceSettings.fifths_resolve (plane : Plane) :
    (fifths : SliceSettings K).Resolve plane := by
  have wide : ∀ axis, (fifths : SliceSettings K).IsWide axis := by
    intro axis
    have apart : (-1 : K) ≠ 1 := by norm_num
    cases axis <;> simpa [IsWide, fifths, standard, PerAxis.get] using apart
  exact ⟨wide _, wide _, by simp [fifths, standard, Decimal.powerOfTen], le_refl 0⟩

theorem Viewpoint.place_fifths
    (level : K)
    (row col : Nat) :
    ((start SliceSettings.fifths).definePlane .yz level).place row col 0 =
      (PerAxis.mk level (-1 + (col - 1) / 5) (1 - (row - 1) / 5)).get := by
  have step :
      ∀ axis, ((start SliceSettings.fifths).definePlane .yz level).step axis = 1 / 5 := by
    intro axis
    cases axis <;>
      simp [step, definePlane, start, SliceSettings.fifths, SliceSettings.standard, PerAxis.get,
        clampSide, leastSide, greatestSide] <;>
      norm_num
  simp only [place, worldPoint, columnStep, rowStep, step]
  funext axis
  cases axis <;>
    simp [definePlane, start, SliceSettings.fifths, SliceSettings.standard, Plane.place,
      PerAxis.get, PerAxis.set, PerAxis.ofFn, Plane.normalAxis, Plane.columnAxis,
      Plane.rowAxis, div_eq_mul_inv]

end StandardBox

end Electrostatics
