import Electrostatics.Proofs.Grid.Flatness
import Electrostatics.Proofs.Number.DoubleArithmetic
import Electrostatics.Proofs.Number.DoubleRanks

namespace Electrostatics.Grid

/-!
# Undefined cells

An undefined spread is below no bound, but the spread of a grid of doubles is that of its
numbers, because the extrema pass undefined cells over.  So the numbers alone decide whether
the grid is flat, and a flat grid is filled with a number, also where it was undefined.  A
grid without any number has a spread of minus infinity and is filled with zeros.
-/

open scoped Scalar

variable
  {grid : Grid Float}
  {epsilon : Float}

section NoNumbers

variable (undefined : ∀ cell ∈ grid.toList, Scalar.isNumber cell = false)
include undefined

/-- A grid without numbers counts as flat for every bound above minus infinity. -/
theorem isFlat_iff_of_undefined :
    grid.isFlat epsilon = true ↔ -Scalar.unbounded < epsilon := by
  have spread : -Scalar.unbounded - Scalar.unbounded = (-Scalar.unbounded : Float) := by
    decide +kernel
  rw [isFlat_iff, bounds_of_undefined undefined, spread]

theorem flatValue_of_undefined : grid.flatValue = 0 := by
  have signs : (Scalar.unbounded * -Scalar.unbounded : Float) < 0 := by decide +kernel
  simp only [flatValue, bounds_of_undefined undefined, if_pos signs]

end NoNumbers

/-- The value of a flat grid is a number. -/
theorem isNumber_flatValue (flat : grid.isFlat epsilon = true) :
    Scalar.isNumber grid.flatValue = true := by
  by_cases numbers : ∃ cell ∈ grid.toList, Scalar.isNumber cell = true
  · obtain ⟨cell, met, number⟩ := numbers
    obtain ⟨least, greatest⟩ := bounds_of_number met number
    have inOrder := least.bounds grid.bounds.2 greatest.mem greatest.isNumber
    obtain ⟨lowFinite, highFinite⟩ := Double.isFinite_of_sub_lt inOrder (isFlat_iff.mp flat)
    simp only [flatValue]
    split
    · exact OrderedNumbers.isNumber_zero
    · exact Double.isNumber_half (Double.isNumber_add lowFinite highFinite)
  · have undefined : ∀ cell ∈ grid.toList, Scalar.isNumber cell = false := fun cell met =>
      Bool.eq_false_iff.mpr fun number => numbers ⟨cell, met, number⟩
    rw [flatValue_of_undefined undefined]
    exact OrderedNumbers.isNumber_zero

/-- A flat grid has no undefined cells once it has been flattened. -/
theorem isNumber_of_mem_flatten
    (flat : grid.isFlat epsilon = true)
    {cell : Float}
    (met : cell ∈ (grid.flatten epsilon).toList) :
    Scalar.isNumber cell = true := by
  rw [flatten_of_isFlat flat] at met
  rw [eq_of_mem_filled met]
  exact isNumber_flatValue flat

/--
Undefined cells do not keep a grid from being flattened.  It is flat exactly if the numbers
beside them are, and if there are none, for every bound above minus infinity.  A grid that is
not flat is kept with its undefined cells; a flat one is filled with a number, which is zero
if it had none, and its undefined cells are gone.
-/
theorem undefined_cells_are_flattened_away
    {grid : Grid Float}
    (undefined : ∃ cell ∈ grid.toList, Scalar.isNumber cell = false)
    (epsilon : Float) :
    ((∃ cell ∈ grid.toList, Scalar.isNumber cell = true) →
        ∃ low high,
          IsLeastNumber grid.toList low ∧
          IsGreatestNumber grid.toList high ∧
          (grid.isFlat epsilon = true ↔ high - low < epsilon)) ∧
      ((∀ cell ∈ grid.toList, Scalar.isNumber cell = false) →
        (grid.isFlat epsilon = true ↔ -Scalar.unbounded < epsilon) ∧
        (grid.isFlat epsilon = true →
          grid.flatten epsilon = filled grid.rows grid.cols 0)) ∧
      (grid.isFlat epsilon = false → grid.flatten epsilon = grid) ∧
      (grid.isFlat epsilon = true →
        ∃ level,
          Scalar.isNumber level = true ∧
          grid.flatten epsilon = filled grid.rows grid.cols level) ∧
      ((∃ cell ∈ (grid.flatten epsilon).toList, Scalar.isNumber cell = false) ↔
        grid.isFlat epsilon = false) := by
  refine ⟨?_, fun none => ⟨isFlat_iff_of_undefined none, fun flat => ?_⟩, flatten_of_not_isFlat,
    fun flat => ⟨grid.flatValue, isNumber_flatValue flat, flatten_of_isFlat flat⟩, ?_⟩
  · rintro ⟨cell, met, number⟩
    obtain ⟨least, greatest⟩ := bounds_of_number met number
    exact ⟨_, _, least, greatest, isFlat_iff⟩
  · rw [flatten_of_isFlat flat, flatValue_of_undefined none]
  · constructor
    · rintro ⟨cell, met, isUndefined⟩
      refine Bool.eq_false_iff.mpr fun flat => ?_
      cases isUndefined.symm.trans (isNumber_of_mem_flatten flat met)
    · intro varies
      rwa [flatten_of_not_isFlat varies]

/-- An undefined cell is kept beside numbers that differ by the bound, and lost below that. -/
theorem undefined_cell_beside_two_numbers :
    let grid : Grid Float := ofRows [[0 / 0, 1], [1 / 2, 1]]
    (∃ cell ∈ grid.toList, Scalar.isNumber cell = false) ∧
      (∃ cell ∈ (grid.flatten (1 / 2)).toList, Scalar.isNumber cell = false) ∧
      ¬∃ cell ∈ (grid.flatten 1).toList, Scalar.isNumber cell = false := by
  intro grid
  have undefined : ∃ cell ∈ grid.toList, Scalar.isNumber cell = false := by decide +kernel
  obtain ⟨-, -, -, -, kept⟩ := undefined_cells_are_flattened_away undefined (1 / 2)
  obtain ⟨-, -, -, -, lost⟩ := undefined_cells_are_flattened_away undefined 1
  have varies : grid.isFlat (1 / 2) = false := by decide +kernel
  have flat : grid.isFlat 1 = true := by decide +kernel
  exact ⟨undefined, kept.mpr varies, fun still => by cases flat.symm.trans (lost.mp still)⟩

/-- A grid with an undefined cell is flattened to the only number that it has. -/
theorem undefined_cell_is_filled :
    ∃ (grid : Grid Float) (epsilon : Float),
      (∃ cell ∈ grid.toList, Scalar.isNumber cell = false) ∧
      ¬(grid.isFlat epsilon = false ∧ grid.flatten epsilon = grid) ∧
      grid.flatten epsilon = filled 2 2 1 := by
  refine ⟨ofRows [[0 / 0, 1], [1, 1]], 1e-10, ?_, ?_, ?_⟩
  · decide +kernel
  · decide +kernel
  · decide +kernel

end Electrostatics.Grid
