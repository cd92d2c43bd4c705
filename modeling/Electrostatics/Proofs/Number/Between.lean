import Mathlib.Analysis.Convex.Segment
import Mathlib.Tactic.NormNum
import Mathlib.Tactic.Ring

namespace Electrostatics

/-!
# Places in between

A place that divides the way from one end to the other lies between the two, in whichever order
they stand.
-/

variable
  {K : Type}
  [Field K]
  [LinearOrder K]
  [IsStrictOrderedRing K]
  {a b : K}

/-- A part of the way from one end to the other ends in between. -/
theorem part_of_the_way_mem_uIcc
    {part : K}
    (nonnegative : 0 ≤ part)
    (most : part ≤ 1) :
    a + part * (b - a) ∈ Set.uIcc a b := by
  rw [← segment_eq_uIcc, segment_eq_image']
  exact ⟨part, ⟨nonnegative, most⟩, rfl⟩

/-- The middle lies in between. -/
theorem middle_mem_uIcc (a b : K) : (a + b) / 2 ∈ Set.uIcc a b := by
  have half : (a + b) / 2 = a + 1 / 2 * (b - a) := by ring
  rw [half]
  exact part_of_the_way_mem_uIcc (by norm_num) (by norm_num)

end Electrostatics
