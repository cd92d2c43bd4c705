import Electrostatics.Number.Scalar

namespace Electrostatics.Scalar

/-!
# Holding values within a limit

Values that are neither below nor above the limits are held as they are, and what has been
held once is not changed again.  Both follow from the order of the two comparisons and hold
of every number type, also where a comparison obeys no law.
-/

variable {α : Type} [Scalar α]

/-- A value within the limits is not changed. -/
theorem clamp_of_within
    {limit value : α}
    (within : ¬ value < -limit ∧ ¬ limit < value) :
    clamp limit value = value := by
  obtain ⟨above, below⟩ := within
  simp only [clamp]
  rw [if_neg above, if_neg below]

/-- The upper limit is held as itself, whatever it compares to. -/
theorem clamp_limit (limit : α) :
    clamp limit limit = limit := by
  by_cases crossed : limit < -limit
  · simp [clamp, crossed]
  · simp [clamp, crossed]

/-- Holding is done once and for all. -/
theorem clamp_clamp (limit value : α) :
    clamp limit (clamp limit value) = clamp limit value := by
  by_cases below : value < -limit
  · by_cases crossed : limit < -limit
    · have raised : clamp limit value = limit := by simp [clamp, below, crossed]
      rw [raised, clamp_limit]
    · have raised : clamp limit value = -limit := by simp [clamp, below, crossed]
      rw [raised]
      simp [clamp, crossed]
  · by_cases above : limit < value
    · have lowered : clamp limit value = limit := by simp [clamp, below, above]
      rw [lowered, clamp_limit]
    · have kept := clamp_of_within ⟨below, above⟩
      rw [kept, kept]

end Electrostatics.Scalar
