import Electrostatics.Samples.Integral

namespace Electrostatics.Samples

/-!
# Reading samples

What is read from a run that was built or changed.  Every operation keeps the number of
samples, and a read inside the run gives what the operation put there.
-/

open scoped Scalar

variable {α : Type}

@[simp]
theorem size_ofFn
    (size : Nat)
    (value : Nat → α) :
    (ofFn size value).size = size := by
  simp [Samples.size, ofFn]

@[simp]
theorem size_map
    {β : Type}
    (change : α → β)
    (samples : Samples α) :
    (samples.map change).size = samples.size := by
  simp [Samples.size, map]

@[simp]
theorem size_set
    (samples : Samples α)
    (index : Nat)
    (value : α) :
    (samples.set index value).size = samples.size := by
  unfold set
  split <;> simp [Samples.size]

/-- A list of values at the indices from one on is a run of them. -/
theorem ofList_map_range'
    (count : Nat)
    (value : Nat → α) :
    ofList ((List.range' 1 count).map value) = ofFn count value := by
  simp only [ofList, ofFn, Samples.mk.injEq]
  refine Array.ext (by simp) fun place _ _ => ?_
  simp [Nat.add_comm]

variable [Scalar α]

@[simp]
theorem size_runningIntegral
    (samples : Samples α)
    (h : α) :
    (samples.runningIntegral h).size = samples.size :=
  size_ofFn _ _

theorem get_ofFn
    {size index : Nat}
    (value : Nat → α)
    (first : 1 ≤ index)
    (last : index ≤ size) :
    (ofFn size value).get index = value index := by
  have inside : index - 1 < size := by omega
  have place : index - 1 + 1 = index := by omega
  have notZero : index ≠ 0 := by omega
  simp [get, ofFn, notZero, inside, place]

theorem get_map
    {samples : Samples α}
    {index : Nat}
    (change : α → α)
    (first : 1 ≤ index)
    (last : index ≤ samples.size) :
    (samples.map change).get index = change (samples.get index) := by
  have inside : index - 1 < samples.values.size := by
    have bounded : samples.size = samples.values.size := rfl
    omega
  have notZero : index ≠ 0 := by omega
  simp [get, map, notZero, inside]

/-- The sample that was set is the one that is read. -/
theorem get_set
    {samples : Samples α}
    {index : Nat}
    (value : α)
    (first : 1 ≤ index)
    (last : index ≤ samples.size) :
    (samples.set index value).get index = value := by
  have inside : index - 1 < samples.values.size := by
    have bounded : samples.size = samples.values.size := rfl
    omega
  have notZero : index ≠ 0 := by omega
  simp [get, set, notZero, first, last, inside]

theorem get_set_of_ne
    {index other : Nat}
    (samples : Samples α)
    (value : α)
    (different : index ≠ other)
    (first : 1 ≤ index) :
    (samples.set index value).get other = samples.get other := by
  unfold set
  split
  · by_cases isZero : other = 0
    · simp [get, isZero]
    · have apart : index - 1 ≠ other - 1 := by omega
      simp [get, isZero, apart]
  · rfl

theorem get_runningIntegral
    {samples : Samples α}
    {index : Nat}
    (h : α)
    (first : 1 ≤ index)
    (last : index ≤ samples.size) :
    (samples.runningIntegral h).get index = samples.integralTo h index :=
  get_ofFn _ first last

/-- Outside the run zero is read. -/
theorem get_outside
    {samples : Samples α}
    {index : Nat}
    (outside : index = 0 ∨ samples.size < index) :
    samples.get index = 0 := by
  rcases outside with rfl | beyond
  · exact if_pos rfl
  · have notZero : index ≠ 0 := by omega
    have past : samples.values.size ≤ index - 1 := by
      have bounded : samples.size = samples.values.size := rfl
      omega
    rw [get, if_neg notZero, Array.getD_eq_getD_getElem?, Array.getElem?_eq_none past,
      Option.getD_none]

/-- Runs of one length are the same when every sample is. -/
theorem ext_get
    {left right : Samples α}
    (size : left.size = right.size)
    (same : ∀ index, 1 ≤ index → index ≤ left.size → left.get index = right.get index) :
    left = right := by
  obtain ⟨leftValues⟩ := left
  obtain ⟨rightValues⟩ := right
  congr 1
  refine Array.ext size fun place leftInside rightInside => ?_
  have sample := same (place + 1) (Nat.le_add_left 1 place) leftInside
  simpa [get, leftInside, rightInside] using sample

/-- A change that leaves every sample alone leaves the run alone. -/
theorem map_eq_self
    {samples : Samples α}
    {change : α → α}
    (same :
      ∀ index, 1 ≤ index → index ≤ samples.size →
        change (samples.get index) = samples.get index) :
    samples.map change = samples := by
  refine ext_get (size_map change samples) fun index first last => ?_
  have inside : index ≤ samples.size := size_map change samples ▸ last
  rw [get_map change first inside, same index first inside]

/-- Where a sample has neighbours on both sides, the difference is taken between them. -/
theorem difference_interior
    {samples : Samples α}
    {index : Nat}
    (h : α)
    (before : 2 ≤ index)
    (behind : index + 1 ≤ samples.size) :
    samples.difference index h =
      (samples.get (index + 1) - samples.get (index - 1)) / (2 * h) :=
  if_neg (by omega)

end Electrostatics.Samples
