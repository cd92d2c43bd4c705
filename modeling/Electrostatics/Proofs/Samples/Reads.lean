import Electrostatics.Proofs.Samples.Access

namespace Electrostatics.Samples

/-!
# What the running integral reads

The running integral up to an index is written once more, with samples that are read one at a
time and reading may have an effect, such as a refusal.  Where every read gives its sample, this
is the running integral.  The places that are read lie inside of the run and none of them lies
behind the index, except that the second entry looks at the third sample if there is one.
-/

open scoped Scalar

variable
  {α : Type}
  [Scalar α]

/-! ## One kind of index at a time -/

/-- An index ends an even number of intervals, or an odd one, or is the second. -/
theorem index_kinds
    {index : Nat}
    (first : 1 ≤ index) :
    index = 2 ∨ (∃ panels, index = 2 * panels + 1) ∨ (∃ panels, index = 2 * panels + 4) := by
  by_cases second : index = 2
  · exact .inl second
  · by_cases odd : index % 2 = 1
    · exact .inr (.inl ⟨index / 2, by omega⟩)
    · exact .inr (.inr ⟨(index - 4) / 2, by omega⟩)

theorem integralTo_second
    {samples : Samples α}
    (h : α)
    (longer : 2 < samples.size) :
    samples.integralTo h 2 =
      h * (5 * samples.get 1 + 8 * samples.get 2 - samples.get 3) / 12 := by
  simp [integralTo, longer]

theorem integralTo_panels
    (samples : Samples α)
    (h : α)
    (panels : Nat) :
    samples.integralTo h (2 * (panels + 1) + 1) =
      h * samples.simpson 1 (2 * (panels + 1) + 1) := by
  have notZero : 2 * (panels + 1) + 1 - 1 ≠ 0 := by omega
  have notOne : 2 * (panels + 1) + 1 - 1 ≠ 1 := by omega
  have even : (2 * (panels + 1) + 1 - 1) % 2 = 0 := by omega
  simp only [integralTo, notZero, notOne, even, if_true, if_false]

theorem integralTo_threeEighths
    (samples : Samples α)
    (h : α)
    (panels : Nat) :
    samples.integralTo h (2 * panels + 4) =
      h * samples.simpson 1 (2 * panels + 1) +
        3 * h / 8 *
          (samples.get (2 * panels + 1) + 3 * samples.get (2 * panels + 2) +
            3 * samples.get (2 * panels + 3) + samples.get (2 * panels + 4)) := by
  have notZero : 2 * panels + 4 - 1 ≠ 0 := by omega
  have notOne : 2 * panels + 4 - 1 ≠ 1 := by omega
  have odd : (2 * panels + 4 - 1) % 2 ≠ 0 := by omega
  have middle : 2 * panels + 4 - 3 = 2 * panels + 1 := by omega
  simp only [integralTo, notZero, notOne, odd, middle, if_false]

/-! ## Reading with an effect -/

section Effectful

variable
  {m : Type → Type}
  [Monad m]

/-- Add samples, weighted by four and two in turn, reading one after another. -/
def addAlternatingM
    (read : Nat → m α)
    (start : Nat) :
    (count offset : Nat) →
    α →
    m α
  | 0, _, sum => pure sum
  | count + 1, offset, sum => do
      let sample ← read (start + offset)
      addAlternatingM read start count (offset + 1)
        (sum + (if offset % 2 = 0 then 2 else 4) * sample)

/-- Simpson's rule between two indices, reading one sample after another. -/
def simpsonM
    (read : Nat → m α)
    (first last : Nat) :
    m α :=
  if last ≤ first then
    pure 0
  else do
    let intervals := evenAtLeast (last - first)
    let atStart ← read first
    let atEnd ← read (first + intervals)
    let sum ← addAlternatingM read first (intervals - 1) 1 (atStart + atEnd)
    pure (sum / 3)

/-- The integral from sample one to an index, reading one sample after another. -/
def integralToM
    (read : Nat → m α)
    (size : Nat)
    (h : α)
    (index : Nat) :
    m α :=
  let intervals := index - 1
  if intervals = 0 then
    pure 0
  else if intervals = 1 then
    if index < size then do
      let first ← read 1
      let second ← read index
      let third ← read (index + 1)
      pure (h * (5 * first + 8 * second - third) / 12)
    else do
      let first ← read 1
      let second ← read index
      pure (h * (first + second) / 2)
  else if intervals % 2 = 0 then do
    let sum ← simpsonM read 1 index
    pure (h * sum)
  else do
    let middle := index - 3
    let first ← read middle
    let second ← read (middle + 1)
    let third ← read (middle + 2)
    let fourth ← read index
    let sum ← simpsonM read 1 middle
    pure (h * sum + 3 * h / 8 * (first + 3 * second + 3 * third + fourth))

/-! ## Reading every sample -/

section Lawful

variable
  [LawfulMonad m]
  (samples : Samples α)

theorem addAlternatingM_pure
    (start count offset : Nat)
    (sum : α) :
    addAlternatingM (fun place => (pure (samples.get place) : m α)) start count offset sum =
      pure (samples.addAlternating start count offset sum) := by
  induction count generalizing offset sum with
  | zero => rfl
  | succ count inductionHypothesis =>
      rw [addAlternatingM, pure_bind, inductionHypothesis]
      rfl

theorem simpsonM_pure (first last : Nat) :
    simpsonM (fun place => (pure (samples.get place) : m α)) first last =
      pure (samples.simpson first last) := by
  unfold simpsonM simpson
  split
  · rfl
  · simp only [pure_bind, addAlternatingM_pure]

/-- Where every read gives its sample, the running integral is what comes out. -/
theorem integralToM_pure
    (h : α)
    (index : Nat) :
    integralToM (fun place => (pure (samples.get place) : m α)) samples.size h index =
      pure (samples.integralTo h index) := by
  simp only [integralToM, integralTo, pure_bind, simpsonM_pure, apply_ite (pure : α → m α)]

end Lawful

/-! ## The places -/

/-- The places that the running integral of a run may read for an entry. -/
def MayRead (size index place : Nat) : Prop :=
  1 ≤ place ∧ place ≤ size ∧ (place ≤ index ∨ index = 2 ∧ place = 3)

variable
  {read other : Nat → m α}

theorem addAlternatingM_congr
    {start count offset : Nat}
    (same :
      ∀ place,
        start + offset ≤ place →
        place < start + offset + count →
        read place = other place)
    (sum : α) :
    addAlternatingM read start count offset sum =
      addAlternatingM other start count offset sum := by
  induction count generalizing offset sum with
  | zero => rfl
  | succ count inductionHypothesis =>
      rw [addAlternatingM, addAlternatingM, same (start + offset) (by omega) (by omega)]
      refine bind_congr fun sample => inductionHypothesis ?_ _
      exact fun place low high => same place (by omega) (by omega)

/-- Over an even number of intervals nothing behind the range is read. -/
theorem simpsonM_congr
    {panels : Nat}
    (same : ∀ place, 1 ≤ place → place ≤ 2 * panels + 1 → read place = other place) :
    simpsonM read 1 (2 * panels + 1) = simpsonM other 1 (2 * panels + 1) := by
  have even : evenAtLeast (2 * panels + 1 - 1) = 2 * panels := if_neg (by omega)
  unfold simpsonM
  split
  case isTrue nothing => rfl
  case isFalse proper =>
    simp only [even]
    rw [same 1 (by omega) (by omega), same (1 + 2 * panels) (by omega) (by omega)]
    refine bind_congr fun atStart => bind_congr fun atEnd => ?_
    rw [addAlternatingM_congr]
    exact fun place low high => same place (by omega) (by omega)

/-- An entry of the running integral asks for no other places than those that it may read. -/
theorem integralToM_congr
    {size index : Nat}
    (same : ∀ place, MayRead size index place → read place = other place)
    (h : α)
    (first : 1 ≤ index)
    (last : index ≤ size) :
    integralToM read size h index = integralToM other size h index := by
  rcases index_kinds first with rfl | ⟨panels, rfl⟩ | ⟨panels, rfl⟩
  · simp only [integralToM, Nat.add_one_sub_one, Nat.one_ne_zero, if_true, if_false]
    rw [same 1 ⟨by omega, by omega, .inl (by omega)⟩, same 2 ⟨by omega, by omega, .inl (by omega)⟩]
    split
    case isTrue longer => rw [same 3 ⟨by omega, by omega, .inr ⟨rfl, rfl⟩⟩]
    case isFalse pair => rfl
  · have even : (2 * panels + 1 - 1) % 2 = 0 := by omega
    have notOne : 2 * panels + 1 - 1 ≠ 1 := by omega
    simp only [integralToM, even, notOne, if_true, if_false]
    rw [simpsonM_congr fun place low high => same place ⟨low, by omega, .inl high⟩]
  · have notZero : 2 * panels + 4 - 1 ≠ 0 := by omega
    have notOne : 2 * panels + 4 - 1 ≠ 1 := by omega
    have odd : (2 * panels + 4 - 1) % 2 ≠ 0 := by omega
    have middle : 2 * panels + 4 - 3 = 2 * panels + 1 := by omega
    have inside (place : Nat) (low : 1 ≤ place) (high : place ≤ 2 * panels + 4) :
        read place = other place :=
      same place ⟨low, by omega, .inl high⟩
    simp only [integralToM, notZero, notOne, odd, middle, if_false]
    rw [simpsonM_congr fun place low high => inside place low (by omega),
      inside (2 * panels + 1) (by omega) (by omega),
      inside (2 * panels + 1 + 1) (by omega) (by omega),
      inside (2 * panels + 1 + 2) (by omega) (by omega),
      inside (2 * panels + 4) (by omega) (by omega)]

/-- How long the run is matters to the second entry only, which looks for a third sample. -/
theorem integralToM_resize
    (read : Nat → m α)
    {size resized index : Nat}
    (third : index = 2 → (3 ≤ size ↔ 3 ≤ resized))
    (h : α) :
    integralToM read size h index = integralToM read resized h index := by
  by_cases second : index = 2
  · have longer : index < size ↔ index < resized := second ▸ third second
    simp only [integralToM, longer]
  · have notOne : index - 1 ≠ 1 := by omega
    simp only [integralToM, notOne, if_false]

end Effectful

/-- Runs that are the same where an entry reads have the same entry, however far they go on. -/
theorem integralTo_congr
    {left right : Samples α}
    {index : Nat}
    (third : index = 2 → (3 ≤ left.size ↔ 3 ≤ right.size))
    (same : ∀ place, MayRead left.size index place → left.get place = right.get place)
    (h : α)
    (first : 1 ≤ index)
    (last : index ≤ left.size) :
    left.integralTo h index = right.integralTo h index := by
  have alike :
      integralToM (fun place => (pure (left.get place) : Id α)) left.size h index =
        integralToM (fun place => pure (right.get place)) left.size h index :=
    integralToM_congr (fun place met => congrArg pure (same place met)) h first last
  rw [integralToM_pure, integralToM_resize _ third, integralToM_pure] at alike
  exact alike

end Electrostatics.Samples
