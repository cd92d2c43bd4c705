import Electrostatics.Number.Double
import Electrostatics.Proofs.Samples.Access

namespace Electrostatics.Samples

/-!
# Writing one run over another

A source that is written over a run from an index on ought to change the run as far as both of
them reach and nowhere else.  Up to the end of the source it does.  Behind its end the source is
read as zero, so there the run is cleared and not left alone: it is as it was only if it was zero
there before.
-/

open scoped Scalar

variable {α : Type}

/-- A place of a run that a source written from an index on covers; index zero writes nothing. -/
def IsCovered
    (samples source : Samples α)
    (start index : Nat) : Prop :=
  0 < start ∧ (start ≤ index ∧ index ≤ samples.size) ∧ index - start + 1 ≤ source.size

/-- A place of a run that lies behind the end of a source written from an index on. -/
def IsPast
    (samples source : Samples α)
    (start index : Nat) : Prop :=
  0 < start ∧ (start ≤ index ∧ index ≤ samples.size) ∧ source.size < index - start + 1

/-- No place is both covered and behind the source. -/
theorem IsPast.not_isCovered
    {samples source : Samples α}
    {start index : Nat}
    (past : IsPast samples source start index) :
    ¬ IsCovered samples source start index :=
  fun covered => Nat.not_le_of_lt past.2.2 covered.2.2

variable
  [Scalar α]
  {samples source : Samples α}
  {start index : Nat}

/-- A run has taken a source over as far as both of them reach and is otherwise as it was. -/
structure TakesOver
    (samples source : Samples α)
    (start : Nat)
    (written : Samples α) :
    Prop where
  size : written.size = samples.size
  covered :
    ∀ index, IsCovered samples source start index →
      written.get index = source.get (index - start + 1)
  kept :
    ∀ index, ¬ IsCovered samples source start index →
      written.get index = samples.get index

@[simp]
theorem size_overwrite
    (samples source : Samples α)
    (start : Nat) :
    (samples.overwrite start source).size = samples.size := by
  unfold overwrite
  split
  · rfl
  · exact size_ofFn _ _

/-- Nothing is written from index zero on. -/
@[simp]
theorem overwrite_zero (samples source : Samples α) :
    samples.overwrite 0 source = samples :=
  rfl

theorem overwrite_of_pos
    (started : 0 < start)
    (samples source : Samples α) :
    samples.overwrite start source =
      ofFn samples.size fun index =>
        if start ≤ index then source.get (index - start + 1) else samples.get index :=
  if_neg (Nat.ne_of_gt started)

/-- From the start to the end of the run, the source is read wherever it ends itself. -/
theorem get_overwrite
    (started : 0 < start)
    (first : start ≤ index)
    (last : index ≤ samples.size) :
    (samples.overwrite start source).get index = source.get (index - start + 1) := by
  rw [overwrite_of_pos started, get_ofFn _ (Nat.le_trans started first) last]
  exact if_pos first

theorem get_overwrite_of_covered
    (covered : IsCovered samples source start index) :
    (samples.overwrite start source).get index = source.get (index - start + 1) :=
  get_overwrite covered.1 covered.2.1.1 covered.2.1.2

/-- Behind the end of the source the run is cleared. -/
theorem get_overwrite_of_past
    (past : IsPast samples source start index) :
    (samples.overwrite start source).get index = 0 := by
  obtain ⟨started, ⟨first, last⟩, beyond⟩ := past
  rw [get_overwrite started first last]
  exact get_outside (.inr beyond)

/-- In front of the start, and outside the run, everything is as it was. -/
theorem get_overwrite_elsewhere
    (notCovered : ¬ IsCovered samples source start index)
    (notPast : ¬ IsPast samples source start index) :
    (samples.overwrite start source).get index = samples.get index := by
  rcases Nat.eq_zero_or_pos start with rfl | started
  · rfl
  by_cases inside : 1 ≤ index ∧ index ≤ samples.size
  · have before : ¬ start ≤ index := by
      intro first
      rcases Nat.lt_or_ge source.size (index - start + 1) with beyond | reached
      · exact notPast ⟨started, ⟨first, inside.2⟩, beyond⟩
      · exact notCovered ⟨started, ⟨first, inside.2⟩, reached⟩
    rw [overwrite_of_pos started, get_ofFn _ inside.1 inside.2]
    exact if_neg before
  · have outside : index = 0 ∨ samples.size < index := by omega
    rw [get_outside outside, get_outside (size_overwrite samples source start ▸ outside)]

/--
Writing a source over a run keeps the number of samples, writes nothing from index zero on and
copies the source as far as both reach.  It clears what lies behind the source, and only the
places outside both keep their samples.  So the run has taken the source over, and is otherwise
as it was, exactly if it held nothing but zeros behind the source.
-/
theorem overwriting_clears_behind_its_source
    (samples source : Samples α)
    (start : Nat) :
    let written := samples.overwrite start source
    written.size = samples.size ∧
      (start = 0 → written = samples) ∧
      (∀ index, IsCovered samples source start index →
        written.get index = source.get (index - start + 1)) ∧
      (∀ index, IsPast samples source start index → written.get index = 0) ∧
      (∀ index,
        ¬ IsCovered samples source start index →
        ¬ IsPast samples source start index →
        written.get index = samples.get index) ∧
      (TakesOver samples source start written ↔
        ∀ index, IsPast samples source start index → samples.get index = 0) := by
  intro written
  have cleared : ∀ index, IsPast samples source start index → written.get index = 0 :=
    fun _ past => get_overwrite_of_past past
  refine ⟨size_overwrite samples source start, ?_, fun _ => get_overwrite_of_covered, cleared,
    fun _ => get_overwrite_elsewhere, ?_⟩
  · rintro rfl
    exact overwrite_zero samples source
  · constructor
    · intro takesOver index past
      rw [← takesOver.kept index past.not_isCovered, cleared index past]
    · intro zeros
      refine ⟨size_overwrite samples source start, fun _ => get_overwrite_of_covered, ?_⟩
      intro index notCovered
      by_cases past : IsPast samples source start index
      · rw [cleared index past, zeros index past]
      · exact get_overwrite_elsewhere notCovered past

/-- One sample written over the first of three does not leave the other two alone. -/
theorem short_source_clears_the_rest :
    ∃ samples source : Samples Float,
      ¬ TakesOver samples source 1 (samples.overwrite 1 source) ∧
      samples.overwrite 1 source = .ofList [9, 0, 0] := by
  refine ⟨.ofList [1, 2, 3], .ofList [9], fun takesOver => ?_, ?_⟩
  · have behind : ¬ IsCovered (.ofList [1, 2, 3] : Samples Float) (.ofList [9]) 1 3 :=
      fun covered => absurd covered.2.2 (by decide)
    have kept := takesOver.kept 3 behind
    exact absurd kept (by decide +kernel)
  · decide +kernel

end Electrostatics.Samples
