import Electrostatics.Proofs.Samples.Access
import Mathlib.Logic.Function.Basic

namespace Electrostatics.Samples

/-!
# Runs of samples as stores

A run of samples is a plain map from indices to numbers, together with the number of its places.
A sample that is set outside changes nothing, one that is set inside changes that index only, and
outside zero is read.  However a run was made and changed, it reads as its map does.
-/

open scoped Scalar

variable {α : Type}

/-- A change of a run of samples. -/
inductive Edit (α : Type) where
  | set (index : Nat) (value : α)
  | fill (value : α)
  | addScalar (value : α)

/-- How a run of samples is made. -/
inductive Origin (α : Type) where
  | zeros (size : Nat)
  | ofList (values : List α)
  | ofFn (size : Nat) (value : Nat → α)

/-- A number of places and a number for every index. -/
structure Line (α : Type) where
  size : Nat
  sample : Nat → α

namespace Line

/-- Replace the number of an index among the places. -/
def set
    (line : Line α)
    (index : Nat)
    (value : α) : Line α :=
  if 1 ≤ index ∧ index ≤ line.size then
    { line with sample := Function.update line.sample index value }
  else
    line

variable [Scalar α]

/-- The number of an index among the places, zero elsewhere. -/
def read
    (line : Line α)
    (index : Nat) : α :=
  if 1 ≤ index ∧ index ≤ line.size then line.sample index else 0

/-- What a change of the samples does to their map. -/
def edit (line : Line α) : Edit α → Line α
  | .set index value => line.set index value
  | .fill value => { line with sample := fun _ => value }
  | .addScalar value => { line with sample := fun index => line.sample index + value }

end Line

variable [Scalar α]

/-- Carry out a change. -/
def edit (samples : Samples α) : Edit α → Samples α
  | .set index value => samples.set index value
  | .fill value => samples.fill value
  | .addScalar value => samples.addScalar value

namespace Origin

/-- The samples that are made. -/
def samples : Origin α → Samples α
  | .zeros size => Samples.zeros size
  | .ofList values => Samples.ofList values
  | .ofFn size value => Samples.ofFn size value

/-- The map of the samples that are made. -/
def line : Origin α → Line α
  | .zeros size => { size := size, sample := fun _ => 0 }
  | .ofList values =>
      { size := values.length, sample := fun index => values.getD (index - 1) 0 }
  | .ofFn size value => { size := size, sample := value }

end Origin

/-- A run of samples has the places of a map and reads as the map does. -/
structure Follows
    (samples : Samples α)
    (line : Line α) :
    Prop where
  size : samples.size = line.size
  get : ∀ index, samples.get index = line.read index

/-- A run follows a map if it has its places and holds its numbers there. -/
theorem Follows.of_inside
    {samples : Samples α}
    {line : Line α}
    (size : samples.size = line.size)
    (inside :
      ∀ index, 1 ≤ index → index ≤ samples.size → samples.get index = line.sample index) :
    samples.Follows line where
  size := size
  get index := by
    by_cases placed : 1 ≤ index ∧ index ≤ line.size
    · rw [Line.read, if_pos placed]
      exact inside index placed.1 (size ▸ placed.2)
    · have outside : index = 0 ∨ samples.size < index := by omega
      rw [Line.read, if_neg placed, get_outside outside]

theorem size_zeros (size : Nat) :
    (zeros size : Samples α).size = size :=
  Array.size_replicate ..

/-- Samples that are all zero are read as zero, also outside. -/
theorem get_zeros (size index : Nat) :
    (zeros size : Samples α).get index = 0 := by
  rw [get, zeros, Array.getD_eq_getD_getElem?, Array.getElem?_replicate]
  split
  · rfl
  · split <;> rfl

theorem get_ofList
    (values : List α)
    {index : Nat}
    (first : 1 ≤ index) :
    (ofList values).get index = values.getD (index - 1) 0 := by
  simp [get, ofList, Nat.ne_of_gt first]

/-- Samples follow the map that they are made with. -/
theorem Origin.follows (origin : Origin α) :
    origin.samples.Follows origin.line := by
  cases origin with
  | zeros size => exact .of_inside (size_zeros size) fun index _ _ => get_zeros size index
  | ofList values =>
      exact .of_inside List.size_toArray fun _ first _ => get_ofList values first
  | ofFn size value =>
      exact .of_inside (size_ofFn size value) fun _ first last =>
        get_ofFn value first (size_ofFn size value ▸ last)

namespace Follows

variable
  {samples : Samples α}
  {line : Line α}
  (follows : samples.Follows line)
include follows

/-- Among the places the number of the map is read. -/
theorem get_inside
    {index : Nat}
    (first : 1 ≤ index)
    (last : index ≤ samples.size) :
    samples.get index = line.sample index :=
  (follows.get index).trans (if_pos ⟨first, follows.size ▸ last⟩)

theorem set
    (index : Nat)
    (value : α) :
    (samples.set index value).Follows (line.set index value) := by
  by_cases inside : 1 ≤ index ∧ index ≤ samples.size
  · have mapped : line.set index value =
        { line with sample := Function.update line.sample index value } :=
      if_pos (follows.size ▸ inside)
    rw [mapped]
    refine .of_inside ((size_set ..).trans follows.size) fun other first last => ?_
    rw [size_set] at last
    rcases eq_or_ne other index with rfl | different
    · exact (get_set value first last).trans (Function.update_self other value line.sample).symm
    · have untouched := get_set_of_ne samples value different.symm inside.1
      rw [untouched, follows.get_inside first last]
      exact (Function.update_of_ne different value line.sample).symm
  · have kept : samples.set index value = samples := dif_neg inside
    have mapped : line.set index value = line := if_neg (follows.size ▸ inside)
    rw [kept, mapped]
    exact follows

/-- A change of every sample is one of the numbers of the map. -/
theorem map (change : α → α) :
    (samples.map change).Follows
      { line with sample := fun index => change (line.sample index) } := by
  refine .of_inside ((size_map ..).trans follows.size) fun index first last => ?_
  rw [size_map] at last
  rw [get_map change first last, follows.get_inside first last]

/-- One change keeps samples and map together. -/
theorem edit (change : Edit α) :
    (samples.edit change).Follows (line.edit change) := by
  cases change with
  | set index value => exact follows.set index value
  | fill value => exact follows.map fun _ => value
  | addScalar value => exact follows.map fun sample => sample + value

/-- So do any number of changes. -/
theorem edits (changes : List (Edit α)) :
    (changes.foldl Samples.edit samples).Follows (changes.foldl Line.edit line) := by
  induction changes generalizing samples line with
  | nil => exact follows
  | cons change later inductionHypothesis => exact inductionHypothesis (follows.edit change)

end Follows

end Electrostatics.Samples
