import Electrostatics.Number.Scalar

namespace Electrostatics

/-!
# Samples along a line

A run of samples is read from index one on.  Difference rules look one place past
the ends, so a read outside the run gives zero and a write outside it does nothing.
-/

open scoped Scalar

/-- Samples along a line. -/
structure Samples (α : Type) where
  values : Array α
  deriving Repr, DecidableEq

namespace Samples

variable {α : Type}

/-- The number of samples. -/
def size (samples : Samples α) : Nat :=
  samples.values.size

/-- The samples as a list. -/
def toList (samples : Samples α) : List α :=
  samples.values.toList

/-- The samples of a list. -/
def ofList (values : List α) : Samples α :=
  { values := values.toArray }

/-- The samples of a function of the index. -/
def ofFn (size : Nat) (value : Nat → α) : Samples α :=
  { values := Array.ofFn (fun index : Fin size => value (index.val + 1)) }

/-- Change every sample. -/
def map {β : Type} (change : α → β) (samples : Samples α) : Samples β :=
  { values := samples.values.map change }

/-- Replace the sample at an index inside the run. -/
def set (samples : Samples α) (index : Nat) (value : α) : Samples α :=
  if inside : 1 ≤ index ∧ index ≤ samples.size then
    { values := samples.values.set (index - 1) value (by
        have bounded : samples.size = samples.values.size := rfl
        omega) }
  else
    samples

/-- Replace every sample. -/
def fill (samples : Samples α) (value : α) : Samples α :=
  samples.map (fun _ => value)

variable [Scalar α]

/-- The sample at an index, zero outside the run. -/
def get (samples : Samples α) (index : Nat) : α :=
  if index = 0 then 0 else samples.values.getD (index - 1) 0

/-- Samples that are all zero. -/
def zeros (size : Nat) : Samples α :=
  { values := Array.replicate size 0 }

/-- Add a number to every sample. -/
def addScalar (samples : Samples α) (value : α) : Samples α :=
  samples.map (fun sample => sample + value)

/-- The magnitude of every sample. -/
def magnitudes (samples : Samples α) : Samples α :=
  samples.map Scalar.magnitude

/--
Write a run over this one from an index on, up to its end.  Places that the other
run does not reach take the zero that is read there; index zero writes nothing.
-/
def overwrite (samples : Samples α) (start : Nat) (source : Samples α) : Samples α :=
  if start = 0 then
    samples
  else
    ofFn samples.size (fun index =>
      if start ≤ index then
        source.get (index - start + 1)
      else
        samples.get index)

/-- The central difference with a spacing, zero at both ends. -/
def difference (samples : Samples α) (index : Nat) (h : α) : α :=
  if index < 2 ∨ samples.size < index + 1 then
    0
  else
    (samples.get (index + 1) - samples.get (index - 1)) / (2 * h)

end Samples

end Electrostatics
