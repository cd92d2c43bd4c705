import Electrostatics.Proofs.Samples.Reads

namespace Electrostatics.Samples

/-!
# Runs that begin alike

Two runs of one length that agree on their first samples are told apart by no operation
that looks at these samples only.  The running integral is such an operation: up to an
index it reads nothing beyond, except that the first of all its steps looks one sample
ahead.  None of this asks for a law of arithmetic.
-/

open scoped Scalar

variable {α : Type} [Scalar α]

/-- Two runs of one length whose first samples, `count` of them, are the same. -/
structure AgreeTo
    (count : Nat)
    (left right : Samples α) :
    Prop where
  size : left.size = right.size
  inside : count ≤ left.size
  get : ∀ index, 1 ≤ index → index ≤ count → left.get index = right.get index

variable
  {left right : Samples α}
  {count : Nat}

namespace AgreeTo

theorem ofFn
    {size : Nat}
    {value other : Nat → α}
    (inside : count ≤ size)
    (same : ∀ index, 1 ≤ index → index ≤ count → value index = other index) :
    AgreeTo count (Samples.ofFn size value) (Samples.ofFn size other) where
  size := by simp
  inside := by simpa using inside
  get index first last := by
    have reached := Nat.le_trans last inside
    rw [get_ofFn value first reached, get_ofFn other first reached]
    exact same index first last

theorem map
    (agree : AgreeTo count left right)
    (change : α → α) :
    AgreeTo count (left.map change) (right.map change) where
  size := by simpa using agree.size
  inside := by simpa using agree.inside
  get index first last := by
    have reached := Nat.le_trans last agree.inside
    rw [get_map change first reached, get_map change first (agree.size ▸ reached),
      agree.get index first last]

/--
Integrals up to the same index are the same.  The second index looks at the third sample,
so three samples have to agree.
-/
theorem integralTo_eq
    {index : Nat}
    (agree : AgreeTo count left right)
    (reach : 3 ≤ count)
    (h : α)
    (first : 1 ≤ index)
    (last : index ≤ count) :
    left.integralTo h index = right.integralTo h index := by
  have inside := agree.inside
  refine integralTo_congr (fun _ => by rw [agree.size]) ?_ h first (by omega)
  rintro place ⟨low, -, near⟩
  exact agree.get place low (by omega)

theorem runningIntegral
    (agree : AgreeTo count left right)
    (reach : 3 ≤ count)
    (h : α) :
    AgreeTo count (left.runningIntegral h) (right.runningIntegral h) := by
  have integrals := ofFn agree.inside
    (fun index first last => agree.integralTo_eq reach h first last)
  rw [Samples.runningIntegral, Samples.runningIntegral, ← agree.size]
  exact integrals

end AgreeTo

end Electrostatics.Samples
