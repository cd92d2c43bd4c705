import Electrostatics.Proofs.Number.Exact
import Electrostatics.RootFinding

namespace Electrostatics.RootFinding

/-!
# Iterations along a path

An iteration without a bracket goes from place to place.  It settles at a place that is good or
close to the one before, it cannot go on from a flat one, and it stops when its iterations are
used up.  Whichever comes first decides what it ends with, so a path has one end only.
-/

/-- The places of an iteration: some are good as they stand, and from some there is no way on. -/
structure Path (K : Type) where
  place : Nat → K
  Good : Nat → Prop
  Flat : Nat → Prop

namespace Path

variable
  {K : Type}
  [Field K]
  [LinearOrder K]

/-- An iteration settles at a good place and at one that is close to the place before. -/
def Settled
    (path : Path K)
    (tolerance : K) :
    Nat → Prop
  | 0 => path.Good 0
  | k + 1 => path.Good (k + 1) ∨ |path.place (k + 1) - path.place k| < tolerance

/-- A place is reached when the iteration neither settles before nor finds a flat place. -/
def Reaches
    (path : Path K)
    (tolerance : K)
    (k : Nat) :
    Prop :=
  ∀ earlier < k, ¬path.Settled tolerance earlier ∧ ¬path.Flat earlier

/--
What an iteration ends with at a place that it has reached: the place, if it settles there or no
iteration is left, and an error if it would have to go on from a flat place.
-/
inductive EndsAt
    (path : Path K)
    (tolerance : K)
    (iterations : Nat)
    (failure : K → RootError K) :
    Nat → Except (RootError K) K → Prop
  | settled
      {k : Nat}
      (settled : path.Settled tolerance k) :
      EndsAt path tolerance iterations failure k (.ok (path.place k))
  | exhausted :
      EndsAt path tolerance iterations failure iterations (.ok (path.place iterations))
  | refused
      {k : Nat}
      (left : k < iterations)
      (unsettled : ¬path.Settled tolerance k)
      (flat : path.Flat k) :
      EndsAt path tolerance iterations failure k (.error (failure (path.place k)))

/-- An iteration ends at a place that it reaches with the iterations it has. -/
def Ends
    (path : Path K)
    (tolerance : K)
    (iterations : Nat)
    (failure : K → RootError K)
    (result : Except (RootError K) K) :
    Prop :=
  ∃ k ≤ iterations,
    path.Reaches tolerance k ∧ path.EndsAt tolerance iterations failure k result

/-- A path without its first place. -/
def next (path : Path K) : Path K where
  place k := path.place (k + 1)
  Good k := path.Good (k + 1)
  Flat k := path.Flat (k + 1)

variable
  {path : Path K}
  {tolerance : K}
  {iterations : Nat}
  {failure : K → RootError K}
  {first second result : Except (RootError K) K}

theorem settled_of_good
    {k : Nat}
    (good : path.Good k) :
    path.Settled tolerance k := by
  cases k with
  | zero => exact good
  | succ k => exact .inl good

/-! ## One end only -/

/-- Beyond a place where the iteration ends, none is reached. -/
theorem EndsAt.not_reaches
    {k later : Nat}
    (ends : path.EndsAt tolerance iterations failure k result)
    (beyond : k < later)
    (within : later ≤ iterations) :
    ¬path.Reaches tolerance later := by
  intro reaches
  obtain ⟨unsettled, steep⟩ := reaches k beyond
  cases ends with
  | settled settled => exact unsettled settled
  | exhausted => exact beyond.not_ge within
  | refused left unsettled flat => exact steep flat

/-- At one place an iteration ends in one way. -/
theorem EndsAt.unique
    {k : Nat}
    (firstEnds : path.EndsAt tolerance iterations failure k first)
    (secondEnds : path.EndsAt tolerance iterations failure k second) :
    first = second := by
  cases firstEnds with
  | settled settled =>
      cases secondEnds with
      | settled _ | exhausted => rfl
      | refused _ unsettled _ => exact absurd settled unsettled
  | exhausted =>
      cases secondEnds with
      | settled _ | exhausted => rfl
      | refused left _ _ => exact absurd left (lt_irrefl _)
  | refused left unsettled flat =>
      cases secondEnds with
      | settled settled => exact absurd settled unsettled
      | exhausted => exact absurd left (lt_irrefl _)
      | refused _ _ _ => rfl

/-- A path has one end only. -/
theorem Ends.unique
    (firstEnds : path.Ends tolerance iterations failure first)
    (secondEnds : path.Ends tolerance iterations failure second) :
    first = second := by
  obtain ⟨k, within, reaches, ends⟩ := firstEnds
  obtain ⟨other, otherWithin, otherReaches, otherEnds⟩ := secondEnds
  rcases lt_trichotomy k other with before | rfl | behind
  · exact absurd otherReaches (ends.not_reaches before otherWithin)
  · exact ends.unique otherEnds
  · exact absurd reaches (otherEnds.not_reaches behind within)

/-- An iteration fails at the flat place that it reaches and cannot settle at. -/
theorem ends_error_iff
    {error : RootError K} :
    path.Ends tolerance iterations failure (.error error) ↔
      ∃ k < iterations,
        path.Reaches tolerance k ∧
          ¬path.Settled tolerance k ∧
          path.Flat k ∧
          error = failure (path.place k) := by
  constructor
  · rintro ⟨k, -, reaches, ends⟩
    cases ends with
    | refused left unsettled flat => exact ⟨k, left, reaches, unsettled, flat, rfl⟩
  · rintro ⟨k, left, reaches, unsettled, flat, rfl⟩
    exact ⟨k, left.le, reaches, .refused left unsettled flat⟩

/-! ## One iteration -/

/-- The iteration ends at once where it settles. -/
theorem ends_of_settled (settled : path.Settled tolerance 0) :
    path.Ends tolerance iterations failure (.ok (path.place 0)) :=
  ⟨0, Nat.zero_le _, nofun, .settled settled⟩

/-- Without any iteration left, it ends where it is. -/
theorem ends_of_exhausted :
    path.Ends tolerance 0 failure (.ok (path.place 0)) :=
  ⟨0, Nat.le_refl 0, nofun, .exhausted⟩

/-- From a flat place the iteration cannot go on. -/
theorem ends_of_flat
    (unsettled : ¬path.Settled tolerance 0)
    (flat : path.Flat 0) :
    path.Ends tolerance (iterations + 1) failure (.error (failure (path.place 0))) :=
  ⟨0, Nat.zero_le _, nofun, .refused (Nat.succ_pos _) unsettled flat⟩

/-- After a step below the tolerance the iteration settles. -/
theorem ends_of_close
    (unsettled : ¬path.Settled tolerance 0)
    (steep : ¬path.Flat 0)
    (close : |path.place 1 - path.place 0| < tolerance) :
    path.Ends tolerance (iterations + 1) failure (.ok (path.place 1)) := by
  refine ⟨1, Nat.le_add_left 1 iterations, fun earlier before => ?_, .settled (.inr close)⟩
  obtain rfl := Nat.lt_one_iff.mp before
  exact ⟨unsettled, steep⟩

/-- After a long step, the rest of the path settles where the path does. -/
theorem settled_next
    (far : ¬|path.place 1 - path.place 0| < tolerance)
    (k : Nat) :
    path.next.Settled tolerance k ↔ path.Settled tolerance (k + 1) := by
  cases k with
  | zero => exact (or_iff_left far).symm
  | succ k => exact Iff.rfl

theorem EndsAt.of_next
    {k : Nat}
    (far : ¬|path.place 1 - path.place 0| < tolerance)
    (ends : path.next.EndsAt tolerance iterations failure k result) :
    path.EndsAt tolerance (iterations + 1) failure (k + 1) result := by
  cases ends with
  | settled settled => exact .settled ((settled_next far k).mp settled)
  | exhausted => exact .exhausted
  | refused left unsettled flat =>
      exact .refused (Nat.succ_lt_succ left) (mt (settled_next far k).mpr unsettled) flat

/-- After a long step the iteration ends as it does along the rest of the path. -/
theorem ends_of_next
    (unsettled : ¬path.Settled tolerance 0)
    (steep : ¬path.Flat 0)
    (far : ¬|path.place 1 - path.place 0| < tolerance)
    (ends : path.next.Ends tolerance iterations failure result) :
    path.Ends tolerance (iterations + 1) failure result := by
  obtain ⟨k, within, reaches, endsAt⟩ := ends
  refine ⟨k + 1, Nat.succ_le_succ within, fun earlier before => ?_, endsAt.of_next far⟩
  cases earlier with
  | zero => exact ⟨unsettled, steep⟩
  | succ earlier =>
      rw [← settled_next far earlier]
      exact reaches earlier (Nat.lt_of_succ_lt_succ before)

/-- One iteration from a place that does not settle it: the place may be flat and the step short. -/
theorem ends_of_unsettled
    {decidableFlat : Decidable (path.Flat 0)}
    (unsettled : ¬path.Settled tolerance 0)
    (ends : path.next.Ends tolerance iterations failure result) :
    path.Ends tolerance (iterations + 1) failure
      (if path.Flat 0 then
        .error (failure (path.place 0))
      else if |path.place 1 - path.place 0| < tolerance then
        .ok (path.place 1)
      else
        result) := by
  split
  case isTrue flat => exact ends_of_flat unsettled flat
  case isFalse steep =>
    split
    case isTrue close => exact ends_of_close unsettled steep close
    case isFalse far => exact ends_of_next unsettled steep far ends

end Path

end Electrostatics.RootFinding
