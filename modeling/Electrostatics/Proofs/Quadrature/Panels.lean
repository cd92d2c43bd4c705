import Electrostatics.Quadrature

namespace Electrostatics.Quadrature

/-!
# Panels without memory

A panel of the adaptive rule hands the values that it knows on to its halves.  They are those
of the integrand at the ends and in the middle, for every number type and however often the
panel is split, so the rule can be read as one that remembers nothing and takes every value of
the integrand afresh.
-/

open scoped Scalar

variable
  {α : Type}
  [Scalar α]

/-- The panel of a function between two places. -/
def Panel.ofFunction
    (f : α → α)
    (a b : α) :
    Panel α where
  a := a
  b := b
  atStart := f a
  atMiddle := f ((a + b) / 2)
  atEnd := f b
  estimate := panel a b (f a) (f ((a + b) / 2)) (f b)

/-- The estimates of the two halves of a panel together. -/
def halvesEstimate
    (f : α → α)
    (a b : α) :
    α :=
  (Panel.ofFunction f a ((a + b) / 2)).estimate + (Panel.ofFunction f ((a + b) / 2) b).estimate

/-- How far the halves of a panel differ from the whole. -/
def halvesDifference
    (f : α → α)
    (a b : α) :
    α :=
  halvesEstimate f a b - (Panel.ofFunction f a b).estimate

/-- The estimate of a panel by its halves and their difference from the whole. -/
def correctedEstimate
    (f : α → α)
    (a b : α) :
    α :=
  halvesEstimate f a b + halvesDifference f a b / 15

/-- The adaptive rule with every value of the integrand taken afresh. -/
def recomputed (f : α → α) : (depth : Nat) → (tolerance a b : α) → α
  | depth, tolerance, a, b =>
      if Scalar.magnitude (halvesDifference f a b) ≤ 15 * tolerance then
        correctedEstimate f a b
      else
        match depth with
        | 0 => correctedEstimate f a b
        | depth + 1 =>
            recomputed f depth (tolerance / 2) a ((a + b) / 2) +
              recomputed f depth (tolerance / 2) ((a + b) / 2) b

/-- A panel that knows its function is refined as if it knew nothing. -/
theorem run_refineM_ofFunction
    (f : α → α)
    (depth : Nat)
    (tolerance a b : α) :
    Id.run (refineM (fun x => pure (f x)) depth tolerance (Panel.ofFunction f a b)) =
      recomputed f depth tolerance a b := by
  induction depth generalizing tolerance a b with
  | zero => rw [refineM, recomputed]; rfl
  | succ depth inductionHypothesis =>
      rw [refineM, recomputed, ← inductionHypothesis, ← inductionHypothesis]
      rfl

/-- The adaptive rule takes no other values than a rule without memory. -/
theorem adaptive_eq
    (f : α → α)
    (a b tolerance : α)
    (depth : Nat) :
    adaptive f a b tolerance depth =
      if a == b then 0 else recomputed f depth tolerance a b := by
  rw [← run_refineM_ofFunction]
  unfold adaptive adaptiveM
  split <;> rfl

end Electrostatics.Quadrature
