import Electrostatics.Number.Scalar

namespace Electrostatics.Derivative

/-!
# Derivatives of a function at a point

Difference quotients with a given step.  As for integrals, a function may have
effects, and the order of its evaluations is fixed.
-/

open scoped Scalar

variable {α : Type} [Scalar α]

/-- The step that is used where none is given. -/
def defaultStep : α :=
  1 / (Decimal.powerOfTen 8 : α)

section Effectful

variable {m : Type → Type} [Monad m]

/-- The central difference quotient. -/
def centralM (f : α → m α) (x h : α) : m α := do
  let above ← f (x + h)
  let below ← f (x - h)
  pure ((above - below) / (2 * h))

/-- The forward difference quotient. -/
def forwardM (f : α → m α) (x h : α) : m α := do
  let above ← f (x + h)
  let here ← f x
  pure ((above - here) / h)

/-- The backward difference quotient. -/
def backwardM (f : α → m α) (x h : α) : m α := do
  let here ← f x
  let below ← f (x - h)
  pure ((here - below) / h)

/-- The second difference quotient. -/
def secondM (f : α → m α) (x h : α) : m α := do
  let above ← f (x + h)
  let here ← f x
  let below ← f (x - h)
  pure ((above - 2 * here + below) / (h * h))

end Effectful

/-- The central difference quotient of a function without effects. -/
def central (f : α → α) (x h : α) : α :=
  Id.run (centralM (fun x => pure (f x)) x h)

/-- The forward difference quotient of a function without effects. -/
def forward (f : α → α) (x h : α) : α :=
  Id.run (forwardM (fun x => pure (f x)) x h)

/-- The backward difference quotient of a function without effects. -/
def backward (f : α → α) (x h : α) : α :=
  Id.run (backwardM (fun x => pure (f x)) x h)

/-- The second difference quotient of a function without effects. -/
def second (f : α → α) (x h : α) : α :=
  Id.run (secondM (fun x => pure (f x)) x h)

end Electrostatics.Derivative
