import Electrostatics.Number.Double
import Electrostatics.Number.Scalar

namespace Electrostatics.RootFinding

/-!
# Roots of a function

Three iterations look for a root.  Each is bounded: when the iterations run out the
best estimate is the answer, so an error always says why the iteration could not go
on.  As for integrals, a function may have effects.
-/

open scoped Scalar

/-- Why an iteration could not go on. -/
inductive RootError (α : Type) where
  | noSignChange (atStart atEnd : α)
  | zeroDerivative (x : α)
  | stalledSecant (x : α)
  deriving Repr, DecidableEq

/-- The wording of a root-finding error. -/
def RootError.message : RootError Float → String
  | .noSignChange atStart atEnd =>
      "f(a) and f(b) have the same sign (" ++ doubleScientificText atStart ++ ", " ++
        doubleScientificText atEnd ++ ")"
  | .zeroDerivative x => "derivative vanished at x = " ++ doubleText x
  | .stalledSecant x =>
      "secant stalled: f(x0) and f(x1) are equal near x = " ++ doubleText x

variable {α : Type} [Scalar α]

/-- The magnitude below which nothing is divided by. -/
def leastDivisor : α :=
  1 / (Decimal.powerOfTen 15 : α)

section Effectful

variable {m : Type → Type} [Monad m]

/-- Halve an interval whose end values differ in sign. -/
def bisectM (f : α → m α) (tolerance : α) :
    (iterations : Nat) → (a b atStart : α) → m (Except (RootError α) α)
  | 0, a, b, _ => pure (.ok ((a + b) / 2))
  | iterations + 1, a, b, atStart => do
      let middle := (a + b) / 2
      let value ← f middle
      if value == 0 ∨ Scalar.magnitude (b - a) < tolerance ∨
          Scalar.magnitude value < tolerance then
        pure (.ok middle)
      else if atStart * value < 0 then
        bisectM f tolerance iterations a middle atStart
      else
        bisectM f tolerance iterations middle b value

/-- Bisection; the values at the two ends must not have the same sign. -/
def bisectionM
    (f : α → m α)
    (a b tolerance : α)
    (iterations : Nat) :
    m (Except (RootError α) α) := do
  let atStart ← f a
  let atEnd ← f b
  if 0 < atStart * atEnd then
    pure (.error (.noSignChange atStart atEnd))
  else if atStart == 0 then
    pure (.ok a)
  else if atEnd == 0 then
    pure (.ok b)
  else
    bisectM f tolerance iterations a b atStart

/-- Newton's iteration with a given derivative. -/
def newtonM (f derivative : α → m α) (tolerance : α) :
    (iterations : Nat) → (x : α) → m (Except (RootError α) α)
  | 0, x => pure (.ok x)
  | iterations + 1, x => do
      let value ← f x
      if Scalar.magnitude value < tolerance then
        pure (.ok x)
      else
        let slope ← derivative x
        if Scalar.magnitude slope < leastDivisor then
          pure (.error (.zeroDerivative x))
        else
          let next := x - value / slope
          if Scalar.magnitude (next - x) < tolerance then
            pure (.ok next)
          else
            newtonM f derivative tolerance iterations next

/-- The secant iteration from two points. -/
def secantM (f : α → m α) (tolerance : α) :
    (iterations : Nat) → (x₀ x₁ : α) → m (Except (RootError α) α)
  | 0, _, x₁ => pure (.ok x₁)
  | iterations + 1, x₀, x₁ => do
      let value₀ ← f x₀
      let value₁ ← f x₁
      if Scalar.magnitude (value₁ - value₀) < leastDivisor then
        pure (.error (.stalledSecant x₁))
      else
        let next := x₁ - value₁ * (x₁ - x₀) / (value₁ - value₀)
        if Scalar.magnitude (next - x₁) < tolerance then
          pure (.ok next)
        else
          secantM f tolerance iterations x₁ next

end Effectful

/-- Bisection for a function without effects. -/
def bisection
    (f : α → α)
    (a b tolerance : α)
    (iterations : Nat) :
    Except (RootError α) α :=
  Id.run (bisectionM (fun x => pure (f x)) a b tolerance iterations)

/-- Newton's iteration for functions without effects. -/
def newton
    (f derivative : α → α)
    (x tolerance : α)
    (iterations : Nat) :
    Except (RootError α) α :=
  Id.run
    (newtonM (fun x => pure (f x)) (fun x => pure (derivative x)) tolerance iterations x)

/-- The secant iteration for a function without effects. -/
def secant
    (f : α → α)
    (x₀ x₁ tolerance : α)
    (iterations : Nat) :
    Except (RootError α) α :=
  Id.run (secantM (fun x => pure (f x)) tolerance iterations x₀ x₁)

end Electrostatics.RootFinding
