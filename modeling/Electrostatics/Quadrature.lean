import Electrostatics.Number.Scalar

namespace Electrostatics.Quadrature

/-!
# Integrals of a function over an interval

Four rules approximate an integral from finitely many values of the integrand.
Each is stated for an integrand with effects, such as one that records where it has
no value, and in that form fixes the order of evaluation; the plain rule is the same
one without effects.  A request that makes no sense has the integral zero.
-/

open scoped Scalar

variable {α : Type} [Scalar α]

section Effectful

variable {m : Type → Type} [Monad m]

/--
Add weighted values of the integrand at the inner points `a + i * h`, for `count`
points from index `first` on.
-/
def addInnerM
    (f : α → m α)
    (weight : Nat → α)
    (a h : α) :
    (count first : Nat) →
    α →
    m α
  | 0, _, sum => pure sum
  | count + 1, first, sum => do
      let value ← f (a + (first : α) * h)
      addInnerM f weight a h count (first + 1) (sum + weight first * value)

/-- The weight of an inner point in Simpson's rule. -/
def simpsonWeight (index : Nat) : α :=
  if index % 2 = 0 then 2 else 4

/-- Composite Simpson's rule; the number of intervals must be even and positive. -/
def simpsonM (f : α → m α) (a b : α) (intervals : Nat) : m α :=
  if intervals < 2 ∨ intervals % 2 = 1 then
    pure 0
  else do
    let h := (b - a) / (intervals : α)
    let atStart ← f a
    let atEnd ← f b
    let sum ← addInnerM f simpsonWeight a h (intervals - 1) 1 (atStart + atEnd)
    pure (sum * h / 3)

/-- Add values of the integrand at the inner points `a + i * h`. -/
def addPlainM
    (f : α → m α)
    (a h : α) :
    (count first : Nat) →
    α →
    m α
  | 0, _, sum => pure sum
  | count + 1, first, sum => do
      let value ← f (a + (first : α) * h)
      addPlainM f a h count (first + 1) (sum + value)

/-- The composite trapezoid rule; the number of intervals must be positive. -/
def trapezoidalM (f : α → m α) (a b : α) (intervals : Nat) : m α :=
  if intervals = 0 then
    pure 0
  else do
    let h := (b - a) / (intervals : α)
    let atStart ← f a
    let atEnd ← f b
    let sum ← addPlainM f a h (intervals - 1) 1 ((atStart + atEnd) / 2)
    pure (sum * h)

/-- A whole number of units of the fifteenth decimal place. -/
def femto (units : Nat) : α :=
  (units : α) / (Decimal.powerOfTen 15 : α)

/-- The nodes of the five-point rule on the interval from minus one to one, with their weights. -/
def gaussianNodes : List (α × α) :=
  [(-femto 906179845938664, femto 236926885056189),
    (-femto 538469310105683, femto 478628670499366),
    (0, femto 568888888888889),
    (femto 538469310105683, femto 478628670499366),
    (femto 906179845938664, femto 236926885056189)]

/-- Add weighted values of the integrand at nodes of an interval given by its middle and half. -/
def addNodesM (f : α → m α) (middle half : α) : List (α × α) → α → m α
  | [], sum => pure sum
  | (node, weight) :: rest, sum => do
      let value ← f (middle + half * node)
      addNodesM f middle half rest (sum + weight * value)

/--
The five-point rule of Gauss and Legendre.  The sum starts from negative zero, the
neutral element of addition also where zeros carry a sign.
-/
def gaussianM (f : α → m α) (a b : α) : m α := do
  let middle := (b + a) / 2
  let half := (b - a) / 2
  let sum ← addNodesM f middle half gaussianNodes (-0)
  pure (sum * half)

/-- Simpson's estimate of one panel from the values at its ends and its middle. -/
def panel (a b atStart atMiddle atEnd : α) : α :=
  (b - a) * (atStart + 4 * atMiddle + atEnd) / 6

/-- The values that a panel of the adaptive rule hands on to its halves. -/
structure Panel (α : Type) where
  a : α
  b : α
  atStart : α
  atMiddle : α
  atEnd : α
  estimate : α

/--
Refine one panel.  It is accepted when its halves agree with it within fifteen times
the tolerance, or when no further split is allowed; each split halves the tolerance.
-/
def refineM (f : α → m α) : (depth : Nat) → (tolerance : α) → Panel α → m α
  | depth, tolerance, whole => do
      let middle := (whole.a + whole.b) / 2
      let atLeft ← f ((whole.a + middle) / 2)
      let atRight ← f ((middle + whole.b) / 2)
      let left := panel whole.a middle whole.atStart atLeft whole.atMiddle
      let right := panel middle whole.b whole.atMiddle atRight whole.atEnd
      let difference := left + right - whole.estimate
      if Scalar.magnitude difference ≤ 15 * tolerance then
        pure (left + right + difference / 15)
      else
        match depth with
        | 0 => pure (left + right + difference / 15)
        | depth + 1 => do
            let before ← refineM f depth (tolerance / 2)
              { a := whole.a
                b := middle
                atStart := whole.atStart
                atMiddle := atLeft
                atEnd := whole.atMiddle
                estimate := left }
            let behind ← refineM f depth (tolerance / 2)
              { a := middle
                b := whole.b
                atStart := whole.atMiddle
                atMiddle := atRight
                atEnd := whole.atEnd
                estimate := right }
            pure (before + behind)

/-- Adaptive Simpson's rule with at most `depth` splits of a panel. -/
def adaptiveM (f : α → m α) (a b tolerance : α) (depth : Nat) : m α :=
  if a == b then
    pure 0
  else do
    let atStart ← f a
    let atEnd ← f b
    let atMiddle ← f ((a + b) / 2)
    refineM f depth tolerance
      { a := a
        b := b
        atStart := atStart
        atMiddle := atMiddle
        atEnd := atEnd
        estimate := panel a b atStart atMiddle atEnd }

end Effectful

/-- Composite Simpson's rule for a function without effects. -/
def simpson (f : α → α) (a b : α) (intervals : Nat) : α :=
  Id.run (simpsonM (fun x => pure (f x)) a b intervals)

/-- The composite trapezoid rule for a function without effects. -/
def trapezoidal (f : α → α) (a b : α) (intervals : Nat) : α :=
  Id.run (trapezoidalM (fun x => pure (f x)) a b intervals)

/-- The five-point rule of Gauss and Legendre for a function without effects. -/
def gaussian (f : α → α) (a b : α) : α :=
  Id.run (gaussianM (fun x => pure (f x)) a b)

/-- Adaptive Simpson's rule for a function without effects. -/
def adaptive (f : α → α) (a b tolerance : α) (depth : Nat) : α :=
  Id.run (adaptiveM (fun x => pure (f x)) a b tolerance depth)

end Electrostatics.Quadrature
