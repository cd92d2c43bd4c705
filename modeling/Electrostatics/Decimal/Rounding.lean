namespace Electrostatics

/-!
# Rounding a quotient

Every rounding of this library is one of a quotient of natural numbers to a whole
number, the sign kept apart.  What lies nearer to one neighbour goes there; a `Tie`
says where the middle goes.
-/

/-- Where a quotient in the middle of two whole numbers goes. -/
inductive Tie where
  | toEven : Tie
  | away : Tie
  deriving Repr, DecidableEq

/-- Whether the middle between `below` and the next whole number goes up. -/
def Tie.goesUp : Tie → Nat → Bool
  | .toEven, below => below % 2 == 1
  | .away, _ => true

/-- The quotient rounded to the nearest whole number. -/
def roundQuotient (tie : Tie) (numerator denominator : Nat) : Nat :=
  let below := numerator / denominator
  let twice := 2 * (numerator % denominator)
  if denominator < twice ∨ (twice = denominator ∧ tie.goesUp below) then
    below + 1
  else
    below

end Electrostatics
