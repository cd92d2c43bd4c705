import Electrostatics.Samples.Basic

namespace Electrostatics

/-!
# Extrema of samples

The least and the greatest of a list of numbers.  Undefined values are passed over,
so a list may have no extrema although it is not empty.
-/

open scoped Scalar

variable {α : Type} [Scalar α]

/-- Widen a range so that it reaches a value. -/
def widen (range : Option (α × α)) (value : α) : Option (α × α) :=
  match range with
  | none => if Scalar.isNumber value then some (value, value) else none
  | some (low, high) =>
      some
        (if value < low then value else low,
          if high < value then value else high)

/-- The least and the greatest number of a list. -/
def extrema? (values : List α) : Option (α × α) :=
  values.foldl widen none

/-- The bounds of a range; that of no value runs backwards from end to end. -/
def rangeBounds (range : Option (α × α)) : α × α :=
  range.getD (Scalar.unbounded, -Scalar.unbounded)

/-- The bounds of samples. -/
def Samples.bounds (samples : Samples α) : α × α :=
  rangeBounds (extrema? samples.toList)

end Electrostatics
