import Electrostatics.Samples.Extrema
import Electrostatics.Proofs.Number.Order
import Mathlib.Data.List.Induction

namespace Electrostatics

/-!
# The extrema of a list

A range is widened by one value after the other.  It begins with the first number and from
then on reaches from the least to the greatest number met so far; undefined values, wherever
they stand, leave it as it is.
-/

open scoped Scalar

variable {α : Type} [Scalar α]

/-- A number of a list that comes before all its numbers in some order. -/
structure IsFirst
    (before : α → α → Prop)
    (values : List α)
    (bound : α) :
    Prop where
  mem : bound ∈ values
  isNumber : Scalar.isNumber bound = true
  bounds : ∀ value ∈ values, Scalar.isNumber value = true → before bound value

/-- The least number of a list. -/
def IsLeastNumber (values : List α) (low : α) : Prop :=
  IsFirst (fun first second => first ≤ second) values low

/-- The greatest number of a list. -/
def IsGreatestNumber (values : List α) (high : α) : Prop :=
  IsFirst (fun first second => second ≤ first) values high

/-- A range reaches from the least to the greatest number of a list, if it has numbers. -/
def Reaches (values : List α) : Option (α × α) → Prop
  | none => ∀ value ∈ values, Scalar.isNumber value = false
  | some (low, high) => IsLeastNumber values low ∧ IsGreatestNumber values high

/-- The only number of a list comes first in every order. -/
theorem IsFirst.of_only
    {before : α → α → Prop}
    {seen : List α}
    {value : α}
    (undefined : ∀ other ∈ seen, Scalar.isNumber other = false)
    (number : Scalar.isNumber value = true)
    (reflexive : before value value) :
    IsFirst before (seen ++ [value]) value where
  mem := List.mem_concat_self
  isNumber := number
  bounds other met otherNumber := by
    rcases List.mem_append.mp met with earlier | new
    · rw [undefined other earlier] at otherNumber
      cases otherNumber
    · obtain rfl := List.mem_singleton.mp new
      exact reflexive

/-- A bound gives way to a value that comes before it, and to no other. -/
theorem IsFirst.widen
    {before : α → α → Prop}
    {seen : List α}
    {bound value : α}
    {beyond : Prop}
    [Decidable beyond]
    (first : IsFirst before seen bound)
    (reflexive : ∀ {other}, Scalar.isNumber other = true → before other other)
    (transitive : ∀ {one two three}, before one two → before two three → before one three)
    (ahead : beyond → Scalar.isNumber value = true ∧ before value bound)
    (behind : ¬beyond → Scalar.isNumber value = true → before bound value) :
    IsFirst before (seen ++ [value]) (if beyond then value else bound) := by
  by_cases passed : beyond
  · obtain ⟨number, ahead⟩ := ahead passed
    rw [if_pos passed]
    refine ⟨List.mem_concat_self, number, fun other met otherNumber => ?_⟩
    rcases List.mem_append.mp met with earlier | new
    · exact transitive ahead (first.bounds other earlier otherNumber)
    · obtain rfl := List.mem_singleton.mp new
      exact reflexive number
  · rw [if_neg passed]
    refine
      ⟨List.mem_append_left _ first.mem, first.isNumber, fun other met otherNumber => ?_⟩
    rcases List.mem_append.mp met with earlier | new
    · exact first.bounds other earlier otherNumber
    · obtain rfl := List.mem_singleton.mp new
      exact behind passed otherNumber

variable [LinearNumbers α]

/-- Widening a range by a value is reaching one value further. -/
theorem Reaches.widen
    {seen : List α}
    {range : Option (α × α)}
    (reaches : Reaches seen range)
    (value : α) :
    Reaches (seen ++ [value]) (widen range value) := by
  cases range with
  | none =>
      cases number : Scalar.isNumber value with
      | false =>
          simp only [Electrostatics.widen, number, Bool.false_eq_true, if_false]
          intro other met
          rcases List.mem_append.mp met with earlier | new
          · exact reaches other earlier
          · obtain rfl := List.mem_singleton.mp new
            exact number
      | true =>
          simp only [Electrostatics.widen, number, if_true]
          have reflexive := OrderedNumbers.le_refl number
          exact
            ⟨IsFirst.of_only reaches number reflexive, IsFirst.of_only reaches number reflexive⟩
  | some ends =>
      obtain ⟨low, high⟩ := ends
      obtain ⟨least, greatest⟩ := reaches
      constructor
      · exact least.widen OrderedNumbers.le_refl LinearNumbers.le_trans
          (fun below => ⟨(LinearNumbers.isNumber_of_lt below).1, LinearNumbers.le_of_lt below⟩)
          (fun notBelow number => OrderedNumbers.le_of_not_lt number least.isNumber notBelow)
      · exact greatest.widen OrderedNumbers.le_refl
          (fun first second => LinearNumbers.le_trans second first)
          (fun above => ⟨(LinearNumbers.isNumber_of_lt above).2, LinearNumbers.le_of_lt above⟩)
          (fun notAbove number => OrderedNumbers.le_of_not_lt greatest.isNumber number notAbove)

/-- The extrema of a list are its least and its greatest number. -/
theorem reaches_extrema? (values : List α) :
    Reaches values (extrema? values) := by
  induction values using List.reverseRecOn with
  | nil => exact fun _ met => nomatch met
  | append_singleton seen value inductionHypothesis =>
      have last : extrema? (seen ++ [value]) = widen (extrema? seen) value :=
        List.foldl_concat ..
      rw [last]
      exact inductionHypothesis.widen value

variable {values : List α}

/-- The bounds of a list with a number are its least and its greatest number. -/
theorem rangeBounds_of_number
    {value : α}
    (met : value ∈ values)
    (number : Scalar.isNumber value = true) :
    IsLeastNumber values (rangeBounds (extrema? values)).1 ∧
      IsGreatestNumber values (rangeBounds (extrema? values)).2 := by
  have reaches := reaches_extrema? values
  cases reached : extrema? values with
  | none =>
      rw [reached] at reaches
      cases number.symm.trans (reaches value met)
  | some ends =>
      rw [reached] at reaches
      exact reaches

/-- The bounds of a list without numbers run backwards from end to end. -/
theorem rangeBounds_of_undefined
    (undefined : ∀ value ∈ values, Scalar.isNumber value = false) :
    rangeBounds (extrema? values) = (Scalar.unbounded, -Scalar.unbounded) := by
  have reaches := reaches_extrema? values
  cases reached : extrema? values with
  | none => rfl
  | some ends =>
      rw [reached] at reaches
      cases (undefined ends.1 reaches.1.mem).symm.trans reaches.1.isNumber

end Electrostatics
