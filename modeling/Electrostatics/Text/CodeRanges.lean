namespace Electrostatics

/-!
# Ranges of code points

A class of characters is kept as the closed ranges of its code points, ascending and
apart.  The classes of this library are those of Unicode 17.0.
-/

/-- A class of characters: the first and the last code point of each range. -/
abbrev CodeRanges := List (Nat × Nat)

/-- Whether a character lies in one of the ranges. -/
def CodeRanges.contains (ranges : CodeRanges) (character : Char) : Bool :=
  ranges.any
    (fun range => range.1 ≤ character.toNat && character.toNat ≤ range.2)

end Electrostatics
