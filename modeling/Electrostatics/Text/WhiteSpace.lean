import Electrostatics.Text.CodeRanges

namespace Electrostatics

/-!
# White space

Text that a user leaves blank counts as not given.  Blank are the characters that
Unicode calls white space.
-/

/-- The ranges of the property White_Space. -/
def whiteSpaceRanges : CodeRanges :=
  [(0x9, 0xd), (0x20, 0x20), (0x85, 0x85), (0xa0, 0xa0), (0x1680, 0x1680),
   (0x2000, 0x200a), (0x2028, 0x2029), (0x202f, 0x202f), (0x205f, 0x205f),
   (0x3000, 0x3000)]

/-- Whether a character is white space in the sense of Unicode. -/
def isWhiteSpace (character : Char) : Bool :=
  whiteSpaceRanges.contains character

/-- A text without the white space at its ends. -/
def trimmed (text : String) : String :=
  let behind := text.toList.dropWhile isWhiteSpace
  String.ofList (behind.reverse.dropWhile isWhiteSpace).reverse

end Electrostatics
