import Electrostatics.Text.GraphemeExtend
import Electrostatics.Text.Unprintable

namespace Electrostatics

/-!
# Quoted text

A text that a message shows stands in double quotes, and every character of it can
be told apart: what would end the quotes, would not print or would join the character
before it is escaped.
-/

/-- The escape of a code point. -/
def codePointEscape (code : Nat) : List Char :=
  '\\' :: 'u' :: '\x7b' :: Nat.toDigits 16 code ++ ['\x7d']

/-- A character between double quotes. -/
def quotedCharacter (character : Char) : List Char :=
  match character with
  | '\x00' => ['\\', '0']
  | '\t' => ['\\', 't']
  | '\n' => ['\\', 'n']
  | '\r' => ['\\', 'r']
  | '"' => ['\\', '"']
  | '\\' => ['\\', '\\']
  | _ =>
      if isGraphemeExtend character || isUnprintable character then
        codePointEscape character.toNat
      else
        [character]

/-- A text in double quotes. -/
def quoted (text : String) : String :=
  String.ofList ('"' :: text.toList.flatMap quotedCharacter ++ ['"'])

end Electrostatics
