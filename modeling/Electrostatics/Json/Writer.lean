import Electrostatics.Json.Value
import Electrostatics.Number.Double

namespace Electrostatics.Json

/-!
# Writing JSON

A value is written either compactly or with two spaces of indentation a level, and
what has no text of its own as null.  The writers append to the text written so far.
-/

/-- The JSON number of a double; one that is not finite has no literal and becomes null. -/
def ofFloat (value : Float) : Json :=
  if value.isFinite then
    .number (Decimal.Layout.data.format value)
  else
    .null

/-- A JSON array of doubles. -/
def ofFloats (values : List Float) : Json :=
  .array (values.map ofFloat)

/-- A JSON number of a count. -/
def ofNat (value : Nat) : Json :=
  .number (toString value)

/-- The lower-case hexadecimal digit of a value below sixteen. -/
def hexDigit (value : Nat) : Char :=
  Nat.digitChar value

/-- A character inside a JSON string. -/
def escapedCharacter (character : Char) : String :=
  if character = '"' then
    "\\\""
  else if character = '\\' then
    "\\\\"
  else if character = '\x08' then
    "\\b"
  else if character = '\x0c' then
    "\\f"
  else if character = '\n' then
    "\\n"
  else if character = '\r' then
    "\\r"
  else if character = '\t' then
    "\\t"
  else if character < ' ' then
    "\\u00" ++ String.ofList
      [hexDigit (character.toNat / 16), hexDigit (character.toNat % 16)]
  else
    String.singleton character

/-- Append a JSON string. -/
def writeString (written value : String) : String :=
  value.foldl (fun text character => text ++ escapedCharacter character)
    (written.push '"') |>.push '"'

mutual

/-- Append a value without blanks. -/
def writeCompact (written : String) : Json → String
  | .null | .unreadable => written ++ "null"
  | .boolean true => written ++ "true"
  | .boolean false => written ++ "false"
  | .number literal => written ++ literal
  | .string value => writeString written value
  | .array [] => written ++ "[]"
  | .array (first :: rest) =>
      (writeItems (writeCompact (written.push '[') first) rest).push ']'
  | .object [] => (written.push '{').push '}'
  | .object ((key, value) :: rest) =>
      (writeMembers
        (writeCompact ((writeString (written.push '{') key).push ':') value)
        rest).push '}'

/-- Append items, each behind a comma. -/
def writeItems (written : String) : List Json → String
  | [] => written
  | item :: rest => writeItems (writeCompact (written.push ',') item) rest

/-- Append members, each behind a comma. -/
def writeMembers (written : String) : List (String × Json) → String
  | [] => written
  | (key, value) :: rest =>
      writeMembers
        (writeCompact ((writeString (written.push ',') key).push ':') value)
        rest

end

/-- The text of a value without blanks. -/
def compact (value : Json) : String :=
  writeCompact "" value

/-- Append a line break and the indentation of a level. -/
def writeBreak (written : String) (level : Nat) : String :=
  (List.replicate (2 * level) ' ').foldl String.push (written.push '\n')

mutual

/-- Append a value whose parts stand on lines of their own, at a level. -/
def writePretty (level : Nat) (written : String) : Json → String
  | .null | .unreadable => written ++ "null"
  | .boolean true => written ++ "true"
  | .boolean false => written ++ "false"
  | .number literal => written ++ literal
  | .string value => writeString written value
  | .array [] => written ++ "[]"
  | .array (first :: rest) =>
      let opened := writeBreak (written.push '[') (level + 1)
      let filled := writePrettyItems (level + 1) (writePretty (level + 1) opened first) rest
      (writeBreak filled level).push ']'
  | .object [] => (written.push '{').push '}'
  | .object ((key, value) :: rest) =>
      let opened := writeString (writeBreak (written.push '{') (level + 1)) key ++ ": "
      let filled :=
        writePrettyMembers (level + 1) (writePretty (level + 1) opened value) rest
      (writeBreak filled level).push '}'

/-- Append items on lines of their own, each behind a comma. -/
def writePrettyItems (level : Nat) (written : String) : List Json → String
  | [] => written
  | item :: rest =>
      let separated := writeBreak (written.push ',') level
      writePrettyItems level (writePretty level separated item) rest

/-- Append members on lines of their own, each behind a comma. -/
def writePrettyMembers (level : Nat) (written : String) : List (String × Json) → String
  | [] => written
  | (key, value) :: rest =>
      let separated := writeString (writeBreak (written.push ',') level) key ++ ": "
      writePrettyMembers level (writePretty level separated value) rest

end

/-- The text of a value with two spaces of indentation a level. -/
def pretty (value : Json) : String :=
  writePretty 0 "" value

end Electrostatics.Json
