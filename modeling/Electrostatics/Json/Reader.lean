import Electrostatics.Json.Value

namespace Electrostatics.Json

/-!
# Reading JSON

Reading is two machines in a row.  The first takes one step a character and leaves
a list of marks: brackets, separators, strings and words.  The second takes one step
a mark and keeps the open arrays and objects on a stack.  Both refuse at the first
step that no JSON text continues.
-/

/-- A mark of a JSON text. -/
inductive Mark where
  | openArray
  | closeArray
  | openObject
  | closeObject
  | colon
  | comma
  /-- A string; absent when it holds half of a surrogate pair. -/
  | text (value : Option String)
  | literal (value : Json)

/--
Where the character machine stands; what it has gathered is kept in reverse.  A string
is gathered as numbers: the code points of plain characters, the code units of escapes.
-/
inductive Lexical where
  | between
  | word (gathered : List Char)
  | string (gathered : List Nat)
  | escape (gathered : List Nat)
  /-- Inside an escaped code unit: its value so far and its digits left. -/
  | unit (gathered : List Nat) (value left : Nat)

/-- The characters that JSON allows between marks. -/
def isBlank (character : Char) : Bool :=
  character == ' ' || character == '\t' || character == '\r' || character == '\n'

/-- The characters of numbers and of the three names. -/
def isWordCharacter (character : Char) : Bool :=
  character.isAlphanum || character == '-' || character == '+' || character == '.'

/-- The value of a word. -/
def wordValue? (word : List Char) : Option Json :=
  if word = ['n', 'u', 'l', 'l'] then
    some .null
  else if word = ['t', 'r', 'u', 'e'] then
    some (.boolean true)
  else if word = ['f', 'a', 'l', 's', 'e'] then
    some (.boolean false)
  else if isNumberLiteral word then
    some (.number (String.ofList word))
  else
    none

/-- The character of a one-letter escape. -/
def escaped? : Char → Option Char
  | '"' => some '"'
  | '\\' => some '\\'
  | '/' => some '/'
  | 'b' => some '\x08'
  | 'f' => some '\x0c'
  | 'n' => some '\n'
  | 'r' => some '\r'
  | 't' => some '\t'
  | _ => none

/-- The value of a hexadecimal digit. -/
def hexDigit? (character : Char) : Option Nat :=
  if character.isDigit then
    some (character.toNat - '0'.toNat)
  else if 'a' ≤ character ∧ character ≤ 'f' then
    some (character.toNat - 'a'.toNat + 10)
  else if 'A' ≤ character ∧ character ≤ 'F' then
    some (character.toNat - 'A'.toNat + 10)
  else
    none

/-- Whether a number is the first half of a surrogate pair. -/
def isHighSurrogate (unit : Nat) : Bool :=
  0xd800 ≤ unit && unit < 0xdc00

/-- Whether a number is the second half of a surrogate pair. -/
def isLowSurrogate (unit : Nat) : Bool :=
  0xdc00 ≤ unit && unit < 0xe000

/-- The character of a surrogate pair. -/
def pairedCharacter (high low : Nat) : Char :=
  Char.ofNat (0x10000 + (high - 0xd800) * 0x400 + (low - 0xdc00))

/--
The characters that gathered numbers stand for, if every surrogate has its other half.
-/
def charactersOf? : List Nat → Option (List Char)
  | [] => some []
  | [unit] =>
      if isHighSurrogate unit || isLowSurrogate unit then none else some [Char.ofNat unit]
  | unit :: next :: rest =>
      if isHighSurrogate unit && isLowSurrogate next then
        (charactersOf? rest).map (pairedCharacter unit next :: ·)
      else if isHighSurrogate unit || isLowSurrogate unit then
        none
      else
        (charactersOf? (next :: rest)).map (Char.ofNat unit :: ·)

/-- One step of the character machine between marks; marks are gathered in reverse. -/
def scanBetween? (marks : List Mark) (character : Char) : Option (Lexical × List Mark) :=
  if isBlank character then
    some (.between, marks)
  else if isWordCharacter character then
    some (.word [character], marks)
  else
    match character with
    | '"' => some (.string [], marks)
    | '[' => some (.between, .openArray :: marks)
    | ']' => some (.between, .closeArray :: marks)
    | '{' => some (.between, .openObject :: marks)
    | '}' => some (.between, .closeObject :: marks)
    | ':' => some (.between, .colon :: marks)
    | ',' => some (.between, .comma :: marks)
    | _ => none

/-- One step of the character machine. -/
def scanStep?
    (lexical : Lexical)
    (marks : List Mark)
    (character : Char) :
    Option (Lexical × List Mark) :=
  match lexical with
  | .between => scanBetween? marks character
  | .word gathered =>
      if isWordCharacter character then
        some (.word (character :: gathered), marks)
      else
        (wordValue? gathered.reverse).bind
          (fun value => scanBetween? (.literal value :: marks) character)
  | .string gathered =>
      if character = '"' then
        some (.between, .text ((charactersOf? gathered.reverse).map String.ofList) :: marks)
      else if character = '\\' then
        some (.escape gathered, marks)
      else if character < ' ' then
        none
      else
        some (.string (character.toNat :: gathered), marks)
  | .escape gathered =>
      if character = 'u' then
        some (.unit gathered 0 4, marks)
      else
        (escaped? character).map (fun meant => (.string (meant.toNat :: gathered), marks))
  | .unit gathered value left =>
      (hexDigit? character).map (fun digit =>
        let grown := 16 * value + digit
        if left ≤ 1 then
          (.string (grown :: gathered), marks)
        else
          (.unit gathered grown (left - 1), marks))

/-- The marks of a text. -/
def scanFrom? : Lexical → List Mark → List Char → Option (List Mark)
  | .between, marks, [] => some marks.reverse
  | .word gathered, marks, [] =>
      (wordValue? gathered.reverse).map (fun value => (.literal value :: marks).reverse)
  | _, _, [] => none
  | lexical, marks, character :: rest =>
      match scanStep? lexical marks character with
      | none => none
      | some (next, grown) => scanFrom? next grown rest

/-- An array or object that is not closed yet; its parts are gathered in reverse. -/
inductive Frame where
  | array (items : List Json)
  | object (members : List (Option String × Json)) (key : Option String)

/-- What the mark machine looks for next. -/
inductive Expect where
  | value
  /-- An item, or the end of an empty array. -/
  | firstItem
  | key (members : List (Option String × Json))
  /-- A key, or the end of an empty object. -/
  | firstKey
  | colon (members : List (Option String × Json)) (key : Option String)
  /-- What may follow a finished value. -/
  | next (value : Json)

/-- The state of the mark machine: open arrays and objects innermost first. -/
structure Reading where
  frames : List Frame
  expect : Expect

/-- A string, if it can be read. -/
def ofText : Option String → Json
  | none => .unreadable
  | some value => .string value

/-- A member, if its name can be read. -/
def namedMember? (member : Option String × Json) : Option (String × Json) :=
  member.1.map (fun key => (key, member.2))

/-- An object, if all its names can be read. -/
def ofMembers (members : List (Option String × Json)) : Json :=
  match members.mapM namedMember? with
  | none => .unreadable
  | some named => .object named

/-- Close an array or object: the finished value takes the place of a value outside. -/
def Reading.finishValue (frames : List Frame) (value : Json) : Reading :=
  { frames := frames, expect := .next value }

/-- One step of the mark machine where a value is looked for. -/
def Reading.stepValue? (frames : List Frame) : Mark → Option Reading
  | .openArray => some { frames := .array [] :: frames, expect := .firstItem }
  | .openObject => some { frames := frames, expect := .firstKey }
  | .text value => some (Reading.finishValue frames (ofText value))
  | .literal value => some (Reading.finishValue frames value)
  | _ => none

/-- One step of the mark machine. -/
def Reading.step? (reading : Reading) (mark : Mark) : Option Reading :=
  match reading.expect, mark with
  | .value, mark => Reading.stepValue? reading.frames mark
  | .firstItem, .closeArray =>
      match reading.frames with
      | .array items :: outer => some (Reading.finishValue outer (.array items.reverse))
      | _ => none
  | .firstItem, mark => Reading.stepValue? reading.frames mark
  | .firstKey, .closeObject => some (Reading.finishValue reading.frames (.object []))
  | .firstKey, .text key => some { reading with expect := .colon [] key }
  | .key members, .text key => some { reading with expect := .colon members key }
  | .colon members key, .colon =>
      some { frames := .object members key :: reading.frames, expect := .value }
  | .next value, .comma =>
      match reading.frames with
      | .array items :: outer =>
          some { frames := .array (value :: items) :: outer, expect := .value }
      | .object members key :: outer =>
          some { frames := outer, expect := .key ((key, value) :: members) }
      | [] => none
  | .next value, .closeArray =>
      match reading.frames with
      | .array items :: outer =>
          some (Reading.finishValue outer (.array (value :: items).reverse))
      | _ => none
  | .next value, .closeObject =>
      match reading.frames with
      | .object members key :: outer =>
          some (Reading.finishValue outer (ofMembers ((key, value) :: members).reverse))
      | _ => none
  | _, _ => none

/-- The value of a list of marks. -/
def Reading.run? : Reading → List Mark → Option Json
  | { frames := [], expect := .next value }, [] => some value
  | _, [] => none
  | reading, mark :: rest =>
      match reading.step? mark with
      | none => none
      | some next => Reading.run? next rest

/-- The value of a JSON text, if it is one. -/
def parse? (text : String) : Option Json :=
  (scanFrom? .between [] text.toList).bind
    (Reading.run? { frames := [], expect := .value })

end Electrostatics.Json
