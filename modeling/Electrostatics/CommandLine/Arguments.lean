namespace Electrostatics.CommandLine

/-!
# Options and operands

Arguments are read from left to right by rules that say which options exist.  A long
option takes its value behind an equals sign or from the next argument; short options
may share one hyphen, and the last of them may have its value attached.  Two hyphens
end the options.
-/

/-- A rule for one option. -/
structure OptionRule where
  /-- The name under which the option is looked up afterwards. -/
  key : String
  short : Option Char
  long : Option String
  takesValue : Bool
  /-- Whether the next argument is the value even when it looks like an option. -/
  hyphenValue : Bool
  /-- Whether the option may be given more than once. -/
  repeatable : Bool
  deriving Repr, DecidableEq

/-- Why arguments cannot be read. -/
inductive UsageError where
  | unknownOption (text : String)
  | unexpectedOperand (text : String)
  | unexpectedValue (key : String)
  | missingValue (key : String)
  | repeatedOption (key : String)
  | invalidValue (key : String)
  | missingOperand
  | missingCommand
  | unknownCommand (name : String)
  deriving Repr, DecidableEq

/-- The wording of a usage error. -/
def UsageError.message : UsageError → String
  | .unknownOption text => "unexpected option '" ++ text ++ "'"
  | .unexpectedOperand text => "unexpected argument '" ++ text ++ "'"
  | .unexpectedValue key => "option '" ++ key ++ "' takes no value"
  | .missingValue key => "option '" ++ key ++ "' needs a value"
  | .repeatedOption key => "option '" ++ key ++ "' is given more than once"
  | .invalidValue key => "invalid value for '" ++ key ++ "'"
  | .missingOperand => "a formula is required"
  | .missingCommand => "a command is required"
  | .unknownCommand name => "unknown command '" ++ name ++ "'"

/-- The options that were given, in order, with their values. -/
abbrev Given := List (String × String)

/-- Whether an option was given. -/
def Given.has (given : Given) (key : String) : Bool :=
  given.any (fun option => option.1 == key)

/-- The value of an option. -/
def Given.value? (given : Given) (key : String) : Option String :=
  (given.find? (fun option => option.1 == key)).map Prod.snd

/-- Where the reading of arguments stands. -/
structure Reading where
  given : Given
  operands : List String
  /-- An option whose value must come next. -/
  pending : Option OptionRule
  /-- Whether options have ended. -/
  onlyOperands : Bool

/-- The start of a reading. -/
def Reading.start : Reading :=
  { given := [], operands := [], pending := none, onlyOperands := false }

/-- Note an option with its value, which is empty for a switch. -/
def Reading.note
    (reading : Reading)
    (rule : OptionRule)
    (value : String) :
    Except UsageError Reading :=
  if reading.given.has rule.key && !rule.repeatable then
    .error (.repeatedOption rule.key)
  else
    .ok { reading with given := reading.given ++ [(rule.key, value)], pending := none }

/-- The parts of a text before and behind its first equals sign. -/
def splitAtEquals (text : List Char) : List Char × Option (List Char) :=
  let name := text.takeWhile (fun character => character != '=')
  match text.drop name.length with
  | _ :: value => (name, some value)
  | [] => (name, none)

/-- Read a long option, given without its hyphens. -/
def Reading.readLong
    (rules : List OptionRule)
    (reading : Reading)
    (text : List Char) :
    Except UsageError Reading :=
  let parts := splitAtEquals text
  let name := String.ofList parts.1
  match rules.find? (fun rule => rule.long == some name) with
  | none => .error (.unknownOption ("--" ++ name))
  | some rule =>
      match rule.takesValue, parts.2 with
      | true, some value => reading.note rule (String.ofList value)
      | true, none => .ok { reading with pending := some rule }
      | false, some _ => .error (.unexpectedValue rule.key)
      | false, none => reading.note rule ""

/-- Read short options that share one hyphen. -/
def Reading.readShort (rules : List OptionRule) :
    Reading → List Char → Except UsageError Reading
  | reading, [] => .ok reading
  | reading, letter :: rest =>
      match rules.find? (fun rule => rule.short == some letter) with
      | none => .error (.unknownOption (String.ofList ['-', letter]))
      | some rule =>
          if rule.takesValue then
            match rest with
            | [] => .ok { reading with pending := some rule }
            | '=' :: value => reading.note rule (String.ofList value)
            | value => reading.note rule (String.ofList value)
          else
            match reading.note rule "" with
            | .error fault => .error fault
            | .ok noted => Reading.readShort rules noted rest

/-- Read one argument that is no value of an option that must have one. -/
def Reading.readFree
    (rules : List OptionRule)
    (reading : Reading)
    (argument : String) :
    Except UsageError Reading :=
  match argument.toList with
  | ['-', '-'] => .ok { reading with onlyOperands := true }
  | '-' :: '-' :: text => reading.readLong rules text
  | '-' :: letter :: rest => reading.readShort rules (letter :: rest)
  | _ => .ok { reading with operands := reading.operands ++ [argument] }

/-- Whether an argument looks like an option. -/
def looksLikeOption (argument : String) : Bool :=
  match argument.toList with
  | '-' :: _ :: _ => true
  | _ => false

/-- Read one argument. -/
def Reading.readArgument
    (rules : List OptionRule)
    (reading : Reading)
    (argument : String) :
    Except UsageError Reading :=
  match reading.pending with
  | some rule =>
      if rule.hyphenValue || !looksLikeOption argument then
        reading.note rule argument
      else
        .error (.missingValue rule.key)
  | none =>
      if reading.onlyOperands then
        .ok { reading with operands := reading.operands ++ [argument] }
      else
        reading.readFree rules argument

/-- Read arguments to the end. -/
def Reading.readAll (rules : List OptionRule) :
    Reading → List String → Except UsageError Reading
  | reading, [] =>
      match reading.pending with
      | some rule => .error (.missingValue rule.key)
      | none => .ok reading
  | reading, argument :: rest =>
      match reading.readArgument rules argument with
      | .error fault => .error fault
      | .ok next => Reading.readAll rules next rest

/--
Read options up to the first operand.  The result has the reading so far, the operand
and the arguments behind it.
-/
def Reading.readToOperand (rules : List OptionRule) :
    Reading → List String → Except UsageError (Reading × String × List String)
  | _, [] => .error .missingCommand
  | reading, argument :: rest =>
      match reading.readArgument rules argument with
      | .error fault => .error fault
      | .ok next =>
          match next.operands with
          | operand :: _ =>
              if next.onlyOperands then
                .error (.unexpectedOperand operand)
              else
                .ok (next, operand, rest)
          | [] => Reading.readToOperand rules next rest

end Electrostatics.CommandLine
