import Electrostatics.CommandLine.Values
import Electrostatics.Slice.ScalarField

namespace Electrostatics.CommandLine

/-!
# Requests

The arguments of the program name one of four commands with its options.  Reading
them checks the form of every value; names of symmetries, quantities, planes and
grids are looked up when the command runs.
-/

/-- Options of a command that looks at a slice. -/
structure SliceOptions where
  plane : String
  offset : Float
  side : Option Nat
  config : Option String
  deriving Repr

/-- Options of the command that solves Gauss's law. -/
structure SolveOptions where
  formula : String
  symmetry : String
  known : String
  extent : Option Float
  points : Option Nat
  compare : Option String
  config : Option String
  deriving Repr

/-- Options of the command that samples a scalar field. -/
structure ScalarOptions where
  formula : String
  slice : SliceOptions
  grid : String
  probe : Option (Float × Float)
  deriving Repr

/-- Options of the command that samples a vector field. -/
structure VectorOptions where
  formulas : PerAxis String
  slice : SliceOptions
  grid : String
  deriving Repr

/-- A command with its options. -/
inductive Command where
  | evaluate (formula : String) (x y z : Float)
  | solve (options : SolveOptions)
  | scalar (options : ScalarOptions)
  | vector (options : VectorOptions)
  deriving Repr

/-- A command and the form of its output. -/
structure Request where
  command : Command
  json : Bool
  deriving Repr

/-- A switch. -/
def switch (long : String) : OptionRule :=
  { key := long
    short := none
    long := some long
    takesValue := false
    hyphenValue := false
    repeatable := false }

/-- A long option with a value. -/
def valued (long : String) : OptionRule :=
  { switch long with takesValue := true }

/-- A coordinate: a short option whose value may be negative. -/
def coordinateRule (letter : Char) : OptionRule :=
  { key := String.singleton letter
    short := some letter
    long := none
    takesValue := true
    hyphenValue := true
    repeatable := false }

/-- The options that may stand anywhere. -/
def globalRules : List OptionRule :=
  [switch "json",
    { switch "verbose" with short := some 'v', repeatable := true }]

/-- The options of the command that evaluates a formula. -/
def evaluateRules : List OptionRule :=
  coordinateRule 'x' :: coordinateRule 'y' :: coordinateRule 'z' :: globalRules

/-- The options of the command that solves Gauss's law. -/
def solveRules : List OptionRule :=
  ["symmetry", "known", "max-extent", "points", "compare", "config"].map valued ++
    globalRules

/-- The options of a slice. -/
def sliceRules : List OptionRule :=
  { valued "offset" with hyphenValue := true } ::
    ["plane", "size", "config"].map valued ++ globalRules

/-- The options of the command that samples a scalar field. -/
def scalarRules : List OptionRule :=
  ["show", "probe"].map valued ++ sliceRules

/-- The options of the command that samples a vector field. -/
def vectorRules : List OptionRule :=
  ["ax", "ay", "az", "show"].map valued ++ sliceRules

/-- The value of an option that has a form, if the option was given. -/
def checked?
    {α : Type}
    (given : Given)
    (key : String)
    (read? : String → Option α) :
    Except UsageError (Option α) :=
  match given.value? key with
  | none => .ok none
  | some text =>
      match read? text with
      | none => .error (.invalidValue key)
      | some value => .ok (some value)

/-- The options of a slice among those given. -/
def SliceOptions.ofGiven (given : Given) : Except UsageError SliceOptions := do
  let offset ← checked? given "offset" readDouble?
  let side ← checked? given "size" readCount?
  let config ← checked? given "config" readPath?
  .ok
    { plane := (given.value? "plane").getD "xy"
      offset := offset.getD 0.0
      side := side
      config := config }

/-- The one operand of a command, if it was given. -/
def operand? : List String → Except UsageError (Option String)
  | [] => .ok none
  | [only] => .ok (some only)
  | _ :: second :: _ => .error (.unexpectedOperand second)

/-- Read the arguments of the command that evaluates a formula. -/
def readEvaluate (reading : Reading) : Except UsageError Command := do
  let formula? ← operand? reading.operands
  let x ← checked? reading.given "x" readDouble?
  let y ← checked? reading.given "y" readDouble?
  let z ← checked? reading.given "z" readDouble?
  match formula? with
  | none => .error .missingOperand
  | some formula =>
      .ok (.evaluate formula (x.getD 0.0) (y.getD 0.0) (z.getD 0.0))

/-- Read the arguments of the command that solves Gauss's law. -/
def readSolve (reading : Reading) : Except UsageError Command := do
  let formula? ← operand? reading.operands
  let extent ← checked? reading.given "max-extent" readDouble?
  let points ← checked? reading.given "points" readCount?
  let config ← checked? reading.given "config" readPath?
  .ok (.solve
    { formula := formula?.getD "h(2-r)"
      symmetry := (reading.given.value? "symmetry").getD "spherical"
      known := (reading.given.value? "known").getD "charge"
      extent := extent
      points := points
      compare := reading.given.value? "compare"
      config := config })

/-- Read the arguments of the command that samples a scalar field. -/
def readScalar (reading : Reading) : Except UsageError Command := do
  let formula? ← operand? reading.operands
  let slice ← SliceOptions.ofGiven reading.given
  let probe ← checked? reading.given "probe" readPosition?
  .ok (.scalar
    { formula := formula?.getD defaultScalarFormula
      slice := slice
      grid := (reading.given.value? "show").getD "value"
      probe := probe })

/-- Read the arguments of the command that samples a vector field. -/
def readVector (reading : Reading) : Except UsageError Command := do
  let slice ← SliceOptions.ofGiven reading.given
  match reading.operands with
  | operand :: _ => .error (.unexpectedOperand operand)
  | [] =>
      let component (key : String) := (reading.given.value? key).getD ""
      .ok (.vector
        { formulas :=
            { x := component "ax", y := component "ay", z := component "az" }
          slice := slice
          grid := (reading.given.value? "show").getD "div" })

/-- The rules of a command, and how its arguments are read. -/
def commandNamed? :
    String → Option (List OptionRule × (Reading → Except UsageError Command))
  | "eval" => some (evaluateRules, readEvaluate)
  | "gauss" => some (solveRules, readSolve)
  | "scalar" => some (scalarRules, readScalar)
  | "vector" => some (vectorRules, readVector)
  | _ => none

/-- Read the arguments of the program. -/
def Request.ofArguments (arguments : List String) : Except UsageError Request := do
  let (outer, name, rest) ← Reading.start.readToOperand globalRules arguments
  match commandNamed? name with
  | none => .error (.unknownCommand name)
  | some (rules, read) =>
      let inner ← Reading.start.readAll rules rest
      let command ← read inner
      .ok
        { command := command
          json := outer.given.has "json" || inner.given.has "json" }

/-- The file whose settings a request asks for. -/
def Request.configPath? (request : Request) : Option String :=
  match request.command with
  | .evaluate _ _ _ _ => none
  | .solve options => options.config
  | .scalar options => options.slice.config
  | .vector options => options.slice.config

end Electrostatics.CommandLine
