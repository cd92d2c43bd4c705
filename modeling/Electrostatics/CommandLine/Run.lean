import Electrostatics.CommandLine.Request
import Electrostatics.GaussLaw.Sampling
import Electrostatics.Json.Results
import Electrostatics.Json.Settings
import Electrostatics.Text.Quoted

namespace Electrostatics.CommandLine

/-!
# Running a request

A request runs on the text of its settings file, if it names one, and ends in an
output or in a failure with at most one cause.  The first fault in the order of the
work is the one that is reported: settings, names, formulas, and last the grid to be
shown.
-/

/-- Why a request failed. -/
structure Failure where
  message : String
  cause : Option String
  deriving Repr, DecidableEq

/-- The report of a failure. -/
def Failure.report (failure : Failure) : String :=
  "Error: " ++ failure.message ++
    match failure.cause with
    | none => ""
    | some cause => "\n\nCaused by:\n    " ++ cause

/-- A failure without a cause. -/
def failWith (message : String) : Failure :=
  { message := message, cause := none }

/-- A failure with a cause. -/
def failBecause (message cause : String) : Failure :=
  { message := message, cause := some cause }

/-- What a request leaves: its output and the warnings of its samplings. -/
structure Outcome where
  output : String
  warnings : List String
  deriving Repr, DecidableEq

/-- The settings of a request: the standard ones, or those in its file. -/
def loadSettings
    {σ : Type}
    (path : Option String)
    (text : Option String)
    (read? : Json → Option σ)
    (standard : σ) :
    Except Failure σ :=
  match path, text with
  | none, _ => .ok standard
  | some path, none =>
      .error (failWith ("Failed to read config file: " ++ quoted path))
  | some path, some text =>
      match (Json.parse? text).bind read? with
      | none => .error (failWith ("Invalid config file: " ++ quoted path))
      | some settings => .ok settings

/-- A value, or a failure without a cause. -/
def orFail {α : Type} (value : Option α) (message : String) : Except Failure α :=
  match value with
  | none => .error (failWith message)
  | some value => .ok value

/-- Lines of text, each with its end. -/
def linesText (lines : List String) : String :=
  String.join (lines.map (fun line => line ++ "\n"))

/-- The text of a JSON result. -/
def jsonText (value : Json) : String :=
  value.pretty ++ "\n"

/-- A number in a table. -/
def cellText (value : Float) : String :=
  Decimal.formatScientificPlaces 6 value

/-- The text of a grid: a line for each row, with blanks between its cells. -/
def gridText (grid : Grid Float) : String :=
  linesText (grid.toRows.map (fun row => String.intercalate " " (row.map cellText)))

/-- Evaluate a formula at one point. -/
def runEvaluate
    (json : Bool)
    (formula : String)
    (x y z : Float) :
    Except Failure Outcome :=
  match evaluateOnce formula x y z with
  | .error fault =>
      .error (failBecause ("Cannot evaluate '" ++ formula ++ "'") fault.message)
  | .ok value =>
      .ok
        { output :=
            if json then
              jsonText (Json.ofPointValue x y z value)
            else
              doubleText value ++ "\n"
          warnings := [] }

/-- The table of a solution, with a curve for comparison as a last column. -/
def solutionText
    (solution : GaussLaw.Solution Float)
    (comparison : Option (Samples Float)) :
    String :=
  let heading :=
    "# " ++ solution.symmetry.coordinateName ++ "\tcharge\tpotential\tfield"
  let line (row : List Float × Nat) : String :=
    let overlay :=
      match comparison with
      | none => []
      | some samples => [samples.get (row.2 + 1)]
    String.intercalate "\t" ((row.1 ++ overlay).map cellText)
  linesText (heading :: solution.columns.zipIdx.map line)

/-- Solve Gauss's law. -/
def runSolve
    (json : Bool)
    (options : SolveOptions)
    (config : Option String) :
    Except Failure Outcome := do
  let stored ←
    loadSettings options.config config readSolverSettings? GaussLaw.Settings.standard
  let settings : GaussLaw.Settings Float :=
    { stored with
      extent := options.extent.getD stored.extent
      points := options.points.getD stored.points }
  let symmetry ←
    orFail (symmetryFor? options.symmetry)
      ("Unknown symmetry: " ++ options.symmetry ++
        ". Use: spherical, cylindrical or planar")
  let known ←
    orFail (knownFor? options.known)
      ("Unknown quantity: " ++ options.known ++ ". Use: charge, potential or field")
  let solver ←
    (GaussLaw.Solver.ofSettings settings).mapError
      (fun fault => failBecause "Invalid solver settings" fault.message)
  let (solution, warnings) ←
    (solver.solve symmetry known options.formula).mapError
      (fun fault =>
        failBecause ("Cannot solve for '" ++ options.formula ++ "'") fault.message)
  let (comparison, more) ←
    match options.compare with
    | none => .ok (none, [])
    | some formula =>
        match solver.sampleComparison formula with
        | .error fault =>
            .error (failBecause "Invalid comparison formula" fault.message)
        | .ok (samples, warnings) => .ok (some samples, warnings)
  .ok
    { output :=
        if json then
          jsonText (Json.ofComparedSolution solution comparison)
        else
          solutionText solution comparison
      warnings := (warnings ++ more).map GaussLaw.warningText }

/-- The viewpoint settings that slice options ask for. -/
def sliceSettings
    (options : SliceOptions)
    (config : Option String) :
    Except Failure (SliceSettings Float) := do
  let stored ← loadSettings options.config config readSliceSettings? SliceSettings.standard
  .ok { stored with side := options.side.getD stored.side }

/-- The plane that slice options ask for. -/
def slicePlane (options : SliceOptions) : Except Failure Plane :=
  orFail (planeFor? options.plane)
    ("Unknown plane: " ++ options.plane ++ ". Use: xy, yz or zx")

/-- The grid of a scalar field that a name asks for. -/
def scalarGrid? (field : ScalarField Float) : String → Option (Grid Float)
  | "value" => some field.value
  | "grad-x" => some field.gradient.x
  | "grad-y" => some field.gradient.y
  | "grad-z" => some field.gradient.z
  | "grad-mag" => some field.magnitude
  | "laplacian" => some field.laplacian
  | _ => none

/-- Numbers with four places, between commas. -/
def placesText (values : List Float) : String :=
  String.intercalate ", " (values.map (Decimal.formatPlaces 4))

/-- The line that a probe is shown as. -/
def probeText (probe : Probe Float) : String :=
  "(" ++ placesText probe.point.toList ++ "): F = " ++ placesText [probe.value] ++
    ", grad F = (" ++ placesText probe.gradient.toList ++ "), laplacian F = " ++
    placesText [probe.laplacian]

/-- Sample a scalar field. -/
def runScalar
    (json : Bool)
    (options : ScalarOptions)
    (config : Option String) :
    Except Failure Outcome := do
  let settings ← sliceSettings options.slice config
  let plane ← slicePlane options.slice
  let start := (ScalarSession.start settings).definePlane plane options.slice.offset
  let (session, warnings) ←
    (start.1.setFormula options.formula).mapError
      (fun fault =>
        failBecause ("Cannot parse scalar field '" ++ options.formula ++ "'")
          fault.message)
  let field ← orFail session.field "No field to show"
  let output ←
    match options.probe with
    | some (row, col) => do
        let probe ← orFail (session.probe row col) "No field to probe"
        .ok (if json then jsonText (Json.ofProbe probe) else probeText probe ++ "\n")
    | none =>
        if json then
          .ok (jsonText (Json.ofScalarField field))
        else do
          let grid ←
            orFail (scalarGrid? field options.grid)
              ("Unknown grid: " ++ options.grid ++
                ". Use: value, grad-x, grad-y, grad-z, grad-mag or laplacian")
          .ok (gridText grid)
  .ok { output := output, warnings := warnings.map sliceWarningText }

/-- The grid of a vector field that a name asks for. -/
def vectorGrid? (field : VectorField Float) : String → Option (Grid Float)
  | "ax" => some field.components.x
  | "ay" => some field.components.y
  | "az" => some field.components.z
  | "div" => some field.divergence
  | "curl-x" => some field.curl.x
  | "curl-y" => some field.curl.y
  | "curl-z" => some field.curl.z
  | _ => none

/-- Sample a vector field. -/
def runVector
    (json : Bool)
    (options : VectorOptions)
    (config : Option String) :
    Except Failure Outcome := do
  let settings ← sliceSettings options.slice config
  let plane ← slicePlane options.slice
  let start := (VectorSession.start settings).definePlane plane options.slice.offset
  let (session, warnings) ←
    (start.1.setFormulas options.formulas).mapError
      (fun fault => failBecause "Cannot parse vector field" fault.message)
  let field ←
    orFail session.field
      "All three components are empty; give at least one of --ax, --ay, --az"
  let output ←
    if json then
      .ok (jsonText (Json.ofVectorField field))
    else do
      let grid ←
        orFail (vectorGrid? field options.grid)
          ("Unknown grid: " ++ options.grid ++
            ". Use: ax, ay, az, div, curl-x, curl-y or curl-z")
      .ok (gridText grid)
  .ok { output := output, warnings := warnings.map sliceWarningText }

/-- Run a request on the text of its settings file, absent when the file cannot be read. -/
def Request.run (request : Request) (config : Option String) : Except Failure Outcome :=
  match request.command with
  | .evaluate formula x y z => runEvaluate request.json formula x y z
  | .solve options => runSolve request.json options config
  | .scalar options => runScalar request.json options config
  | .vector options => runVector request.json options config

end Electrostatics.CommandLine
