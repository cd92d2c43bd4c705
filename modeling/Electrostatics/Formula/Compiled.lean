import Electrostatics.Formula.Evaluation
import Electrostatics.Formula.Parser

namespace Electrostatics

/-!
# Compiled formulas

A formula that has been read is ready to be evaluated anywhere.  Sampling must not
stop at a point without a value, so a soft evaluation answers zero there and the
formula remembers the error until it is taken.
-/

open scoped Scalar

/-- A formula that has been read, with the last evaluation error that was not yet taken. -/
structure Formula where
  source : String
  tree : Expr
  lastError : Option EvaluationError
  deriving Repr, DecidableEq

namespace Formula

/-- Read a formula over a list of coordinates. -/
def compile (bound : List Coordinate) (source : String) : Except ParseError Formula :=
  match Token.tokenize source with
  | .error stray =>
      .error (.unexpectedCharacter stray.character stray.position)
  | .ok tokens =>
      match Parser.parse bound tokens with
      | .error fault => .error fault
      | .ok tree => .ok { source := source, tree := tree, lastError := none }

/-- Read a formula over all coordinates. -/
def parse (source : String) : Except ParseError Formula :=
  compile Coordinate.all source

/-- The coordinates of a list of names; the first name that is none is an error. -/
def coordinates : List String → Except ParseError (List Coordinate)
  | [] => .ok []
  | name :: others =>
      match Coordinate.named? name with
      | none => .error (.invalidVariable name)
      | some coordinate =>
          match coordinates others with
          | .error fault => .error fault
          | .ok rest => .ok (coordinate :: rest)

/-- Read a formula over the coordinates of a list of names. -/
def parseOver (names : List String) (source : String) : Except ParseError Formula :=
  match coordinates names with
  | .error fault => .error fault
  | .ok bound => compile bound source

variable {α : Type}

/-- The last error among the outcomes of evaluations, in order. -/
def lastErrorOf : List (Except EvaluationError α) → Option EvaluationError
  | [] => none
  | outcome :: later =>
      match lastErrorOf later, outcome with
      | some fault, _ => some fault
      | none, .error fault => some fault
      | none, .ok _ => none

/-- Remember the last error among the outcomes of evaluations. -/
def record (formula : Formula) (outcomes : List (Except EvaluationError α)) : Formula :=
  { formula with lastError := (lastErrorOf outcomes).or formula.lastError }

/-- Hand the remembered error out and forget it. -/
def takeError (formula : Formula) : Option EvaluationError × Formula :=
  (formula.lastError, { formula with lastError := none })

variable [Scalar α]

/-- The value that stands for the outcome of an evaluation: zero for an error. -/
def softened : Except EvaluationError α → α
  | .ok value => value
  | .error _ => 0

variable [Elementary α]

/-- The value of a formula at a point; a value that is not finite is an error. -/
def tryEvaluate (formula : Formula) (point : Point α) : Except EvaluationError α :=
  match formula.tree.evaluate point with
  | .error fault => .error fault
  | .ok value => if Scalar.isFinite value then .ok value else .error .notFinite

/-- Evaluate softly: zero stands for an error, which is remembered. -/
def evaluate (formula : Formula) (point : Point α) : α × Formula :=
  let outcome := formula.tryEvaluate point
  (softened outcome, formula.record [outcome])

/-- The formula as a function along the first axis, where the distance is the coordinate itself. -/
def alongAxis (x : α) : StateM Formula α :=
  fun formula => formula.evaluate { x := x, y := 0, z := 0, r := x }

end Formula

/-- Why a formula has no value at one given point. -/
inductive PointError where
  | parse (fault : ParseError)
  | evaluation (fault : EvaluationError)
  deriving Repr, DecidableEq

/-- The wording of the failure to evaluate a formula at one point. -/
def PointError.message : PointError → String
  | .parse fault => fault.message
  | .evaluation fault => fault.message

/-- Read a formula and evaluate it once, with the distance measured from the third axis. -/
def evaluateOnce
    {α : Type}
    [Scalar α]
    [Elementary α]
    (source : String)
    (x y z : α) :
    Except PointError α :=
  match Formula.parse source with
  | .error fault => .error (.parse fault)
  | .ok formula =>
      match formula.tryEvaluate { x := x, y := y, z := z, r := axialDistance x y } with
      | .error fault => .error (.evaluation fault)
      | .ok value => .ok value

/-- What a sampling of a formula reports when some of its points had no value. -/
structure SamplingWarning where
  source : String
  error : EvaluationError
  deriving Repr, DecidableEq

/-- The warning due for a formula, and the formula with its error taken. -/
def Formula.reportError (formula : Formula) : List SamplingWarning × Formula :=
  match formula.takeError with
  | (none, clean) => ([], clean)
  | (some fault, clean) => ([{ source := formula.source, error := fault }], clean)

end Electrostatics
