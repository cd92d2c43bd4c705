import Electrostatics.Proofs.Formula.Binding

namespace Electrostatics.Grammar

open Electrostatics.Parser

/-!
# Where the machine refuses

A token is refused because nothing may stand there that it could be, because it is a name
of nothing, or because it closes a call with the wrong number of arguments.  A formula that
is not refused at one of its tokens can only be refused for its end.
-/

/-- The names of constants and callables. -/
def IsBuiltin (name : String) : Prop :=
  name.toList.map Char.toLower = ['p', 'i'] ∨
  name ∈ ["e", "atan2", "sign"] ∨
  (UnaryFunction.named? name).isSome = true

variable
  {bound : List Coordinate}
  {state first : State}
  {placed : PlacedToken}
  {fault : ParseError}

/-- The errors for which a token is refused. -/
inductive Refusal
    (bound : List Coordinate)
    (placed : PlacedToken) :
    ParseError → Prop where
  | unexpected (expected : Expectation) :
      Refusal bound placed (.unexpectedToken placed.token expected placed.position)
  | unknown
      {name : String} :
      placed.token = .identifier name →
      (∀ coordinate ∈ bound, coordinate.name ≠ name) →
      ¬ IsBuiltin name →
      Refusal bound placed (.unknownSymbol name placed.position)
  | arity (callable : Callable) (found : Nat) :
      Refusal bound placed (.wrongArity callable found)

/-- No coordinate shares its name with a constant or a callable. -/
theorem not_isBuiltin_name (coordinate : Coordinate) :
    ¬ IsBuiltin coordinate.name := by
  unfold IsBuiltin
  cases coordinate <;> decide

theorem name_of_named?
    {name : String}
    {coordinate : Coordinate}
    (named : Meaning.named? name = some (.coordinate coordinate)) :
    coordinate.name = name := by
  unfold Meaning.named? at named
  split at named
  case h_1 found isCoordinate =>
    obtain rfl : found = coordinate := by simpa using named
    exact Coordinate.named?_eq_some_iff.mp isCoordinate
  case h_2 => split_ifs at named <;> simp at named

theorem not_known_of_named?
    {name : String}
    (unnamed : Meaning.named? name = none) :
    (∀ coordinate : Coordinate, coordinate.name ≠ name) ∧ ¬ IsBuiltin name := by
  unfold Meaning.named? at unnamed
  split at unnamed
  case h_1 => cases unnamed
  case h_2 noCoordinate =>
    constructor
    · rintro coordinate rfl
      rw [Coordinate.named?_name] at noCoordinate
      cases noCoordinate
    · split_ifs at unnamed
      simp_all [IsBuiltin]

namespace Refusal

theorem ofStepName
    {name : String}
    {position : Nat}
    (failed : stepName bound state name position = .error fault) :
    Refusal bound ⟨.identifier name, position⟩ fault := by
  unfold stepName at failed
  split at failed
  case h_1 coordinate named =>
    split at failed
    case isTrue => cases failed
    case isFalse notBound =>
      obtain rfl := Except.error.inj failed
      obtain rfl := name_of_named? named
      refine .unknown rfl (fun other member sameName => ?_) (not_isBuiltin_name coordinate)
      obtain rfl := Coordinate.name_injective sameName
      exact notBound member
  case h_2 => cases failed
  case h_3 => cases failed
  case h_4 unnamed =>
    obtain rfl := Except.error.inj failed
    obtain ⟨noCoordinate, noBuiltin⟩ := not_known_of_named? unnamed
    exact .unknown rfl (fun coordinate _ => noCoordinate coordinate) noBuiltin

theorem ofStepOperand
    (failed : stepOperand bound state placed = .error fault) :
    Refusal bound placed fault := by
  rcases placed with ⟨token, position⟩
  cases token with
  | number value => cases failed
  | leftParenthesis => cases failed
  | minus => cases failed
  | plus => cases failed
  | identifier name => exact ofStepName failed
  | _ =>
      obtain rfl := Except.error.inj failed
      exact .unexpected .operand

theorem ofCloseCall
    {callable : Callable}
    {arguments : List Expr}
    {outer : List Opened}
    {outside : List Waiting}
    (failed : closeCall callable arguments outer outside = .error fault) :
    Refusal bound placed fault := by
  unfold closeCall at failed
  split at failed
  case h_1 => cases failed
  case h_2 =>
    obtain rfl := Except.error.inj failed
    exact .arity callable arguments.length

theorem ofStepOperator
    {value : Expr}
    (failed : stepOperator state value placed = .error fault) :
    Refusal bound placed fault := by
  rcases placed with ⟨token, position⟩
  rcases state with ⟨opened, waiting, phase⟩
  cases token with
  | plus => cases failed
  | minus => cases failed
  | star => cases failed
  | slash => cases failed
  | caret => cases failed
  | doubleStar => cases failed
  | rightParenthesis =>
      rcases opened with _ | ⟨⟨_ | ⟨callable, given⟩, outside⟩, outer⟩
      · obtain rfl := Except.error.inj failed
        exact .unexpected .endOfFormula
      · cases failed
      · exact ofCloseCall failed
  | comma =>
      rcases opened with _ | ⟨⟨_ | ⟨callable, given⟩, outside⟩, outer⟩
      · obtain rfl := Except.error.inj failed
        exact .unexpected .endOfFormula
      · obtain rfl := Except.error.inj failed
        exact .unexpected .closing
      · cases failed
  | _ =>
      obtain rfl := Except.error.inj failed
      exact .unexpected (expectedBehindOperand opened)

/-- A step refuses its token in one of these ways only. -/
theorem ofStep
    (failed : step bound state placed = .error fault) :
    Refusal bound placed fault := by
  rcases placed with ⟨token, position⟩
  rcases state with ⟨opened, waiting, phase⟩
  cases phase with
  | operand => exact ofStepOperand failed
  | firstArgument =>
      cases token with
      | rightParenthesis =>
          rcases opened with _ | ⟨⟨_ | ⟨callable, given⟩, outside⟩, outer⟩
          · obtain rfl := Except.error.inj failed
            exact .unexpected .operand
          · obtain rfl := Except.error.inj failed
            exact .unexpected .operand
          · exact ofCloseCall failed
      | _ => exact @ofStepOperand bound ⟨opened, waiting, .firstArgument⟩ _ fault failed
  | argumentList callable =>
      cases token with
      | leftParenthesis => cases failed
      | _ =>
          obtain rfl := Except.error.inj failed
          exact .unexpected .argumentList
  | operator value => exact ofStepOperator failed

end Refusal

/-- A run fails at the first token that is refused. -/
theorem exists_refused_of_run
    {tokens : List PlacedToken}
    (failed : run bound first tokens = .error fault) :
    ∃ front refused behind middle,
      tokens = front ++ refused :: behind ∧
      run bound first front = .ok middle ∧
      step bound middle refused = .error fault := by
  induction tokens generalizing first with
  | nil => cases failed
  | cons placed rest inductionHypothesis =>
      unfold run at failed
      cases stepped : step bound first placed with
      | error reported =>
          obtain rfl : reported = fault := by simpa [stepped] using failed
          exact ⟨[], placed, rest, first, rfl, rfl, stepped⟩
      | ok next =>
          simp only [stepped] at failed
          obtain ⟨front, refused, behind, middle, rfl, reached, refuses⟩ :=
            inductionHypothesis failed
          exact ⟨placed :: front, refused, behind, middle, rfl,
            by simpa [run, stepped] using reached, refuses⟩

/-- The end of a formula is refused only for what is still missing. -/
theorem finish_error
    (failed : finish state = .error fault) :
    ∃ expected, fault = .unexpectedEnd expected := by
  unfold finish at failed
  split at failed
  case h_1 => exact ⟨_, (Except.error.inj failed).symm⟩
  case h_2 => exact ⟨_, (Except.error.inj failed).symm⟩
  case h_3 => exact ⟨_, (Except.error.inj failed).symm⟩
  case h_4 =>
    split at failed
    case h_1 => cases failed
    case h_2 => exact ⟨_, (Except.error.inj failed).symm⟩

/-- Why a list of tokens is rejected: it is empty, has a refused token, or ends too early. -/
inductive Rejection
    (bound : List Coordinate)
    (tokens : List PlacedToken) :
    ParseError → Prop where
  | empty : Rejection bound tokens .empty
  | refused
      {front behind : List PlacedToken}
      {placed : PlacedToken}
      {middle : State}
      {fault : ParseError} :
      tokens = front ++ placed :: behind →
      run bound State.start front = .ok middle →
      step bound middle placed = .error fault →
      Rejection bound tokens fault
  | ended
      {final : State}
      (expected : Expectation) :
      run bound State.start tokens = .ok final →
      Rejection bound tokens (.unexpectedEnd expected)

theorem Rejection.ofParse
    {tokens : List PlacedToken}
    (failed : parse bound tokens = .error fault) :
    Rejection bound tokens fault := by
  unfold parse at failed
  split at failed
  case isTrue =>
    obtain rfl := Except.error.inj failed
    exact .empty
  case isFalse =>
    split at failed
    case h_1 final ran =>
      obtain ⟨expected, rfl⟩ := finish_error failed
      exact .ended expected ran
    case h_2 reported ran =>
      obtain rfl := Except.error.inj failed
      obtain ⟨_, _, _, _, cut, reached, refuses⟩ := exists_refused_of_run ran
      exact .refused cut reached refuses

end Electrostatics.Grammar
