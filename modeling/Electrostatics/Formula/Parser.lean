import Electrostatics.Formula.Expr
import Electrostatics.Formula.Fault

namespace Electrostatics.Parser

/-!
# From tokens to a syntax tree

The grammar, loosest binding first:

```text
sum     := product (('+' | '-') product)*
product := unary (('*' | '/') unary)*
unary   := ('-' | '+') unary | power
power   := primary (('^' | '**') unary)?
primary := number | name | name '(' arguments ')' | '(' sum ')'
```

The parser is a machine that takes one step a token and never looks ahead.  Its
state holds the open brackets and, inside each, the operations that still wait for
their right operand.  A token that no step accepts is therefore the earliest one at
which the formula can be known to be wrong.
-/

/-- An operation that waits for the operand on its right. -/
inductive Waiting where
  | negation
  | operation (left : Expr) (operator : BinaryOperator)
  deriving Repr, DecidableEq

/-- How tightly an operator binds. -/
def binding : BinaryOperator → Nat
  | .add => 1
  | .sub => 1
  | .mul => 2
  | .div => 2
  | .pow => 4

/-- How tightly a waiting operation holds its operand; negation comes between product and power. -/
def Waiting.binding : Waiting → Nat
  | .negation => 3
  | .operation _ operator => Parser.binding operator

/-- Give a waiting operation its operand. -/
def Waiting.complete : Waiting → Expr → Expr
  | .negation, operand => .negation operand
  | .operation left operator, operand => .operation operator left operand

/-- Carry out, innermost first, the waiting operations that bind at least as tightly. -/
def settle (strength : Nat) : List Waiting → Expr → List Waiting × Expr
  | [], value => ([], value)
  | waiting :: others, value =>
      if strength ≤ waiting.binding then
        settle strength others (waiting.complete value)
      else
        (waiting :: others, value)

/-- Carry out every waiting operation. -/
def settleAll (waiting : List Waiting) (value : Expr) : Expr :=
  (settle 0 waiting value).2

/--
How tightly a waiting operation must bind to be carried out before an operator.
Sums and products group to the left; a power waits for its exponent first.
-/
def pull : BinaryOperator → Nat
  | .add => 1
  | .sub => 1
  | .mul => 2
  | .div => 2
  | .pow => 5

/-- What an open bracket encloses. -/
inductive Bracket where
  | group
  /-- The arguments of a callable, with those already read. -/
  | arguments (callable : Callable) (given : List Expr)
  deriving Repr, DecidableEq

/-- An open bracket, and the operations that wait outside it. -/
structure Opened where
  bracket : Bracket
  outside : List Waiting
  deriving Repr, DecidableEq

/-- What the machine looks for next. -/
inductive Phase where
  /-- An operand, possibly signed. -/
  | operand
  /-- An operand, or the end of an empty list of arguments. -/
  | firstArgument
  /-- The bracket behind the name of a callable. -/
  | argumentList (callable : Callable)
  /-- An operator or a closing bracket behind a finished operand. -/
  | operator (value : Expr)
  deriving Repr, DecidableEq

/-- The state of the machine: open brackets innermost first, and the operations waiting inside. -/
structure State where
  opened : List Opened
  waiting : List Waiting
  phase : Phase
  deriving Repr, DecidableEq

/-- The state before the first token. -/
def State.start : State :=
  { opened := [], waiting := [], phase := .operand }

/-- The error of a token that a state does not accept. -/
def unexpected (placed : PlacedToken) (expected : Expectation) : ParseError :=
  .unexpectedToken placed.token expected placed.position

/-- What may follow a finished operand besides an operator. -/
def expectedBehindOperand : List Opened → Expectation
  | [] => .endOfFormula
  | { bracket := .group, .. } :: _ => .closing
  | { bracket := .arguments _ _, .. } :: _ => .nextArgument

/-- Close a list of arguments. -/
def closeCall
    (callable : Callable)
    (arguments : List Expr)
    (outer : List Opened)
    (outside : List Waiting) :
    Except ParseError State :=
  match callable.call? arguments with
  | some value =>
      .ok { opened := outer, waiting := outside, phase := .operator value }
  | none => .error (.wrongArity callable arguments.length)

/-- Read a name where an operand is looked for. -/
def stepName
    (bound : List Coordinate)
    (state : State)
    (name : String)
    (position : Nat) :
    Except ParseError State :=
  match Meaning.named? name with
  | some (.coordinate coordinate) =>
      if coordinate ∈ bound then
        .ok { state with phase := .operator (.coordinate coordinate) }
      else
        .error (.unknownSymbol name position)
  | some (.constant constant) =>
      .ok { state with phase := .operator (.constant constant) }
  | some (.callable callable) =>
      .ok { state with phase := .argumentList callable }
  | none => .error (.unknownSymbol name position)

/-- One step where an operand is looked for. -/
def stepOperand
    (bound : List Coordinate)
    (state : State)
    (placed : PlacedToken) :
    Except ParseError State :=
  match placed.token with
  | .number value =>
      .ok { state with phase := .operator (.number value) }
  | .identifier name => stepName bound state name placed.position
  | .leftParenthesis =>
      .ok
        { opened := { bracket := .group, outside := state.waiting } :: state.opened
          waiting := []
          phase := .operand }
  | .minus =>
      .ok { state with waiting := .negation :: state.waiting, phase := .operand }
  | .plus => .ok { state with phase := .operand }
  | _ => .error (unexpected placed .operand)

/-- One step on an operator behind a finished operand. -/
def stepBinary
    (state : State)
    (value : Expr)
    (operator : BinaryOperator) :
    State :=
  let settled := settle (pull operator) state.waiting value
  { state with
    waiting := .operation settled.2 operator :: settled.1
    phase := .operand }

/-- One step on a closing bracket behind a finished operand. -/
def stepClose
    (state : State)
    (value : Expr)
    (placed : PlacedToken) :
    Except ParseError State :=
  let enclosed := settleAll state.waiting value
  match state.opened with
  | [] => .error (unexpected placed .endOfFormula)
  | { bracket := .group, outside } :: outer =>
      .ok { opened := outer, waiting := outside, phase := .operator enclosed }
  | { bracket := .arguments callable given, outside } :: outer =>
      closeCall callable (given ++ [enclosed]) outer outside

/-- One step on a comma behind a finished operand. -/
def stepComma
    (state : State)
    (value : Expr)
    (placed : PlacedToken) :
    Except ParseError State :=
  match state.opened with
  | { bracket := .arguments callable given, outside } :: outer =>
      .ok
        { opened :=
            { bracket := .arguments callable (given ++ [settleAll state.waiting value])
              outside := outside } :: outer
          waiting := []
          phase := .operand }
  | opened => .error (unexpected placed (expectedBehindOperand opened))

/-- One step behind a finished operand. -/
def stepOperator
    (state : State)
    (value : Expr)
    (placed : PlacedToken) :
    Except ParseError State :=
  match placed.token with
  | .plus => .ok (stepBinary state value .add)
  | .minus => .ok (stepBinary state value .sub)
  | .star => .ok (stepBinary state value .mul)
  | .slash => .ok (stepBinary state value .div)
  | .caret => .ok (stepBinary state value .pow)
  | .doubleStar => .ok (stepBinary state value .pow)
  | .rightParenthesis => stepClose state value placed
  | .comma => stepComma state value placed
  | _ => .error (unexpected placed (expectedBehindOperand state.opened))

/-- One step of the machine. -/
def step
    (bound : List Coordinate)
    (state : State)
    (placed : PlacedToken) :
    Except ParseError State :=
  match state.phase with
  | .operand => stepOperand bound state placed
  | .firstArgument =>
      match placed.token, state.opened with
      | .rightParenthesis, { bracket := .arguments callable given, outside } :: outer =>
          closeCall callable given outer outside
      | _, _ => stepOperand bound state placed
  | .argumentList callable =>
      match placed.token with
      | .leftParenthesis =>
          .ok
            { opened :=
                { bracket := .arguments callable [], outside := state.waiting } ::
                  state.opened
              waiting := []
              phase := .firstArgument }
      | _ => .error (unexpected placed .argumentList)
  | .operator value => stepOperator state value placed

/-- The steps of the machine over a list of tokens. -/
def run
    (bound : List Coordinate) :
    State →
    List PlacedToken →
    Except ParseError State
  | state, [] => .ok state
  | state, placed :: rest =>
      match step bound state placed with
      | .ok next => run bound next rest
      | .error fault => .error fault

/-- The tree of a state at the end of the formula. -/
def finish (state : State) : Except ParseError Expr :=
  match state.phase with
  | .operand => .error (.unexpectedEnd .operand)
  | .firstArgument => .error (.unexpectedEnd .operand)
  | .argumentList _ => .error (.unexpectedEnd .argumentList)
  | .operator value =>
      match state.opened with
      | [] => .ok (settleAll state.waiting value)
      | opened => .error (.unexpectedEnd (expectedBehindOperand opened))

/-- The tree of a list of tokens, with only some coordinates bound. -/
def parse
    (bound : List Coordinate)
    (tokens : List PlacedToken) :
    Except ParseError Expr :=
  if tokens.isEmpty then
    .error .empty
  else
    match run bound State.start tokens with
    | .ok final => finish final
    | .error fault => .error fault

end Electrostatics.Parser
