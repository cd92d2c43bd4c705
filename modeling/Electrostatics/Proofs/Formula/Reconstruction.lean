import Electrostatics.Proofs.Formula.LeftContext
import Mathlib.Data.List.Forall2

namespace Electrostatics.Grammar

open Electrostatics.Parser

/-!
# Every state stands for the tokens read so far

A state of the machine says which phrases of the grammar the tokens behind it begin and
finish: each open bracket is a phrase in brackets whose end is to come, and what waits in
it is a left context.  A step keeps this reading, so a tree that is handed out at the end
is one that the grammar gives to the tokens.
-/

variable {bound : List Coordinate}

/-- Arguments and the tokens that spell them, each with a comma behind it. -/
def Given
    (bound : List Coordinate)
    (given : List Expr)
    (tokens : List Token) : Prop :=
  ∃ spelled : List (List Token),
    List.Forall₂ (Derives bound .sum) spelled given ∧
    tokens = spelled.flatMap (fun argument => argument ++ [.comma])

theorem Given.snoc
    {given : List Expr}
    {tokens argumentTokens : List Token}
    {argument : Expr}
    (before : Given bound given tokens)
    (derived : Derives bound .sum argumentTokens argument) :
    Given bound (given ++ [argument]) (tokens ++ argumentTokens ++ [.comma]) := by
  obtain ⟨spelled, derivations, rfl⟩ := before
  refine ⟨spelled ++ [argumentTokens], ?_, by simp⟩
  exact List.rel_append derivations (.cons derived .nil)

/-- A callable takes one or two arguments, as the grammar has it. -/
theorem call?_eq_some
    {callable : Callable}
    {arguments : List Expr}
    {value : Expr}
    (called : callable.call? arguments = some value) :
    (∃ argument function,
      arguments = [argument] ∧
      ofOneArgument? callable = some function ∧
      value = .call function argument) ∨
    (∃ first second function,
      arguments = [first, second] ∧
      ofTwoArguments? callable = some function ∧
      value = .callPair function first second) := by
  match callable, arguments with
  | .unary function, [argument] =>
      exact .inl ⟨argument, function, rfl, rfl, (Option.some.inj called).symm⟩
  | .sign, [argument] =>
      exact .inl ⟨argument, .sgn, rfl, rfl, (Option.some.inj called).symm⟩
  | .atan2, [first, second] =>
      exact .inr ⟨first, second, .atan2, rfl, rfl, (Option.some.inj called).symm⟩
  | .sign, [first, second] =>
      exact .inr ⟨first, second, .sign, rfl, rfl, (Option.some.inj called).symm⟩

/-- A list of arguments that suits its callable makes a call of the grammar. -/
theorem derives_of_call
    {name : String}
    {callable : Callable}
    {given : List Expr}
    {tokens argumentTokens : List Token}
    {argument value : Expr}
    (named : Meaning.named? name = some (.callable callable))
    (before : Given bound given tokens)
    (derived : Derives bound .sum argumentTokens argument)
    (called : callable.call? (given ++ [argument]) = some value) :
    Derives bound .primary
      (.identifier name :: .leftParenthesis ::
        (tokens ++ argumentTokens) ++ [.rightParenthesis])
      value := by
  obtain ⟨spelled, derivations, rfl⟩ := before
  rcases call?_eq_some called with
      ⟨only, function, isOnly, one, rfl⟩ | ⟨first, second, function, arePair, two, rfl⟩
  · obtain ⟨rfl, rfl⟩ : given = [] ∧ argument = only := by
      simpa [List.append_eq_singleton_iff] using isOnly
    obtain rfl := List.forall₂_nil_right_iff.mp derivations
    simpa using Derives.callOne named one derived
  · obtain ⟨rfl, rfl⟩ : given = [first] ∧ argument = second := by
      have ends : given ++ [argument] = [first] ++ [second] := arePair
      simpa using List.append_singleton_inj.mp ends
    obtain ⟨firstTokens, none, firstDerived, nothing, rfl⟩ :=
      List.forall₂_cons_right_iff.mp derivations
    obtain rfl := List.forall₂_nil_right_iff.mp nothing
    simpa using Derives.callTwo named two firstDerived derived

/-- The tokens up to the innermost open bracket, and the brackets they open. -/
inductive Enclosed (bound : List Coordinate) : List Opened → List Token → Prop where
  | outermost : Enclosed bound [] []
  | group
      {outer : List Opened}
      {outside : List Waiting}
      {tokens inner : List Token} :
      Enclosed bound outer tokens →
      Context bound outside .primary inner →
      Enclosed bound ({ bracket := .group, outside := outside } :: outer)
        (tokens ++ inner ++ [.leftParenthesis])
  | arguments
      {outer : List Opened}
      {outside : List Waiting}
      {name : String}
      {callable : Callable}
      {given : List Expr}
      {tokens inner spelled : List Token} :
      Enclosed bound outer tokens →
      Context bound outside .primary inner →
      Meaning.named? name = some (.callable callable) →
      Given bound given spelled →
      Enclosed bound
        ({ bracket := .arguments callable given, outside := outside } :: outer)
        (tokens ++ inner ++ .identifier name :: .leftParenthesis :: spelled)

/-- The tokens that a state stands for. -/
inductive Reached (bound : List Coordinate) : State → List Token → Prop where
  | operand
      {opened : List Opened}
      {waiting : List Waiting}
      {tokens inner : List Token} :
      Enclosed bound opened tokens →
      Context bound waiting .primary inner →
      Reached bound
        { opened := opened, waiting := waiting, phase := .operand } (tokens ++ inner)
  | firstArgument
      {outer : List Opened}
      {outside : List Waiting}
      {callable : Callable}
      {tokens : List Token} :
      Enclosed bound
        ({ bracket := .arguments callable [], outside := outside } :: outer) tokens →
      Reached bound
        { opened := { bracket := .arguments callable [], outside := outside } :: outer
          waiting := []
          phase := .firstArgument } tokens
  | argumentList
      {opened : List Opened}
      {waiting : List Waiting}
      {name : String}
      {callable : Callable}
      {tokens inner : List Token} :
      Enclosed bound opened tokens →
      Context bound waiting .primary inner →
      Meaning.named? name = some (.callable callable) →
      Reached bound
        { opened := opened, waiting := waiting, phase := .argumentList callable }
        (tokens ++ inner ++ [.identifier name])
  | operator
      {opened : List Opened}
      {waiting : List Waiting}
      {value : Expr}
      {tokens inner valueTokens : List Token} :
      Enclosed bound opened tokens →
      Context bound waiting .primary inner →
      Derives bound .primary valueTokens value →
      Reached bound
        { opened := opened, waiting := waiting, phase := .operator value }
        (tokens ++ inner ++ valueTokens)

namespace Reached

variable
  {opened : List Opened}
  {waiting : List Waiting}
  {phase : Phase}
  {tokens inner : List Token}
  {placed : PlacedToken}
  {next : State}

theorem ofEnclosed
    (enclosed : Enclosed bound opened tokens) :
    Reached bound { opened := opened, waiting := [], phase := .operand } tokens := by
  simpa using Reached.operand enclosed Context.start.toPrimary

theorem stepName
    {name : String}
    {position : Nat}
    (enclosed : Enclosed bound opened tokens)
    (context : Context bound waiting .primary inner)
    (stepped :
      Parser.stepName bound
        { opened := opened, waiting := waiting, phase := phase } name position = .ok next) :
    Reached bound next (tokens ++ inner ++ [.identifier name]) := by
  unfold Parser.stepName at stepped
  split at stepped
  case h_1 coordinate named =>
    split at stepped
    case isTrue member =>
      obtain rfl := Except.ok.inj stepped
      exact .operator enclosed context (.coordinate named member)
    case isFalse => cases stepped
  case h_2 constant named =>
    obtain rfl := Except.ok.inj stepped
    exact .operator enclosed context (.constant named)
  case h_3 callable named =>
    obtain rfl := Except.ok.inj stepped
    exact .argumentList enclosed context named
  case h_4 => cases stepped

/-- A token accepted as an operand, or as the beginning of one, is so in the grammar. -/
theorem stepOperand
    (enclosed : Enclosed bound opened tokens)
    (context : Context bound waiting .primary inner)
    (stepped :
      Parser.stepOperand bound
        { opened := opened, waiting := waiting, phase := phase } placed = .ok next) :
    Reached bound next (tokens ++ inner ++ [placed.token]) := by
  rcases placed with ⟨token, position⟩
  cases token with
  | number value =>
      obtain rfl := Except.ok.inj stepped
      exact .operator enclosed context (.number value)
  | identifier name => exact stepName enclosed context stepped
  | leftParenthesis =>
      obtain rfl := Except.ok.inj stepped
      exact ofEnclosed (.group enclosed context)
  | minus =>
      obtain rfl := Except.ok.inj stepped
      simpa using Reached.operand enclosed context.toUnary.negative.toPrimary
  | plus =>
      obtain rfl := Except.ok.inj stepped
      simpa using Reached.operand enclosed context.toUnary.positive.toPrimary
  | _ => cases stepped

theorem closeCall
    {outer : List Opened}
    {outside : List Waiting}
    {callable : Callable}
    {given : List Expr}
    {argument : Expr}
    {argumentTokens : List Token}
    (enclosed :
      Enclosed bound
        ({ bracket := .arguments callable given, outside := outside } :: outer) tokens)
    (derived : Derives bound .sum argumentTokens argument)
    (closed :
      Parser.closeCall callable (given ++ [argument]) outer outside = .ok next) :
    Reached bound next (tokens ++ argumentTokens ++ [.rightParenthesis]) := by
  unfold Parser.closeCall at closed
  split at closed
  case h_1 value called =>
    obtain rfl := Except.ok.inj closed
    cases enclosed with
    | arguments around context named before =>
        simpa using
          Reached.operator around context (derives_of_call named before derived called)
  case h_2 => cases closed

theorem stepClose
    {value : Expr}
    {valueTokens : List Token}
    (enclosed : Enclosed bound opened tokens)
    (context : Context bound waiting .primary inner)
    (derived : Derives bound .primary valueTokens value)
    (stepped :
      Parser.stepClose
        { opened := opened, waiting := waiting, phase := phase } value placed = .ok next) :
    Reached bound next (tokens ++ inner ++ valueTokens ++ [.rightParenthesis]) := by
  have sum := context.whole derived
  cases enclosed with
  | outermost => cases stepped
  | group around outside =>
      obtain rfl := Except.ok.inj stepped
      simpa using Reached.operator around outside (.group sum)
  | arguments around outside named before =>
      simpa using closeCall (.arguments around outside named before) sum stepped

theorem stepComma
    {value : Expr}
    {valueTokens : List Token}
    (enclosed : Enclosed bound opened tokens)
    (context : Context bound waiting .primary inner)
    (derived : Derives bound .primary valueTokens value)
    (stepped :
      Parser.stepComma
        { opened := opened, waiting := waiting, phase := phase } value placed = .ok next) :
    Reached bound next (tokens ++ inner ++ valueTokens ++ [.comma]) := by
  have sum := context.whole derived
  cases enclosed with
  | outermost => cases stepped
  | group around outside => cases stepped
  | arguments around outside named before =>
      obtain rfl := Except.ok.inj stepped
      simpa using ofEnclosed (.arguments around outside named (before.snoc sum))

/-- An operator behind an operand puts its right operand next. -/
theorem stepBinary
    {operator : BinaryOperator}
    {sign : Token}
    {value : Expr}
    {valueTokens : List Token}
    (signed : operator? sign = some operator)
    (enclosed : Enclosed bound opened tokens)
    (context : Context bound waiting .primary inner)
    (derived : Derives bound .primary valueTokens value) :
    Reached bound
      (Parser.stepBinary
        { opened := opened, waiting := waiting, phase := phase } value operator)
      (tokens ++ inner ++ valueTokens ++ [sign]) := by
  simpa [Parser.stepBinary] using
    Reached.operand enclosed (context.operand signed derived).toPrimary

/-- A step keeps the tokens that the state stands for, with its own token behind them. -/
theorem step
    {state : State}
    (reached : Reached bound state tokens)
    (stepped : Parser.step bound state placed = .ok next) :
    Reached bound next (tokens ++ [placed.token]) := by
  rcases placed with ⟨token, position⟩
  cases reached with
  | operand enclosed context => exact stepOperand enclosed context stepped
  | @firstArgument _ _ callable _ enclosed =>
      cases token with
      | rightParenthesis =>
          -- No callable does without arguments.
          have refused : callable.call? [] = none := by cases callable <;> rfl
          simp [Parser.step, Parser.closeCall, refused] at stepped
      | _ =>
          simp only [Parser.step] at stepped
          simpa using stepOperand enclosed Context.start.toPrimary stepped
  | argumentList enclosed context named =>
      cases token with
      | leftParenthesis =>
          obtain rfl := Except.ok.inj stepped
          have noneGiven : Given bound [] [] := ⟨[], .nil, rfl⟩
          simpa using
            Reached.firstArgument (.arguments enclosed context named noneGiven)
      | _ => cases stepped
  | operator enclosed context derived =>
      cases token with
      | rightParenthesis => exact stepClose enclosed context derived stepped
      | comma => exact stepComma enclosed context derived stepped
      | number _ => cases stepped
      | identifier _ => cases stepped
      | leftParenthesis => cases stepped
      | _ =>
          obtain rfl := Except.ok.inj stepped
          exact stepBinary rfl enclosed context derived

/-- Every run leads to a state that stands for all tokens of the run. -/
theorem run
    {state final : State}
    {placed : List PlacedToken}
    (reached : Reached bound state tokens)
    (ran : Parser.run bound state placed = .ok final) :
    Reached bound final (tokens ++ placed.map PlacedToken.token) := by
  induction placed generalizing state tokens with
  | nil =>
      obtain rfl := Except.ok.inj ran
      simpa using reached
  | cons front rest inductionHypothesis =>
      unfold Parser.run at ran
      split at ran
      case h_1 next stepped =>
        simpa using inductionHypothesis (reached.step stepped) ran
      case h_2 => cases ran

/-- A tree that is handed out at the end of a formula is one that the grammar gives. -/
theorem finish
    {state : State}
    {tree : Expr}
    (reached : Reached bound state tokens)
    (finished : Parser.finish state = .ok tree) :
    Derives bound .sum tokens tree := by
  cases reached with
  | operator enclosed context derived =>
      cases enclosed with
      | outermost =>
          obtain rfl := Except.ok.inj finished
          simpa using context.whole derived
      | _ => cases finished
  | _ => cases finished

end Reached

/-- Every tree that the parser hands out is one that the grammar gives. -/
theorem derives_of_parse
    {tokens : List PlacedToken}
    {tree : Expr}
    (parsed : parse bound tokens = .ok tree) :
    Derives bound .sum (tokens.map PlacedToken.token) tree := by
  unfold parse at parsed
  split at parsed
  case isTrue => cases parsed
  case isFalse =>
    split at parsed
    case h_1 final ran =>
      have start : Reached bound State.start [] := Reached.ofEnclosed .outermost
      simpa using (start.run ran).finish parsed
    case h_2 => cases parsed

end Electrostatics.Grammar
