import Electrostatics.Proofs.Formula.Refusals
import Electrostatics.Proofs.Formula.Viability

namespace Electrostatics.Grammar

open Electrostatics.Parser

/-!
# Syntax errors

The machine reads every sentence to its end, or to a call with the wrong number of
arguments, and stops nowhere in between.  Tokens that it refuses for another reason are
therefore no sentence, whatever follows them, while all that it accepted before begins one:
a syntax error is reported at the first token with which the formula cannot be completed
any more.
-/

variable
  {bound : List Coordinate}
  {first middle last : State}
  {placed : PlacedToken}
  {fault : ParseError}

/--
From a state some tokens lead to a state with a property, wherever they stand, unless they
call something with the wrong number of arguments.
-/
def Passes
    (bound : List Coordinate)
    (first : State)
    (tokens : List Token)
    (goal : State → Prop) : Prop :=
  ∀ placed : List PlacedToken,
    placed.map PlacedToken.token = tokens →
    (∃ last, run bound first placed = .ok last ∧ goal last) ∨
    (∃ callable found, run bound first placed = .error (.wrongArity callable found))

/-- The states behind a finished operand inside given brackets. -/
def Behind (opened : List Opened) (state : State) : Prop :=
  state.opened = opened ∧ ∃ value, state.phase = .operator value

namespace Passes

variable
  {goal final : State → Prop}
  {token : Token}
  {tokens later : List Token}
  {opened : List Opened}
  {waiting : List Waiting}

theorem append
    (before : Passes bound first tokens goal)
    (after : ∀ middle, goal middle → Passes bound middle later final) :
    Passes bound first (tokens ++ later) final := by
  intro placed spelled
  obtain ⟨front, back, rfl, frontSpelled, backSpelled⟩ :=
    List.map_eq_append_iff.mp spelled
  rw [run_append]
  rcases before front frontSpelled with
      ⟨middle, reached, holds⟩ | ⟨callable, found, refused⟩
  · rw [reached]
    exact after middle holds back backSpelled
  · rw [refused]
    exact .inr ⟨callable, found, rfl⟩

theorem ofStep
    (stepped :
      ∀ position,
        (∃ next, step bound first ⟨token, position⟩ = .ok next ∧ goal next) ∨
        (∃ callable found,
          step bound first ⟨token, position⟩ = .error (.wrongArity callable found))) :
    Passes bound first [token] goal := by
  intro placed spelled
  obtain ⟨⟨only, position⟩, rest, rfl, sameToken, restSpelled⟩ :=
    List.map_eq_cons_iff.mp spelled
  obtain rfl := List.map_eq_nil_iff.mp restSpelled
  obtain rfl : only = token := sameToken
  rcases stepped position with ⟨next, accepted, holds⟩ | ⟨callable, found, refused⟩
  · exact .inl ⟨next, by simp [run, accepted], holds⟩
  · exact .inr ⟨callable, found, by simp [run, refused]⟩

theorem ofOperand
    (value : Expr)
    (stepped :
      ∀ position,
        step bound
          { opened := opened, waiting := waiting, phase := .operand }
          { token := token, position := position } =
        .ok { opened := opened, waiting := waiting, phase := .operator value }) :
    Passes bound
      { opened := opened, waiting := waiting, phase := .operand } [token]
      (Behind opened) :=
  ofStep (fun position => .inl ⟨_, stepped position, rfl, value, rfl⟩)

theorem cons
    (stepped : ∀ position, step bound first ⟨token, position⟩ = .ok middle)
    (after : Passes bound middle later goal) :
    Passes bound first (token :: later) goal := by
  have before : Passes bound first [token] (fun state => state = middle) :=
    ofStep (fun position => .inl ⟨middle, stepped position, rfl⟩)
  refine before.append (fun state isMiddle => ?_)
  rw [isMiddle]
  exact after

/-- A list of arguments begins like any operand. -/
theorem firstArgument
    (passes :
      Passes bound
        { opened := opened, waiting := waiting, phase := .operand } tokens goal)
    (tokensNe : tokens ≠ []) :
    Passes bound
      { opened := opened, waiting := waiting, phase := .firstArgument } tokens goal := by
  intro placed spelled
  have passed := passes placed spelled
  cases placed with
  | nil => exact absurd spelled.symm tokensNe
  | cons front rest =>
      rcases front with ⟨token, position⟩
      -- A closing bracket is the one token that the two phases treat differently.
      cases token with
      | rightParenthesis => simp [run, step, stepOperand, unexpected] at passed
      | _ =>
          simp only [run, step] at passed ⊢
          exact passed

/-- A call is closed whatever its arguments are, or refused for their number. -/
theorem ofCloseCall
    {state : State}
    (callable : Callable)
    (arguments : List Expr)
    {outside : List Waiting}
    (closes :
      ∀ position,
        step bound state ⟨.rightParenthesis, position⟩ =
          closeCall callable arguments opened outside) :
    Passes bound state [.rightParenthesis] (Behind opened) := by
  refine ofStep (fun position => ?_)
  rw [closes, closeCall]
  cases callable.call? arguments with
  | none => exact .inr ⟨callable, arguments.length, rfl⟩
  | some value => exact .inl ⟨_, rfl, rfl, value, rfl⟩

/-- A sign behind an operand is accepted and its right operand is read. -/
theorem operator
    {operator : BinaryOperator}
    {sign : Token}
    (signed : operator? sign = some operator)
    (passes :
      ∀ waiting,
        Passes bound
          { opened := opened, waiting := waiting, phase := .operand } tokens goal)
    {middle : State}
    (behind : Behind opened middle) :
    Passes bound middle (sign :: tokens) goal := by
  obtain ⟨_, waiting, _⟩ := middle
  obtain ⟨rfl, value, rfl⟩ := behind
  cases sign <;> cases signed <;> exact cons (fun position => rfl) (passes _)

/--
Arguments that are read as operands are read as the rest of a list of arguments, up to the
bracket that closes it.
-/
theorem arguments
    {callable : Callable}
    {given : List Expr}
    {outside : List Waiting}
    {front : List Token}
    {others : List (List Token)}
    (passes :
      ∀ argument ∈ front :: others, ∀ opened waiting,
        Passes bound
          { opened := opened, waiting := waiting, phase := .operand } argument
          (Behind opened)) :
    Passes bound
      { opened := { bracket := .arguments callable given, outside := outside } :: opened
        waiting := []
        phase := .operand }
      (List.intercalate [.comma] (front :: others) ++ [.rightParenthesis])
      (Behind opened) := by
  induction others generalizing front given with
  | nil =>
      rw [List.intercalate_singleton]
      refine (passes front (by simp) _ _).append ?_
      rintro ⟨_, waiting, _⟩ ⟨rfl, value, rfl⟩
      exact ofCloseCall callable (given ++ [settleAll waiting value]) (fun position => rfl)
  | cons second others inductionHypothesis =>
      rw [List.intercalate_cons_cons, List.append_assoc, List.append_assoc]
      refine (passes front (by simp) _ _).append ?_
      rintro ⟨_, waiting, _⟩ ⟨rfl, value, rfl⟩
      refine cons (fun position => rfl) (inductionHypothesis ?_)
      intro argument member
      exact passes argument (List.mem_cons_of_mem _ member)

end Passes

/-- The machine reads every phrase as an operand, or meets a call that it refuses. -/
theorem Phrase.passes
    {category : Category}
    {tokens : List Token}
    (phrase : Phrase bound category tokens)
    (opened : List Opened)
    (waiting : List Waiting) :
    Passes bound
      { opened := opened, waiting := waiting, phase := .operand } tokens
      (Behind opened) := by
  induction phrase generalizing opened waiting with
  | sumOfProduct _ inductionHypothesis => exact inductionHypothesis opened waiting
  | productOfUnary _ inductionHypothesis => exact inductionHypothesis opened waiting
  | unaryOfPower _ inductionHypothesis => exact inductionHypothesis opened waiting
  | powerOfPrimary _ inductionHypothesis => exact inductionHypothesis opened waiting
  | operation signed _ _ leftHypothesis rightHypothesis =>
      exact (leftHypothesis opened waiting).append
        (fun _ behind => .operator signed (rightHypothesis opened) behind)
  | signed isSign _ inductionHypothesis =>
      rcases isSign with rfl | rfl
      · exact .cons (fun position => rfl) (inductionHypothesis opened _)
      · exact .cons (fun position => rfl) (inductionHypothesis opened waiting)
  | number value => exact .ofOperand (.number value) (fun position => rfl)
  | @coordinate _ coordinate named member =>
      refine .ofOperand (.coordinate coordinate) (fun position => ?_)
      simp only [step, stepOperand, stepName, named, member, ↓reduceIte]
  | @constant _ constant named =>
      refine .ofOperand (.constant constant) (fun position => ?_)
      simp only [step, stepOperand, stepName, named]
  | group _ inductionHypothesis =>
      refine .cons (fun position => rfl) ((inductionHypothesis _ _).append ?_)
      rintro ⟨_, inner, _⟩ ⟨rfl, value, rfl⟩
      exact .ofStep (fun position => .inl ⟨_, rfl, rfl, _, rfl⟩)
  | @call name callable arguments named phrases inductionHypothesis =>
      have nameRead :
          ∀ position,
            step bound
              { opened := opened, waiting := waiting, phase := .operand }
              { token := .identifier name, position := position } =
            .ok
              { opened := opened
                waiting := waiting
                phase := .argumentList callable } := by
        intro position
        simp only [step, stepOperand, stepName, named]
      refine .cons nameRead (.cons (fun position => rfl) ?_)
      cases arguments with
      | nil => exact .ofCloseCall callable [] (fun position => rfl)
      | cons front others =>
          exact (Passes.arguments inductionHypothesis).firstArgument (by simp)

/-- Tokens with a refused one at an index begin a sentence up to that one only. -/
def BreaksAt (bound : List Coordinate) (tokens : List Token) (index : Nat) : Prop :=
  Viable bound (tokens.take index) ∧ ¬ Viable bound (tokens.take (index + 1))

theorem viable_of_run
    {tokens : List PlacedToken}
    (ran : run bound State.start tokens = .ok last) :
    Viable bound (tokens.map PlacedToken.token) := by
  have start : Reached bound State.start [] := .ofEnclosed .outermost
  simpa using (start.run ran).viable

/-- A sentence is refused for the arguments of a call, or not at all. -/
theorem Sentence.parse
    {tokens : List PlacedToken}
    (sentence : Sentence bound (tokens.map PlacedToken.token)) :
    (∃ tree, Parser.parse bound tokens = .ok tree) ∨
    (∃ callable found, Parser.parse bound tokens = .error (.wrongArity callable found)) := by
  have passed := Phrase.passes sentence [] [] tokens rfl
  cases tokens with
  | nil => simp [run, Behind] at passed
  | cons front rest =>
      rcases passed with ⟨⟨_, waiting, _⟩, ran, rfl, value, rfl⟩ | ⟨callable, found, refused⟩
      · exact .inl ⟨settleAll waiting value, by simp [Parser.parse, State.start, ran, finish]⟩
      · exact .inr ⟨callable, found, by simp [Parser.parse, State.start, refused]⟩

/-- Nothing behind a refused token makes a sentence, unless it closes a call. -/
theorem not_viable_of_refused
    {front : List PlacedToken}
    (ran : run bound State.start front = .ok middle)
    (refuses : step bound middle placed = .error fault)
    (noCall : ∀ callable found, fault ≠ .wrongArity callable found) :
    ¬ Viable bound (front.map PlacedToken.token ++ [placed.token]) := by
  rintro ⟨rest, sentence⟩
  -- Where the tokens behind stand plays no part, so any positions will do.
  let behind : List PlacedToken := rest.map (fun token => ⟨token, 0⟩)
  have spelled :
      (front ++ placed :: behind).map PlacedToken.token =
        front.map PlacedToken.token ++ [placed.token] ++ rest := by
    simp [behind, Function.comp_def]
  have failed : run bound State.start (front ++ placed :: behind) = .error fault := by
    simp [run_append, ran, Except.bind, run, refuses]
  rcases Phrase.passes sentence [] [] _ spelled with
      ⟨last, reached, _⟩ | ⟨callable, found, refused⟩
  · cases failed.symm.trans reached
  · exact noCall callable found (Except.error.inj (failed.symm.trans refused))

theorem breaksAt_of_refused
    {front : List PlacedToken}
    (behind : List PlacedToken)
    (ran : run bound State.start front = .ok middle)
    (refuses : step bound middle placed = .error fault)
    (noCall : ∀ callable found, fault ≠ .wrongArity callable found) :
    (front ++ placed :: behind)[front.length]? = some placed ∧
      BreaksAt bound ((front ++ placed :: behind).map PlacedToken.token) front.length := by
  have before :
      ((front ++ placed :: behind).map PlacedToken.token).take front.length =
        front.map PlacedToken.token := by
    simp
  have including :
      ((front ++ placed :: behind).map PlacedToken.token).take (front.length + 1) =
        front.map PlacedToken.token ++ [placed.token] := by
    simp [List.take_append, List.take_of_length_le]
  refine ⟨by simp, ?_, ?_⟩
  · rw [before]
    exact viable_of_run ran
  · rw [including]
    exact not_viable_of_refused ran refuses noCall

/--
Syntax errors are reported at the earliest token.  The tokens in front of an unexpected
token or of an unknown name begin some sentence, and with it they begin none; an unknown
name is neither bound nor builtin.  Where the end is unexpected, all tokens begin a sentence
but are none.
-/
theorem syntax_errors_are_earliest (bound : List Coordinate) (tokens : List PlacedToken) :
    (∀ found expected position,
      parse bound tokens = .error (.unexpectedToken found expected position) →
      ∃ index,
        tokens[index]? = some ⟨found, position⟩ ∧
          BreaksAt bound (tokens.map PlacedToken.token) index) ∧
    (∀ expected,
      parse bound tokens = .error (.unexpectedEnd expected) →
      Viable bound (tokens.map PlacedToken.token) ∧
        ¬ Sentence bound (tokens.map PlacedToken.token)) ∧
    (∀ name position,
      parse bound tokens = .error (.unknownSymbol name position) →
      ∃ index,
        tokens[index]? = some ⟨.identifier name, position⟩ ∧
          BreaksAt bound (tokens.map PlacedToken.token) index ∧
            (∀ coordinate ∈ bound, coordinate.name ≠ name) ∧
              ¬ IsBuiltin name) := by
  refine ⟨?_, ?_, ?_⟩
  · intro found expected position failed
    cases Rejection.ofParse failed with
    | @refused front behind _ _ _ cut ran refuses =>
        obtain ⟨isRefused, breaks⟩ := breaksAt_of_refused behind ran refuses nofun
        subst cut
        cases Refusal.ofStep refuses with
        | unexpected => exact ⟨front.length, isRefused, breaks⟩
  · intro expected failed
    constructor
    · cases Rejection.ofParse failed with
      | refused _ _ refuses => cases Refusal.ofStep refuses
      | ended _ ran => exact viable_of_run ran
    · intro sentence
      rcases sentence.parse with ⟨tree, parsed⟩ | ⟨callable, found, refused⟩
      · cases failed.symm.trans parsed
      · cases failed.symm.trans refused
  · intro name position failed
    cases Rejection.ofParse failed with
    | @refused front behind placed _ _ cut ran refuses =>
        obtain ⟨isRefused, breaks⟩ := breaksAt_of_refused behind ran refuses nofun
        subst cut
        rcases placed with ⟨token, place⟩
        cases Refusal.ofStep refuses with
        | unknown isName notBound notBuiltin =>
            obtain rfl : token = .identifier name := isName
            exact ⟨front.length, isRefused, breaks, notBound, notBuiltin⟩

/-- Behind `sin(1,` an operand is to come, although a sine takes no second argument. -/
theorem syntax_errors_behind_a_comma :
    let tokens : List PlacedToken :=
      [⟨.identifier "sin", 0⟩, ⟨.leftParenthesis, 3⟩, ⟨.number ⟨1, 0⟩, 4⟩, ⟨.comma, 5⟩]
    let withStar : List PlacedToken := tokens ++ [⟨.star, 6⟩]
    let withName : List PlacedToken := tokens ++ [⟨.identifier "y", 6⟩]
    (∃ index,
      withStar[index]? = some ⟨.star, 6⟩ ∧
        BreaksAt [.x] (withStar.map PlacedToken.token) index) ∧
    (Viable [.x] (tokens.map PlacedToken.token) ∧
      ¬ Sentence [.x] (tokens.map PlacedToken.token)) ∧
    (∃ index,
      withName[index]? = some ⟨.identifier "y", 6⟩ ∧
        BreaksAt [.x] (withName.map PlacedToken.token) index ∧
          (∀ coordinate ∈ [Coordinate.x], coordinate.name ≠ "y") ∧
            ¬ IsBuiltin "y") := by
  intro tokens withStar withName
  obtain ⟨unexpected, _, _⟩ := syntax_errors_are_earliest [.x] withStar
  obtain ⟨_, ended, _⟩ := syntax_errors_are_earliest [.x] tokens
  obtain ⟨_, _, unknown⟩ := syntax_errors_are_earliest [.x] withName
  have starRefused : parse [.x] withStar = .error (.unexpectedToken .star .operand 6) := by
    rfl
  have endRefused : parse [.x] tokens = .error (.unexpectedEnd .operand) := by
    rfl
  have nameRefused : parse [.x] withName = .error (.unknownSymbol "y" 6) := by
    rfl
  exact ⟨unexpected _ _ _ starRefused, ended _ endRefused, unknown _ _ nameRefused⟩

end Electrostatics.Grammar
