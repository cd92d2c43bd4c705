import Electrostatics.Proofs.Formula.Grammar

namespace Electrostatics.Grammar

open Electrostatics.Parser

/-!
# The machine accepts every sentence

The machine does not build the tree of a phrase at once: behind `1+2*3` the sum and the
product still wait.  What a phrase leaves is therefore a finished operand and some
waiting operations, none of which binds more loosely than the phrase allows, and
carrying them out gives the tree of the phrase.
-/

/-- A run over some tokens goes on where the run over the first of them ended. -/
theorem run_append
    {bound : List Coordinate}
    {first : State}
    (front behind : List PlacedToken) :
    run bound first (front ++ behind) =
      (run bound first front).bind (fun middle => run bound middle behind) := by
  induction front generalizing first with
  | nil => rfl
  | cons placed rest inductionHypothesis =>
      simp only [List.cons_append, run]
      cases step bound first placed with
      | ok next => exact inductionHypothesis
      | error fault => rfl

/-- Tokens lead from one state to another, wherever they stand in a formula. -/
def Leads
    (bound : List Coordinate)
    (first : State)
    (tokens : List Token)
    (last : State) : Prop :=
  ∀ placed : List PlacedToken,
    placed.map PlacedToken.token = tokens →
    run bound first placed = .ok last

namespace Leads

variable
  {bound : List Coordinate}
  {first middle last : State}

theorem ofStep
    {token : Token}
    (stepped : ∀ position, step bound first ⟨token, position⟩ = .ok last) :
    Leads bound first [token] last := by
  intro placed spelled
  obtain ⟨⟨only, position⟩, rest, rfl, sameToken, restSpelled⟩ :=
    List.map_eq_cons_iff.mp spelled
  obtain rfl := List.map_eq_nil_iff.mp restSpelled
  obtain rfl : only = token := sameToken
  simp [run, stepped position]

theorem append
    {tokens later : List Token}
    (before : Leads bound first tokens middle)
    (after : Leads bound middle later last) :
    Leads bound first (tokens ++ later) last := by
  intro placed spelled
  obtain ⟨front, back, rfl, frontSpelled, backSpelled⟩ :=
    List.map_eq_append_iff.mp spelled
  rw [run_append, before front frontSpelled]
  exact after back backSpelled

theorem cons
    {token : Token}
    {later : List Token}
    (stepped : ∀ position, step bound first ⟨token, position⟩ = .ok middle)
    (after : Leads bound middle later last) :
    Leads bound first (token :: later) last :=
  append (ofStep stepped) after

theorem firstArgument
    {opened : List Opened}
    {waiting : List Waiting}
    {tokens : List Token}
    (leads :
      Leads bound
        { opened := opened, waiting := waiting, phase := .operand } tokens last)
    (tokensNe : tokens ≠ []) :
    Leads bound
      { opened := opened, waiting := waiting, phase := .firstArgument } tokens last := by
  intro placed spelled
  have reached := leads placed spelled
  cases placed with
  | nil => exact absurd spelled.symm tokensNe
  | cons front rest =>
      rcases front with ⟨token, position⟩
      -- A closing bracket is the one token that the two phases treat differently.
      cases token with
      | rightParenthesis => simp [run, step, stepOperand] at reached
      | identifier name =>
          simp only [run, step, stepOperand, stepName] at reached ⊢
          exact reached
      | _ =>
          simp only [run, step, stepOperand] at reached ⊢
          exact reached

theorem ofCallable
    {name : String}
    {callable : Callable}
    {opened : List Opened}
    {waiting : List Waiting}
    {tokens : List Token}
    (named : Meaning.named? name = some (.callable callable))
    (leads :
      Leads bound
        { opened := { bracket := .arguments callable [], outside := waiting } :: opened
          waiting := []
          phase := .firstArgument } tokens last) :
    Leads bound
      { opened := opened, waiting := waiting, phase := .operand }
      (.identifier name :: .leftParenthesis :: tokens) last := by
  have stepped :
      ∀ position,
        step bound
          { opened := opened, waiting := waiting, phase := .operand }
          { token := .identifier name, position := position } =
        .ok
          { opened := opened, waiting := waiting, phase := .argumentList callable } := by
    intro position
    simp only [step, stepOperand, stepName, named]
  exact cons stepped (cons (fun position => rfl) leads)

end Leads

/-- How tightly the operators inside a phrase pull at what waits in front of it. -/
def Category.pull : Category → Nat
  | .sum => 1
  | .product => 2
  | .unary => 5
  | .power => 5
  | .primary => 5

/-- How loosely an operation that a phrase leaves waiting may bind. -/
def Category.loosest : Category → Nat
  | .sum => 1
  | .product => 2
  | .unary => 3
  | .power => 3
  | .primary => 5

/-- No operation at the front of a list binds tightly enough to be carried out. -/
def Stops (strength : Nat) (waiting : List Waiting) : Prop :=
  ∀ front ∈ waiting.head?, front.binding < strength

theorem binding_pos (waiting : Waiting) : 0 < waiting.binding := by
  cases waiting with
  | negation => decide
  | operation left operator =>
      change 0 < binding operator
      cases operator <;> decide

theorem binding_lt_pull_pow (waiting : Waiting) : waiting.binding < 5 := by
  cases waiting with
  | negation => decide
  | operation left operator =>
      change binding operator < 5
      cases operator <;> decide

theorem settle_of_stops
    {strength : Nat}
    {waiting : List Waiting}
    (stops : Stops strength waiting)
    (value : Expr) :
    settle strength waiting value = (waiting, value) := by
  cases waiting with
  | nil => rfl
  | cons front rest =>
      have loose : front.binding < strength := stops front rfl
      simp [settle, Nat.not_le.mpr loose]

theorem settleAll_cons
    (front : Waiting)
    (rest : List Waiting)
    (value : Expr) :
    settleAll (front :: rest) value = settleAll rest (front.complete value) := by
  simp [settleAll, settle]

theorem settleAll_append
    (inner outer : List Waiting)
    (value : Expr) :
    settleAll (inner ++ outer) value = settleAll outer (settleAll inner value) := by
  induction inner generalizing value with
  | nil => rfl
  | cons front rest inductionHypothesis =>
      simp only [List.cons_append, settleAll_cons, inductionHypothesis]

/-- Exactly the operations that bind tightly enough are carried out. -/
theorem settle_append
    {strength : Nat}
    {inner outer : List Waiting}
    (tight : ∀ waiting ∈ inner, strength ≤ waiting.binding)
    (stops : Stops strength outer)
    (value : Expr) :
    settle strength (inner ++ outer) value = (outer, settleAll inner value) := by
  induction inner generalizing value with
  | nil => exact settle_of_stops stops value
  | cons front rest inductionHypothesis =>
      have frontTight : strength ≤ front.binding := tight front (by simp)
      have restTight : ∀ waiting ∈ rest, strength ≤ waiting.binding :=
        fun waiting member => tight waiting (by simp [member])
      simp only [List.cons_append, settle, frontTight, ↓reduceIte,
        inductionHypothesis restTight, settleAll_cons]

/--
What the machine makes of a phrase: it ends behind a finished operand, and the tree of
the phrase comes out when the operations left waiting are carried out.
-/
def Completes
    (bound : List Coordinate)
    (category : Category)
    (tokens : List Token)
    (tree : Expr) : Prop :=
  ∀ (opened : List Opened) (waiting : List Waiting),
    Stops category.pull waiting →
    ∃ (inner : List Waiting) (value : Expr),
      Leads bound
        { opened := opened, waiting := waiting, phase := .operand } tokens
        { opened := opened, waiting := inner ++ waiting, phase := .operator value } ∧
      (∀ left ∈ inner, category.loosest ≤ left.binding) ∧
      settleAll inner value = tree

namespace Completes

variable
  {bound : List Coordinate}
  {tokens : List Token}
  {tree : Expr}

/-- A phrase of a tighter category is one of a looser category. -/
theorem widen
    {tight loose : Category}
    (pulls : loose.pull ≤ tight.pull)
    (loosens : loose.loosest ≤ tight.loosest)
    (completes : Completes bound tight tokens tree) :
    Completes bound loose tokens tree := by
  intro opened waiting stops
  have tightStops : Stops tight.pull waiting :=
    fun front member => Nat.lt_of_lt_of_le (stops front member) pulls
  obtain ⟨inner, value, leads, bindings, settled⟩ :=
    completes opened waiting tightStops
  exact ⟨inner, value, leads,
    fun left member => Nat.le_trans loosens (bindings left member), settled⟩

theorem ofLeads
    (leads :
      ∀ (opened : List Opened) (waiting : List Waiting),
        Leads bound
          { opened := opened, waiting := waiting, phase := .operand } tokens
          { opened := opened, waiting := waiting, phase := .operator tree }) :
    Completes bound .primary tokens tree := by
  intro opened waiting _
  exact ⟨[], tree, leads opened waiting, by simp, rfl⟩

/-- An operator settles its left operand and lets the operation wait for the right one. -/
theorem operation
    {operator : BinaryOperator}
    {sign : Token}
    {leftTokens rightTokens : List Token}
    {left right : Expr}
    (signed : operator? sign = some operator)
    (leftCompletes : Completes bound (leftOperand operator) leftTokens left)
    (rightCompletes : Completes bound (rightOperand operator) rightTokens right) :
    Completes bound (formed operator) (leftTokens ++ sign :: rightTokens)
      (.operation operator left right) := by
  intro opened waiting stops
  have leftStops : Stops (leftOperand operator).pull waiting := by
    cases operator <;> exact stops
  have pulled : (leftOperand operator).pull = Parser.pull operator := by
    cases operator <;> rfl
  have tight : (leftOperand operator).loosest = Parser.pull operator := by
    cases operator <;> rfl
  obtain ⟨leftInner, leftValue, leftLeads, leftBindings, leftSettled⟩ :=
    leftCompletes opened waiting leftStops
  have settled :
      settle (Parser.pull operator) (leftInner ++ waiting) leftValue = (waiting, left) := by
    rw [← leftSettled]
    exact settle_append (tight ▸ leftBindings) (pulled ▸ leftStops) leftValue
  have rightStops :
      Stops (rightOperand operator).pull (.operation left operator :: waiting) := by
    intro front member
    obtain rfl : Waiting.operation left operator = front := by simpa using member
    change binding operator < (rightOperand operator).pull
    cases operator <;> decide
  obtain ⟨rightInner, rightValue, rightLeads, rightBindings, rightSettled⟩ :=
    rightCompletes opened _ rightStops
  refine ⟨rightInner ++ [.operation left operator], rightValue, ?_, ?_, ?_⟩
  · refine leftLeads.append (Leads.cons (fun position => ?_) (by simpa using rightLeads))
    cases sign <;> cases signed <;>
      simp [step, stepOperator, stepBinary, settled]
  · have looser : (formed operator).loosest ≤ (rightOperand operator).loosest := by
      cases operator <;> decide
    intro waitingLeft member
    rcases List.mem_append.mp member with inRight | isOperation
    · exact Nat.le_trans looser (rightBindings waitingLeft inRight)
    · obtain rfl : waitingLeft = .operation left operator := by simpa using isOperation
      change (formed operator).loosest ≤ binding operator
      cases operator <;> decide
  · rw [settleAll_append, rightSettled]
    rfl

/-- A prefixed minus waits for the operand behind it. -/
theorem negative
    (completes : Completes bound .unary tokens tree) :
    Completes bound .unary (.minus :: tokens) (.negation tree) := by
  intro opened waiting _
  have stops : Stops Category.unary.pull (.negation :: waiting) :=
    fun front _ => binding_lt_pull_pow front
  obtain ⟨inner, value, leads, bindings, settled⟩ :=
    completes opened (.negation :: waiting) stops
  refine ⟨inner ++ [.negation], value, ?_, ?_, ?_⟩
  · exact Leads.cons (fun position => rfl) (by simpa using leads)
  · intro left member
    rcases List.mem_append.mp member with inInner | isNegation
    · exact bindings left inInner
    · obtain rfl : left = .negation := by simpa using isNegation
      decide
  · rw [settleAll_append, settled]
    rfl

theorem positive
    (completes : Completes bound .unary tokens tree) :
    Completes bound .unary (.plus :: tokens) tree := by
  intro opened waiting stops
  obtain ⟨inner, value, leads, bindings, settled⟩ := completes opened waiting stops
  exact ⟨inner, value, Leads.cons (fun position => rfl) leads, bindings, settled⟩

/-- The tokens of a bracketed phrase end with its whole tree in front of the bracket. -/
theorem bracketed
    (completes : Completes bound .sum tokens tree)
    (opened : List Opened) :
    ∃ (inner : List Waiting) (value : Expr),
      Leads bound
        { opened := opened, waiting := [], phase := .operand } tokens
        { opened := opened, waiting := inner, phase := .operator value } ∧
      settleAll inner value = tree := by
  obtain ⟨inner, value, leads, _, settled⟩ :=
    completes opened [] (by simp [Stops])
  exact ⟨inner, value, by simpa using leads, settled⟩

theorem group
    (completes : Completes bound .sum tokens tree) :
    Completes bound .primary (.leftParenthesis :: tokens ++ [.rightParenthesis]) tree := by
  refine ofLeads (fun opened waiting => ?_)
  obtain ⟨inner, value, leads, settled⟩ :=
    completes.bracketed ({ bracket := .group, outside := waiting } :: opened)
  refine Leads.cons (fun position => rfl) (leads.append (Leads.ofStep (fun position => ?_)))
  simp [step, stepOperator, stepClose, settled]

theorem callOne
    {name : String}
    {callable : Callable}
    {function : UnaryFunction}
    (named : Meaning.named? name = some (.callable callable))
    (one : ofOneArgument? callable = some function)
    (tokensNe : tokens ≠ [])
    (completes : Completes bound .sum tokens tree) :
    Completes bound .primary
      (.identifier name :: .leftParenthesis :: tokens ++ [.rightParenthesis])
      (.call function tree) := by
  refine ofLeads (fun opened waiting => ?_)
  obtain ⟨inner, value, leads, settled⟩ :=
    completes.bracketed
      ({ bracket := .arguments callable [], outside := waiting } :: opened)
  have called : callable.call? [tree] = some (.call function tree) := by
    cases callable <;> cases one <;> rfl
  have argumentRead :
      Leads bound
        { opened := { bracket := .arguments callable [], outside := waiting } :: opened
          waiting := []
          phase := .firstArgument }
        (tokens ++ [.rightParenthesis])
        { opened := opened, waiting := waiting, phase := .operator (.call function tree) } := by
    refine (leads.firstArgument tokensNe).append (Leads.ofStep (fun position => ?_))
    simp [step, stepOperator, stepClose, closeCall, settled, called]
  exact Leads.ofCallable named argumentRead

theorem callTwo
    {name : String}
    {callable : Callable}
    {function : BinaryFunction}
    {laterTokens : List Token}
    {later : Expr}
    (named : Meaning.named? name = some (.callable callable))
    (two : ofTwoArguments? callable = some function)
    (tokensNe : tokens ≠ [])
    (completes : Completes bound .sum tokens tree)
    (laterCompletes : Completes bound .sum laterTokens later) :
    Completes bound .primary
      (.identifier name :: .leftParenthesis ::
        tokens ++ .comma :: laterTokens ++ [.rightParenthesis])
      (.callPair function tree later) := by
  refine ofLeads (fun opened waiting => ?_)
  obtain ⟨inner, value, leads, settled⟩ :=
    completes.bracketed
      ({ bracket := .arguments callable [], outside := waiting } :: opened)
  obtain ⟨laterInner, laterValue, laterLeads, laterSettled⟩ :=
    laterCompletes.bracketed
      ({ bracket := .arguments callable [tree], outside := waiting } :: opened)
  have called : callable.call? [tree, later] = some (.callPair function tree later) := by
    cases callable <;> cases two <;> rfl
  have argumentsRead :
      Leads bound
        { opened := { bracket := .arguments callable [], outside := waiting } :: opened
          waiting := []
          phase := .firstArgument }
        (tokens ++ .comma :: laterTokens ++ [.rightParenthesis])
        { opened := opened
          waiting := waiting
          phase := .operator (.callPair function tree later) } := by
    refine ((leads.firstArgument tokensNe).append
      (Leads.cons (fun position => ?_) laterLeads)).append
        (Leads.ofStep (fun position => ?_))
    · simp [step, stepOperator, stepComma, settled]
    · simp [step, stepOperator, stepClose, closeCall, laterSettled, called]
  exact Leads.ofCallable named argumentsRead

end Completes

/-- The machine completes every phrase of the grammar. -/
theorem completes_of_derives
    {bound : List Coordinate}
    {category : Category}
    {tokens : List Token}
    {tree : Expr}
    (derived : Derives bound category tokens tree) :
    Completes bound category tokens tree := by
  induction derived with
  | sumOfProduct _ inductionHypothesis =>
      exact inductionHypothesis.widen (by decide) (by decide)
  | productOfUnary _ inductionHypothesis =>
      exact inductionHypothesis.widen (by decide) (by decide)
  | unaryOfPower _ inductionHypothesis =>
      exact inductionHypothesis.widen (by decide) (by decide)
  | powerOfPrimary _ inductionHypothesis =>
      exact inductionHypothesis.widen (by decide) (by decide)
  | operation signed _ _ leftHypothesis rightHypothesis =>
      exact leftHypothesis.operation signed rightHypothesis
  | negative _ inductionHypothesis => exact inductionHypothesis.negative
  | positive _ inductionHypothesis => exact inductionHypothesis.positive
  | number value =>
      exact .ofLeads (fun opened waiting => .ofStep (fun position => rfl))
  | coordinate named member =>
      refine .ofLeads (fun opened waiting => .ofStep (fun position => ?_))
      simp [step, stepOperand, stepName, named, member]
  | constant named =>
      refine .ofLeads (fun opened waiting => .ofStep (fun position => ?_))
      simp [step, stepOperand, stepName, named]
  | group _ inductionHypothesis => exact inductionHypothesis.group
  | callOne named one derived inductionHypothesis =>
      exact inductionHypothesis.callOne named one derived.tokens_ne_nil
  | callTwo named two firstDerived _ firstHypothesis secondHypothesis =>
      exact firstHypothesis.callTwo named two firstDerived.tokens_ne_nil secondHypothesis

/-- The parser accepts every sentence of the grammar. -/
theorem parse_of_derives
    {bound : List Coordinate}
    {tokens : List PlacedToken}
    {tree : Expr}
    (derived : Derives bound .sum (tokens.map PlacedToken.token) tree) :
    parse bound tokens = .ok tree := by
  obtain ⟨inner, value, leads, settled⟩ :=
    (completes_of_derives derived).bracketed []
  have tokensNe : tokens ≠ [] := by
    rintro rfl
    exact derived.tokens_ne_nil rfl
  have reached : run bound State.start tokens =
      .ok { opened := [], waiting := inner, phase := .operator value } :=
    leads tokens rfl
  simp [parse, tokensNe, reached, finish, settled]

end Electrostatics.Grammar
