import Electrostatics.Proofs.Formula.Acceptance

namespace Electrostatics.Grammar

open Electrostatics.Parser

/-!
# What stands in front of a phrase

Inside one bracket the tokens read so far end where some phrase is to come.  Each
waiting operation of the machine is there a sign of the grammar whose right operand is
that phrase or lies around it.  When the phrase is finished, the looser phrases around
it are finished one after the other, and these are the operations that an operator
carries out.
-/

variable {bound : List Coordinate}

/--
The tokens in front of a phrase that is still to come, inside one bracket, and the
operations that wait there for it.
-/
inductive Context (bound : List Coordinate) :
    List Waiting → Category → List Token → Prop where
  | start : Context bound [] .sum []
  | productOfSum
      {waiting : List Waiting}
      {tokens : List Token} :
      Context bound waiting .sum tokens →
      Context bound waiting .product tokens
  | unaryOfProduct
      {waiting : List Waiting}
      {tokens : List Token} :
      Context bound waiting .product tokens →
      Context bound waiting .unary tokens
  | powerOfUnary
      {waiting : List Waiting}
      {tokens : List Token} :
      Context bound waiting .unary tokens →
      Context bound waiting .power tokens
  | primaryOfPower
      {waiting : List Waiting}
      {tokens : List Token} :
      Context bound waiting .power tokens →
      Context bound waiting .primary tokens
  | negative
      {waiting : List Waiting}
      {tokens : List Token} :
      Context bound waiting .unary tokens →
      Context bound (.negation :: waiting) .unary (tokens ++ [.minus])
  | positive
      {waiting : List Waiting}
      {tokens : List Token} :
      Context bound waiting .unary tokens →
      Context bound waiting .unary (tokens ++ [.plus])
  | operation
      {operator : BinaryOperator}
      {sign : Token}
      {waiting : List Waiting}
      {tokens leftTokens : List Token}
      {left : Expr} :
      operator? sign = some operator →
      Context bound waiting (formed operator) tokens →
      Derives bound (leftOperand operator) leftTokens left →
      Context bound (.operation left operator :: waiting) (rightOperand operator)
        (tokens ++ leftTokens ++ [sign])

/-- A phrase around the right operand of an operator encloses the operation and pulls it. -/
theorem operation_pulled
    {goal : Category}
    {operator : BinaryOperator}
    (loose : goal.rank < (rightOperand operator).rank) :
    goal.rank ≤ (formed operator).rank ∧ goal.pull ≤ binding operator := by
  revert loose
  cases goal <;> cases operator <;> decide

namespace Context

variable
  {category : Category}
  {waiting : List Waiting}
  {tokens : List Token}

theorem toPrimary
    (context : Context bound waiting category tokens) :
    Context bound waiting .primary tokens := by
  cases category with
  | sum =>
      exact context.productOfSum.unaryOfProduct.powerOfUnary.primaryOfPower
  | product => exact context.unaryOfProduct.powerOfUnary.primaryOfPower
  | unary => exact context.powerOfUnary.primaryOfPower
  | power => exact context.primaryOfPower
  | primary => exact context

theorem toPower
    (context : Context bound waiting .primary tokens) :
    Context bound waiting .power tokens := by
  generalize same : Category.primary = category at context
  cases context with
  | primaryOfPower power => exact power
  | @operation operator => cases operator <;> cases same
  | _ => cases same

theorem toUnary
    (context : Context bound waiting .primary tokens) :
    Context bound waiting .unary tokens := by
  have power := context.toPower
  generalize same : Category.power = category at power
  cases power with
  | powerOfUnary unary => exact unary
  | @operation operator => cases operator <;> cases same
  | _ => cases same

/-- Only the start of a bracket is a place for a whole sum. -/
theorem eq_nil_of_sum
    (context : Context bound waiting .sum tokens) :
    tokens = [] := by
  generalize same : Category.sum = category at context
  cases context with
  | start => rfl
  | @operation operator => cases operator <;> cases same
  | _ => cases same

/-- The operators inside a phrase carry out nothing that waits in front of it. -/
theorem stops
    (context : Context bound waiting category tokens) :
    Stops category.pull waiting := by
  induction context with
  | start => simp [Stops]
  | productOfSum _ inductionHypothesis =>
      exact fun front member => Nat.lt_succ_of_lt (inductionHypothesis front member)
  | @operation operator _ _ _ _ left =>
      intro front member
      obtain rfl : Waiting.operation left operator = front := by simpa using member
      change binding operator < (rightOperand operator).pull
      cases operator <;> decide
  | _ => exact fun front _ => binding_lt_pull_pow front

/--
Tokens in front of a finished phrase and those of the phrase can be cut so that a looser
phrase begins at the cut, with the operations carried out that it pulls.
-/
def Climbs
    (bound : List Coordinate)
    (goal : Category)
    (waiting : List Waiting)
    (tokens phraseTokens : List Token)
    (value : Expr) : Prop :=
  ∃ front behind,
    tokens ++ phraseTokens = front ++ behind ∧
    Context bound (settle goal.pull waiting value).1 goal front ∧
    Derives bound goal behind (settle goal.pull waiting value).2

/-- A phrase that has the looser category itself is cut off where it begins. -/
theorem climbs_of_above
    {goal : Category}
    {phraseTokens : List Token}
    {value : Expr}
    (context : Context bound waiting category tokens)
    (derived : Derives bound category phraseTokens value)
    (wide : goal.rank ≤ category.rank)
    (above :
      goal.rank < category.rank → Climbs bound goal waiting tokens phraseTokens value) :
    Climbs bound goal waiting tokens phraseTokens value := by
  rcases Nat.lt_or_eq_of_le wide with loose | same
  · exact above loose
  · obtain rfl : goal = category := by
      revert same
      cases goal <;> cases category <;> decide
    refine ⟨tokens, phraseTokens, rfl, ?_, ?_⟩
    · rw [settle_of_stops context.stops]
      exact context
    · rw [settle_of_stops context.stops]
      exact derived

/--
A finished phrase is part of every looser phrase around it.  The operations between the
two are just those that the looser phrase pulls, so carrying them out finishes it.
-/
theorem climb
    (goal : Category)
    {phraseTokens : List Token}
    {value : Expr}
    (context : Context bound waiting category tokens)
    (derived : Derives bound category phraseTokens value)
    (wide : goal.rank ≤ category.rank) :
    Climbs bound goal waiting tokens phraseTokens value := by
  induction context generalizing phraseTokens value with
  | start =>
      refine climbs_of_above .start derived wide (fun loose => absurd loose ?_)
      cases goal <;> decide
  | productOfSum context inductionHypothesis =>
      exact climbs_of_above context.productOfSum derived wide
        (fun loose =>
          inductionHypothesis derived.sumOfProduct (Nat.le_of_lt_succ loose))
  | unaryOfProduct context inductionHypothesis =>
      exact climbs_of_above context.unaryOfProduct derived wide
        (fun loose =>
          inductionHypothesis derived.productOfUnary (Nat.le_of_lt_succ loose))
  | powerOfUnary context inductionHypothesis =>
      exact climbs_of_above context.powerOfUnary derived wide
        (fun loose =>
          inductionHypothesis derived.unaryOfPower (Nat.le_of_lt_succ loose))
  | primaryOfPower context inductionHypothesis =>
      exact climbs_of_above context.primaryOfPower derived wide
        (fun loose =>
          inductionHypothesis derived.powerOfPrimary (Nat.le_of_lt_succ loose))
  | @negative waiting tokens context inductionHypothesis =>
      refine climbs_of_above context.negative derived wide (fun loose => ?_)
      have pulled : goal.pull ≤ Waiting.negation.binding := by
        revert loose
        cases goal <;> decide
      obtain ⟨front, behind, cut, around, finished⟩ :=
        inductionHypothesis derived.negative wide
      refine ⟨front, behind, by simpa using cut, ?_⟩
      simp only [settle, pulled, ↓reduceIte]
      exact ⟨around, finished⟩
  | positive context inductionHypothesis =>
      refine climbs_of_above context.positive derived wide (fun _ => ?_)
      obtain ⟨front, behind, cut, around, finished⟩ :=
        inductionHypothesis derived.positive wide
      exact ⟨front, behind, by simpa using cut, around, finished⟩
  | @operation operator sign _ _ _ left signed context leftDerived inductionHypothesis =>
      refine climbs_of_above (context.operation signed leftDerived) derived wide
        (fun loose => ?_)
      obtain ⟨enclosed, pulled⟩ := operation_pulled loose
      have pulledWaiting : goal.pull ≤ (Waiting.operation left operator).binding := pulled
      obtain ⟨front, behind, cut, around, finished⟩ :=
        inductionHypothesis (.operation signed leftDerived derived) enclosed
      refine ⟨front, behind, by simpa using cut, ?_⟩
      simp only [settle, pulledWaiting, ↓reduceIte]
      exact ⟨around, finished⟩

/-- Behind an operator its right operand is to come, with what it pulled carried out. -/
theorem operand
    {operator : BinaryOperator}
    {sign : Token}
    {phraseTokens : List Token}
    {value : Expr}
    (signed : operator? sign = some operator)
    (context : Context bound waiting .primary tokens)
    (derived : Derives bound .primary phraseTokens value) :
    Context bound
      (.operation (settle (Parser.pull operator) waiting value).2 operator ::
        (settle (Parser.pull operator) waiting value).1)
      (rightOperand operator) (tokens ++ phraseTokens ++ [sign]) := by
  have leftOperandRead :
      ∃ front behind,
        tokens ++ phraseTokens = front ++ behind ∧
        Context bound (settle (Parser.pull operator) waiting value).1
          (formed operator) front ∧
        Derives bound (leftOperand operator) behind
          (settle (Parser.pull operator) waiting value).2 := by
    cases operator with
    | add => exact context.climb .sum derived (by decide)
    | sub => exact context.climb .sum derived (by decide)
    | mul => exact context.climb .product derived (by decide)
    | div => exact context.climb .product derived (by decide)
    | pow =>
        have stays : settle (Parser.pull .pow) waiting value = (waiting, value) :=
          settle_of_stops context.stops value
        rw [stays]
        exact ⟨tokens, phraseTokens, rfl, context.toPower, derived⟩
  obtain ⟨front, behind, cut, around, left⟩ := leftOperandRead
  rw [cut]
  exact .operation signed around left

/-- At the end of a bracket everything in it is one sum. -/
theorem whole
    {phraseTokens : List Token}
    {value : Expr}
    (context : Context bound waiting .primary tokens)
    (derived : Derives bound .primary phraseTokens value) :
    Derives bound .sum (tokens ++ phraseTokens) (settleAll waiting value) := by
  obtain ⟨front, behind, cut, around, sum⟩ :=
    context.climb .sum derived (by decide)
  obtain rfl := around.eq_nil_of_sum
  have tight : ∀ left ∈ waiting, Category.sum.pull ≤ left.binding :=
    fun left _ => binding_pos left
  have stopsAtEnd : Stops Category.sum.pull [] := by simp [Stops]
  have everything : settle Category.sum.pull waiting value = ([], settleAll waiting value) := by
    simpa only [List.append_nil] using settle_append tight stopsAtEnd value
  rw [everything] at sum
  rw [cut]
  exact sum

end Context

end Electrostatics.Grammar
