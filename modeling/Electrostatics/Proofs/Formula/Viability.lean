import Electrostatics.Proofs.Formula.Reconstruction

namespace Electrostatics.Grammar

open Electrostatics.Parser

/-!
# Beginnings of sentences

How many arguments a callable takes is no matter of syntax: it is looked at only when a
call is closed.  Sentences are therefore taken here from the grammar in which a call may
have any number of arguments, and tokens are viable when some tokens behind them make a
sentence.  Whatever the machine has accepted so far is viable: each open phrase can be
finished with one number and its closing bracket.
-/

/-- The tokens of a phrase whose calls may have any number of arguments. -/
inductive Phrase (bound : List Coordinate) : Category → List Token → Prop where
  | sumOfProduct
      {tokens : List Token} :
      Phrase bound .product tokens →
      Phrase bound .sum tokens
  | productOfUnary
      {tokens : List Token} :
      Phrase bound .unary tokens →
      Phrase bound .product tokens
  | unaryOfPower
      {tokens : List Token} :
      Phrase bound .power tokens →
      Phrase bound .unary tokens
  | powerOfPrimary
      {tokens : List Token} :
      Phrase bound .primary tokens →
      Phrase bound .power tokens
  | operation
      {operator : BinaryOperator}
      {sign : Token}
      {leftTokens rightTokens : List Token} :
      operator? sign = some operator →
      Phrase bound (leftOperand operator) leftTokens →
      Phrase bound (rightOperand operator) rightTokens →
      Phrase bound (formed operator) (leftTokens ++ sign :: rightTokens)
  | signed
      {sign : Token}
      {tokens : List Token} :
      sign = .minus ∨ sign = .plus →
      Phrase bound .unary tokens →
      Phrase bound .unary (sign :: tokens)
  | number (value : Decimal) : Phrase bound .primary [.number value]
  | coordinate
      {name : String}
      {coordinate : Coordinate} :
      Meaning.named? name = some (.coordinate coordinate) →
      coordinate ∈ bound →
      Phrase bound .primary [.identifier name]
  | constant
      {name : String}
      {constant : Constant} :
      Meaning.named? name = some (.constant constant) →
      Phrase bound .primary [.identifier name]
  | group
      {tokens : List Token} :
      Phrase bound .sum tokens →
      Phrase bound .primary (.leftParenthesis :: tokens ++ [.rightParenthesis])
  | call
      {name : String}
      {callable : Callable}
      {arguments : List (List Token)} :
      Meaning.named? name = some (.callable callable) →
      (∀ argument ∈ arguments, Phrase bound .sum argument) →
      Phrase bound .primary
        (.identifier name :: .leftParenthesis ::
          List.intercalate [.comma] arguments ++ [.rightParenthesis])

/-- Tokens that make a whole formula, but for the number of arguments of its calls. -/
def Sentence (bound : List Coordinate) (tokens : List Token) : Prop :=
  Phrase bound .sum tokens

/-- Tokens with which a sentence begins. -/
def Viable (bound : List Coordinate) (tokens : List Token) : Prop :=
  ∃ rest, Sentence bound (tokens ++ rest)

variable
  {bound : List Coordinate}
  {category : Category}
  {waiting : List Waiting}
  {opened : List Opened}
  {tokens rest : List Token}

/-- What begins viable tokens is viable. -/
theorem Viable.of_append
    (viable : Viable bound (tokens ++ rest)) :
    Viable bound tokens := by
  obtain ⟨behind, sentence⟩ := viable
  exact ⟨rest ++ behind, by simpa using sentence⟩

theorem Phrase.toSum
    (phrase : Phrase bound .primary tokens) :
    Phrase bound .sum tokens :=
  .sumOfProduct (.productOfUnary (.unaryOfPower (.powerOfPrimary phrase)))

/-- The phrases of the grammar are those whose calls have as many arguments as they should. -/
theorem Derives.phrase
    {tree : Expr}
    (derived : Derives bound category tokens tree) :
    Phrase bound category tokens := by
  induction derived with
  | sumOfProduct _ inductionHypothesis => exact .sumOfProduct inductionHypothesis
  | productOfUnary _ inductionHypothesis => exact .productOfUnary inductionHypothesis
  | unaryOfPower _ inductionHypothesis => exact .unaryOfPower inductionHypothesis
  | powerOfPrimary _ inductionHypothesis => exact .powerOfPrimary inductionHypothesis
  | operation signed _ _ leftHypothesis rightHypothesis =>
      exact .operation signed leftHypothesis rightHypothesis
  | negative _ inductionHypothesis => exact .signed (.inl rfl) inductionHypothesis
  | positive _ inductionHypothesis => exact .signed (.inr rfl) inductionHypothesis
  | number value => exact .number value
  | coordinate named member => exact .coordinate named member
  | constant named => exact .constant named
  | group _ inductionHypothesis => exact .group inductionHypothesis
  | @callOne _ _ _ tokens _ named _ _ inductionHypothesis =>
      have only : ∀ argument ∈ [tokens], Phrase bound .sum argument := by
        simpa using inductionHypothesis
      simpa [List.intercalate_singleton] using Phrase.call named only
  | @callTwo _ _ _ first second _ _ named _ _ _ firstHypothesis secondHypothesis =>
      have both : ∀ argument ∈ [first, second], Phrase bound .sum argument := by
        simpa using ⟨firstHypothesis, secondHypothesis⟩
      simpa [List.intercalate_cons_cons, List.intercalate_singleton] using
        Phrase.call named both

/-- A phrase where one is to come makes a sum of all that stands in its bracket. -/
theorem Context.fill
    (context : Context bound waiting category tokens)
    (phrase : Phrase bound category rest) :
    Phrase bound .sum (tokens ++ rest) := by
  induction context generalizing rest with
  | start => exact phrase
  | productOfSum _ inductionHypothesis => exact inductionHypothesis phrase.sumOfProduct
  | unaryOfProduct _ inductionHypothesis => exact inductionHypothesis phrase.productOfUnary
  | powerOfUnary _ inductionHypothesis => exact inductionHypothesis phrase.unaryOfPower
  | primaryOfPower _ inductionHypothesis => exact inductionHypothesis phrase.powerOfPrimary
  | negative _ inductionHypothesis =>
      simpa using inductionHypothesis (.signed (.inl rfl) phrase)
  | positive _ inductionHypothesis =>
      simpa using inductionHypothesis (.signed (.inr rfl) phrase)
  | operation signed _ left inductionHypothesis =>
      simpa using inductionHypothesis (.operation signed left.phrase phrase)

theorem intercalate_concat
    (separator last : List Token)
    (front : List (List Token)) :
    List.intercalate separator (front ++ [last]) =
      front.flatMap (fun tokens => tokens ++ separator) ++ last := by
  induction front with
  | nil => simp [List.intercalate_singleton]
  | cons first others inductionHypothesis =>
      cases others with
      | nil => simp [List.intercalate_cons_cons, List.intercalate_singleton]
      | cons second more =>
          simp only [List.cons_append] at inductionHypothesis
          simp [List.intercalate_cons_cons, inductionHypothesis]

/-- A call is finished by one more argument and the closing bracket. -/
theorem Given.call
    {given : List Expr}
    {name : String}
    {callable : Callable}
    (before : Given bound given tokens)
    (named : Meaning.named? name = some (.callable callable))
    (phrase : Phrase bound .sum rest) :
    Phrase bound .primary
      (.identifier name :: .leftParenthesis :: (tokens ++ rest) ++ [.rightParenthesis]) := by
  obtain ⟨spelled, derivations, rfl⟩ := before
  have bothKnown :=
    derivations.imp (fun _ _ derived => And.intro derived.phrase derived)
  have givenPhrases := ((List.forall₂_and_left spelled given).mp bothKnown).1
  have phrases : ∀ argument ∈ spelled ++ [rest], Phrase bound .sum argument := by
    intro argument member
    rcases List.mem_append.mp member with isGiven | isLast
    · exact givenPhrases argument isGiven
    · obtain rfl := List.mem_singleton.mp isLast
      exact phrase
  rw [← intercalate_concat]
  exact .call named phrases

/-- A sum inside the open brackets can be completed to a sentence. -/
theorem Enclosed.viable
    (enclosed : Enclosed bound opened tokens)
    (phrase : Phrase bound .sum rest) :
    Viable bound (tokens ++ rest) := by
  induction enclosed generalizing rest with
  | outermost => exact ⟨[], by simpa [Sentence] using phrase⟩
  | @group _ _ tokens inner _ context inductionHypothesis =>
      have closed :
          Viable bound
            (tokens ++ inner ++ [.leftParenthesis] ++ rest ++ [.rightParenthesis]) := by
        simpa using inductionHypothesis (context.fill (.group phrase))
      exact closed.of_append
  | @arguments _ _ name _ _ tokens inner spelled _ context named given
      inductionHypothesis =>
      have closed :
          Viable bound
            (tokens ++ inner ++ .identifier name :: .leftParenthesis :: spelled ++ rest ++
              [.rightParenthesis]) := by
        simpa using inductionHypothesis (context.fill (given.call named phrase))
      exact closed.of_append

/-- The tokens of every state that the machine reaches are viable. -/
theorem Reached.viable
    {state : State}
    (reached : Reached bound state tokens) :
    Viable bound tokens := by
  -- Any operand will do to finish what was begun.
  have operand : Phrase bound .primary [.number ⟨0, 0⟩] := .number _
  cases reached with
  | operand enclosed context =>
      have completed := enclosed.viable (context.fill operand)
      rw [← List.append_assoc] at completed
      exact completed.of_append
  | firstArgument enclosed => exact (enclosed.viable (operand.toSum)).of_append
  | argumentList enclosed context named =>
      have noArguments : Given bound [] [] := ⟨[], .nil, rfl⟩
      have called := noArguments.call named (operand.toSum)
      have completed := enclosed.viable (context.fill called)
      exact Viable.of_append (by simpa using completed)
  | operator enclosed context derived =>
      simpa using enclosed.viable (context.fill derived.phrase)

end Electrostatics.Grammar
