import Electrostatics.Formula.Compiled
import Electrostatics.Proofs.Formula.Sentences
import Electrostatics.Proofs.Formula.Spelling

namespace Electrostatics.Formula

open Electrostatics.Grammar
open Electrostatics.Token

/-!
# Formulas inside formulas

A formula can be put in brackets and used as an operand or as an argument of another
one.  Its tokens stay what they were, the product signs understood inside it too, and
the bracket behind it ends exactly the phrase that it was.
-/

/-- A text that is read as a tree where only some coordinates are bound. -/
def CompilesTo (bound : List Coordinate) (source : String) (tree : Expr) : Prop :=
  compile bound source = .ok { source := source, tree := tree, lastError := none }

/--
The signs that may stand between two groups, with the operations they stand for.  Where
no sign is written a product is understood.
-/
def infixSigns : List (String × BinaryOperator) :=
  [("", .mul), ("*", .mul), ("/", .div), ("+", .add), ("-", .sub), ("^", .pow),
    ("**", .pow)]

variable
  {bound : List Coordinate}
  {source : String}
  {text behind : List Char}
  {tokens tokensBehind : List Token}
  {tree : Expr}

/-- A text that is read is the spelling of a sentence. -/
theorem exists_spells_of_compile
    {formula : Formula}
    (compiled : compile bound source = .ok formula) :
    ∃ tokens,
      Spells source.toList tokens ∧
      Derives bound .sum (writtenOut tokens) formula.tree := by
  obtain ⟨written, tokenized, derived, _⟩ := compile_eq_ok_iff.mp compiled
  unfold tokenize at tokenized
  cases scanned : scan source.toList with
  | error stray => simp [scanned, Except.map] at tokenized
  | ok placed =>
      obtain rfl : insertProducts placed = written := by
        simpa [scanned, Except.map] using tokenized
      refine ⟨placed.map PlacedToken.token, ?_, ?_⟩
      · exact exists_scan_iff_spells.mp ⟨placed, scanned, rfl⟩
      · rw [← map_insertProducts]
        exact derived

/-- The spelling of a sentence is read as its tree. -/
theorem compilesTo_of_spells
    (spelled : Spells source.toList tokens)
    (derived : Derives bound .sum (writtenOut tokens) tree) :
    CompilesTo bound source tree := by
  obtain ⟨placed, scanned, rfl⟩ := exists_scan_iff_spells.mpr spelled
  rw [← map_insertProducts] at derived
  have tokenized : tokenize source = .ok (insertProducts placed) := by
    simp [tokenize, scanned, Except.map]
  exact compile_eq_ok_iff.mpr ⟨_, tokenized, derived, rfl, rfl⟩

/-- A group is spelled as its contents between brackets. -/
theorem spells_group
    (spelled : Spells text tokens)
    (spelledBehind : Spells behind tokensBehind) :
    Spells ('(' :: text ++ ')' :: behind)
      (.leftParenthesis :: tokens ++ .rightParenthesis :: tokensBehind) := by
  have closed := spelledBehind.symbol ')' rfl rfl
  exact (spelled.append_closer (.inl rfl) closed).symbol '(' rfl rfl

theorem writtenOut_group (tokens tokensBehind : List Token) :
    writtenOut (.leftParenthesis :: tokens ++ .rightParenthesis :: tokensBehind) =
      .leftParenthesis :: writtenOut tokens ++
        writtenOut (.rightParenthesis :: tokensBehind) := by
  have opened : ∀ next, impliesProduct .leftParenthesis next = false := fun _ => rfl
  have closed : ∀ last, impliesProduct last .rightParenthesis = false := by
    intro last
    cases last <;> rfl
  rw [List.cons_append, writtenOut_cons opened, writtenOut_append closed]
  rfl

/-- Every sign between two groups is read as its operator. -/
theorem infix_reads
    {sign : String}
    {operator : BinaryOperator}
    (isInfix : (sign, operator) ∈ infixSigns)
    (spelled : Spells ('(' :: text) (.leftParenthesis :: tokens)) :
    ∃ token signTokens,
      operator? token = some operator ∧
      Spells (sign.toList ++ '(' :: text) (signTokens ++ .leftParenthesis :: tokens) ∧
      writtenOut (.rightParenthesis :: signTokens ++ .leftParenthesis :: tokens) =
        .rightParenthesis :: token :: writtenOut (.leftParenthesis :: tokens) := by
  simp only [infixSigns, List.mem_cons, Prod.mk.injEq, List.not_mem_nil, or_false] at isInfix
  rcases isInfix with
      ⟨rfl, rfl⟩ | ⟨rfl, rfl⟩ | ⟨rfl, rfl⟩ | ⟨rfl, rfl⟩ | ⟨rfl, rfl⟩ | ⟨rfl, rfl⟩ | ⟨rfl, rfl⟩
  · exact ⟨.star, [], rfl, spelled, rfl⟩
  · exact ⟨.star, [.star], rfl, spelled.symbol '*' rfl rfl, rfl⟩
  · exact ⟨.slash, [.slash], rfl, spelled.symbol '/' rfl rfl, rfl⟩
  · exact ⟨.plus, [.plus], rfl, spelled.symbol '+' rfl rfl, rfl⟩
  · exact ⟨.minus, [.minus], rfl, spelled.symbol '-' rfl rfl, rfl⟩
  · exact ⟨.caret, [.caret], rfl, spelled.symbol '^' rfl rfl, rfl⟩
  · have longest : IsLongest (['*', '*'] ++ '(' :: text) ['*', '*'] .doubleStar :=
      isLongest_of_isLexeme .doubleStar rfl
    exact ⟨.doubleStar, [.doubleStar], rfl, spelled.lexeme longest, rfl⟩

/-- A function of one argument is called by a name that nothing else has. -/
theorem named?_of_unaryFunction
    {name : String}
    {function : UnaryFunction}
    (named : UnaryFunction.named? name = some function) :
    Meaning.named? name = some (.callable (.unary function)) ∧
      isName name.toList = true := by
  have known :
      ∀ function ∈ UnaryFunction.all,
        Meaning.named? function.name = some (.callable (.unary function)) ∧
          isName function.name.toList = true := by
    decide
  unfold UnaryFunction.named? at named
  split at named
  case isTrue isLogarithm =>
    obtain rfl := Option.some.inj named
    subst isLogarithm
    decide
  case isFalse =>
    split at named
    case isTrue isStep =>
      obtain rfl := Option.some.inj named
      subst isStep
      decide
    case isFalse =>
      have sameName := List.find?_some named
      have member := List.mem_of_find?_eq_some named
      rw [beq_iff_eq] at sameName
      subst sameName
      exact known function member

variable
  {first second : String}
  {firstFormula secondFormula : Formula}

theorem compilesTo_group
    (compiled : compile bound first = .ok firstFormula) :
    CompilesTo bound ("(" ++ first ++ ")") firstFormula.tree := by
  obtain ⟨tokens, spelled, derived⟩ := exists_spells_of_compile compiled
  have enclosed :
      Spells ("(" ++ first ++ ")").toList
        (.leftParenthesis :: tokens ++ [.rightParenthesis]) := by
    simpa using spells_group spelled .nil
  refine compilesTo_of_spells enclosed ?_
  rw [writtenOut_group]
  exact derived.group.toSum

theorem compilesTo_infix
    (firstCompiled : compile bound first = .ok firstFormula)
    (secondCompiled : compile bound second = .ok secondFormula)
    {sign : String}
    {operator : BinaryOperator}
    (isInfix : (sign, operator) ∈ infixSigns) :
    CompilesTo bound ("(" ++ first ++ ")" ++ sign ++ "(" ++ second ++ ")")
      (.operation operator firstFormula.tree secondFormula.tree) := by
  obtain ⟨firstTokens, firstSpelled, firstDerived⟩ :=
    exists_spells_of_compile firstCompiled
  obtain ⟨secondTokens, secondSpelled, secondDerived⟩ :=
    exists_spells_of_compile secondCompiled
  have secondGroup :
      Spells ('(' :: (second.toList ++ [')']))
        (.leftParenthesis :: (secondTokens ++ [.rightParenthesis])) := by
    simpa using spells_group secondSpelled .nil
  obtain ⟨token, signTokens, isOperator, signSpelled, signWritten⟩ :=
    infix_reads isInfix secondGroup
  have spelled :
      Spells ("(" ++ first ++ ")" ++ sign ++ "(" ++ second ++ ")").toList
        (.leftParenthesis :: firstTokens ++ .rightParenthesis ::
          (signTokens ++
            .leftParenthesis :: (secondTokens ++ [.rightParenthesis]))) := by
    simpa using spells_group firstSpelled signSpelled
  have left := firstDerived.group.ofPrimary (leftOperand operator)
  have right := secondDerived.group.ofPrimary (rightOperand operator)
  have joined := (Derives.operation isOperator left right).toSum
  refine compilesTo_of_spells spelled ?_
  have secondWritten := writtenOut_group secondTokens []
  rw [List.cons_append] at signWritten secondWritten
  rw [writtenOut_group, signWritten, secondWritten]
  simpa [writtenOut] using joined

theorem compilesTo_negation
    (compiled : compile bound first = .ok firstFormula) :
    CompilesTo bound ("-(" ++ first ++ ")") (.negation firstFormula.tree) := by
  obtain ⟨tokens, spelled, derived⟩ := exists_spells_of_compile compiled
  have negated :
      Spells ("-(" ++ first ++ ")").toList
        (.minus :: (.leftParenthesis :: tokens ++ [.rightParenthesis])) := by
    simpa using (spells_group spelled .nil).symbol '-' rfl rfl
  have never : ∀ next, impliesProduct .minus next = false := fun _ => rfl
  refine compilesTo_of_spells negated ?_
  rw [writtenOut_cons never, writtenOut_group]
  exact (Derives.negative (derived.group.ofPrimary .unary)).toSum

theorem compilesTo_call
    (compiled : compile bound first = .ok firstFormula)
    {name : String}
    {callable : Callable}
    {function : UnaryFunction}
    (named : Meaning.named? name = some (.callable callable))
    (areName : isName name.toList = true)
    (ofOne : ofOneArgument? callable = some function) :
    CompilesTo bound (name ++ "(" ++ first ++ ")") (.call function firstFormula.tree) := by
  obtain ⟨tokens, spelled, derived⟩ := exists_spells_of_compile compiled
  have called :
      Spells (name ++ "(" ++ first ++ ")").toList
        (.identifier name :: (.leftParenthesis :: tokens ++ [.rightParenthesis])) := by
    simpa using Spells.name areName (spells_group spelled .nil)
  have never : ∀ next, impliesProduct (.identifier name) next = false := fun _ => rfl
  refine compilesTo_of_spells called ?_
  rw [writtenOut_cons never, writtenOut_group]
  exact (Derives.callOne named ofOne derived).toSum

theorem compilesTo_callPair
    (firstCompiled : compile bound first = .ok firstFormula)
    (secondCompiled : compile bound second = .ok secondFormula)
    {name : String}
    {callable : Callable}
    {function : BinaryFunction}
    (named : Meaning.named? name = some (.callable callable))
    (areName : isName name.toList = true)
    (ofTwo : ofTwoArguments? callable = some function) :
    CompilesTo bound (name ++ "(" ++ first ++ "," ++ second ++ ")")
      (.callPair function firstFormula.tree secondFormula.tree) := by
  obtain ⟨firstTokens, firstSpelled, firstDerived⟩ :=
    exists_spells_of_compile firstCompiled
  obtain ⟨secondTokens, secondSpelled, secondDerived⟩ :=
    exists_spells_of_compile secondCompiled
  have inside :
      Spells (first.toList ++ ',' :: second.toList)
        (firstTokens ++ .comma :: secondTokens) := by
    have separated : Spells (',' :: second.toList) (.comma :: secondTokens) :=
      secondSpelled.symbol ',' rfl rfl
    exact firstSpelled.append_closer (.inr rfl) separated
  have called :
      Spells (name ++ "(" ++ first ++ "," ++ second ++ ")").toList
        (.identifier name ::
          (.leftParenthesis :: (firstTokens ++ .comma :: secondTokens) ++
            [.rightParenthesis])) := by
    simpa using Spells.name areName (spells_group inside .nil)
  have neverBehindName : ∀ next, impliesProduct (.identifier name) next = false :=
    fun _ => rfl
  have neverBehindComma : ∀ next, impliesProduct .comma next = false := fun _ => rfl
  have neverBeforeComma : ∀ last, impliesProduct last .comma = false := by
    intro last
    cases last <;> rfl
  refine compilesTo_of_spells called ?_
  rw [writtenOut_cons neverBehindName, writtenOut_group,
    writtenOut_append neverBeforeComma, writtenOut_cons neverBehindComma]
  exact (Derives.callTwo named ofTwo firstDerived secondDerived).toSum

/--
Formulas compose.  Whatever two texts are read as, their text in brackets is read as the
same tree, two groups as the operation of the sign between them, a negated group as the
negation, and a group behind the name of a function as its call.
-/
theorem formulas_compose
    (firstCompiled : compile bound first = .ok firstFormula)
    (secondCompiled : compile bound second = .ok secondFormula) :
    CompilesTo bound ("(" ++ first ++ ")") firstFormula.tree ∧
    (∀ sign operator,
      (sign, operator) ∈ infixSigns →
      CompilesTo bound ("(" ++ first ++ ")" ++ sign ++ "(" ++ second ++ ")")
        (.operation operator firstFormula.tree secondFormula.tree)) ∧
    CompilesTo bound ("-(" ++ first ++ ")") (.negation firstFormula.tree) ∧
    (∀ name function,
      UnaryFunction.named? name = some function →
      CompilesTo bound (name ++ "(" ++ first ++ ")")
        (.call function firstFormula.tree)) ∧
    CompilesTo bound ("sign(" ++ first ++ ")") (.call .sgn firstFormula.tree) ∧
    CompilesTo bound ("atan2(" ++ first ++ "," ++ second ++ ")")
      (.callPair .atan2 firstFormula.tree secondFormula.tree) ∧
    CompilesTo bound ("sign(" ++ first ++ "," ++ second ++ ")")
      (.callPair .sign firstFormula.tree secondFormula.tree) := by
  have signNamed : Meaning.named? "sign" = some (.callable .sign) := by decide
  have atan2Named : Meaning.named? "atan2" = some (.callable .atan2) := by decide
  have signOpened : "sign(" = "sign" ++ "(" := by rfl
  have atan2Opened : "atan2(" = "atan2" ++ "(" := by rfl
  rw [signOpened, atan2Opened]
  refine ⟨compilesTo_group firstCompiled, ?_, compilesTo_negation firstCompiled, ?_,
    ?_, ?_, ?_⟩
  · intro sign operator isInfix
    exact compilesTo_infix firstCompiled secondCompiled isInfix
  · intro name function named
    obtain ⟨meaning, areName⟩ := named?_of_unaryFunction named
    exact compilesTo_call firstCompiled meaning areName rfl
  · exact compilesTo_call firstCompiled signNamed rfl rfl
  · exact compilesTo_callPair firstCompiled secondCompiled atan2Named rfl rfl
  · exact compilesTo_callPair firstCompiled secondCompiled signNamed rfl rfl

/--
An exponent that is begun and not finished ends at the bracket: in `(2e)-(1)` the letter
is the constant and the sign a difference.
-/
theorem unfinished_exponent_composes :
    CompilesTo [] ("(" ++ "2e" ++ ")" ++ "-" ++ "(" ++ "1" ++ ")")
      (.operation .sub
        (.operation .mul (.number ⟨2, 0⟩) (.constant .naturalBase))
        (.number ⟨1, 0⟩)) := by
  have firstCompiled :
      compile [] "2e" =
        .ok ⟨"2e", .operation .mul (.number ⟨2, 0⟩) (.constant .naturalBase), none⟩ := by
    rfl
  have secondCompiled : compile [] "1" = .ok ⟨"1", .number ⟨1, 0⟩, none⟩ := by
    rfl
  exact (formulas_compose firstCompiled secondCompiled).2.1 "-" .sub (by decide)

end Electrostatics.Formula
