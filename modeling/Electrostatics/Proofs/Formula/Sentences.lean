import Electrostatics.Formula.Compiled
import Electrostatics.Proofs.Formula.Reconstruction

namespace Electrostatics.Grammar

open Electrostatics.Parser

/-!
# The sentences of the grammar

The machine and the grammar agree: what the parser accepts is exactly what the grammar
derives, with the same tree.  A machine gives one answer, so the grammar cannot give two
trees to one list of tokens.
-/

/-- Parsing and deriving are the same, wherever the tokens are placed. -/
theorem parse_iff_derives
    {bound : List Coordinate}
    {tokens : List PlacedToken}
    {tree : Expr} :
    parse bound tokens = .ok tree ↔
      Derives bound .sum (tokens.map PlacedToken.token) tree :=
  ⟨derives_of_parse, parse_of_derives⟩

/-- A list of tokens is a sentence for at most one tree. -/
theorem derives_unique
    {bound : List Coordinate}
    {tokens : List Token}
    {first second : Expr}
    (firstDerived : Derives bound .sum tokens first)
    (secondDerived : Derives bound .sum tokens second) :
    first = second := by
  -- Positions play no part in the grammar, so any will do for the parser.
  let placed : List PlacedToken := tokens.map (fun token => ⟨token, 0⟩)
  have spelled : placed.map PlacedToken.token = tokens := by
    simp [placed, Function.comp_def]
  have firstParsed : parse bound placed = .ok first :=
    parse_iff_derives.mpr (spelled ▸ firstDerived)
  have secondParsed : parse bound placed = .ok second :=
    parse_iff_derives.mpr (spelled ▸ secondDerived)
  exact Except.ok.inj (firstParsed.symm.trans secondParsed)

/--
The parser accepts a list of tokens with a tree exactly when the grammar derives that
tree from it, and the grammar derives no two trees from one list.
-/
theorem parse_accepts_exactly_the_grammar (bound : List Coordinate) :
    (∀ (tokens : List PlacedToken) (tree : Expr),
      parse bound tokens = .ok tree ↔
        Derives bound .sum (tokens.map PlacedToken.token) tree) ∧
    (∀ (tokens : List Token) (first second : Expr),
      Derives bound .sum tokens first →
      Derives bound .sum tokens second →
      first = second) :=
  ⟨fun _ _ => parse_iff_derives, fun _ _ _ => derives_unique⟩

/-- The exponent of a negated power is signed and a power itself: `-x^-2^x`. -/
theorem parse_accepts_signed_exponent :
    let tokens : List Token :=
      [.minus, .identifier "x", .caret, .minus, .number ⟨2, 0⟩, .caret, .identifier "x"]
    let tree : Expr :=
      .negation
        (.operation .pow (.coordinate .x)
          (.negation (.operation .pow (.number ⟨2, 0⟩) (.coordinate .x))))
    Derives [.x] .sum tokens tree ∧
      ∀ other, Derives [.x] .sum tokens other → other = tree := by
  intro tokens tree
  have agreement := parse_accepts_exactly_the_grammar [.x]
  have derived : Derives [.x] .sum tokens tree :=
    (agreement.1 (tokens.map (fun token => ⟨token, 0⟩)) tree).mp (by rfl)
  exact ⟨derived, fun other otherDerived =>
    agreement.2 tokens other tree otherDerived derived⟩

end Electrostatics.Grammar

namespace Electrostatics.Formula

open Electrostatics.Grammar

/-- A text is read as a formula when its tokens are a sentence for the tree of that formula. -/
theorem compile_eq_ok_iff
    {bound : List Coordinate}
    {source : String}
    {formula : Formula} :
    compile bound source = .ok formula ↔
      ∃ placed,
        Token.tokenize source = .ok placed ∧
        Derives bound .sum (placed.map PlacedToken.token) formula.tree ∧
        formula.source = source ∧
        formula.lastError = none := by
  constructor
  · intro compiled
    unfold compile at compiled
    split at compiled
    case h_1 => cases compiled
    case h_2 placed tokenized =>
      split at compiled
      case h_1 => cases compiled
      case h_2 tree parsed =>
        obtain rfl := Except.ok.inj compiled
        exact ⟨placed, tokenized, parse_iff_derives.mp parsed, rfl, rfl⟩
  · rintro ⟨placed, tokenized, derived, sameSource, noError⟩
    obtain ⟨formulaSource, tree, lastError⟩ := formula
    obtain rfl : formulaSource = source := sameSource
    obtain rfl : lastError = none := noError
    have parsed := parse_iff_derives.mpr derived
    simp [compile, tokenized, parsed]

end Electrostatics.Formula
