import Electrostatics.Proofs.Formula.Lexing

namespace Electrostatics.Token

open Electrostatics.Decimal

/-!
# The spelling of tokens

The tokens of a text do not depend on where the text stands.  They do not change either
when a closing bracket or a comma is written behind the text: no lexeme reaches over
such a character, so the longest lexemes stay the longest.
-/

/-- A text whose tokens are known, wherever it stands. -/
def Spells (text : List Char) (tokens : List Token) : Prop :=
  ∀ position, ∃ placed,
    Lexed position text placed ∧ placed.map PlacedToken.token = tokens

/-- A character that ends an argument or a group. -/
def IsCloser (character : Char) : Prop :=
  character = ')' ∨ character = ','

/-- Whether a text is a name. -/
def isName : List Char → Bool
  | [] => false
  | first :: rest => startsName first && rest.all continuesName

theorem exists_of_isName
    {text : List Char}
    (areName : isName text = true) :
    ∃ first rest,
      text = first :: rest ∧
      startsName first = true ∧
      ∀ character ∈ rest, continuesName character = true := by
  cases text with
  | nil => cases areName
  | cons first rest =>
      simp only [isName, Bool.and_eq_true, List.all_eq_true] at areName
      exact ⟨first, rest, rfl, areName⟩

theorem IsCloser.isDigit
    {closer : Char}
    (isCloser : IsCloser closer) :
    closer.isDigit = false := by
  rcases isCloser with rfl | rfl <;> rfl

theorem IsCloser.notMem_numeral
    {closer : Char}
    {numeral : List Char}
    {value : Decimal}
    (isCloser : IsCloser closer)
    (isNumeral : IsNumeral numeral value) :
    closer ∉ numeral := by
  intro member
  rcases isNumeral.isDigit_or_mark member with isDigit | isMark
  · rw [isCloser.isDigit] at isDigit
    cases isDigit
  · rcases isCloser with rfl | rfl <;> simp at isMark

/-- A lexeme that contains a closing character is that character. -/
theorem IsLexeme.eq_closer
    {closer : Char}
    {lexeme : List Char}
    {token : Token}
    (isCloser : IsCloser closer)
    (isLexeme : IsLexeme lexeme token)
    (member : closer ∈ lexeme) :
    lexeme = [closer] := by
  cases isLexeme with
  | number isNumeral => exact absurd member (isCloser.notMem_numeral isNumeral)
  | @name first rest starts continues =>
      rcases List.mem_cons.mp member with rfl | later
      · rcases isCloser with rfl | rfl <;> cases starts
      · have continued := continues closer later
        rcases isCloser with rfl | rfl <;> cases continued
  | doubleStar => rcases isCloser with rfl | rfl <;> simp at member
  | symbol _ => rw [List.mem_singleton.mp member]

/-- What begins a text with a mark in it ends in front of the mark or reaches over it. -/
theorem prefix_or_reaches
    {text behind other : List Char}
    {mark : Char}
    (begins : other <+: text ++ mark :: behind) :
    other <+: text ∨ text ++ [mark] <+: other := by
  have whole : text ++ [mark] <+: text ++ mark :: behind := ⟨behind, by simp⟩
  rcases List.prefix_or_prefix_of_prefix begins whole with inside | reaches
  · rcases List.prefix_concat_iff.mp inside with rfl | short
    · exact .inr List.prefix_rfl
    · exact .inl short
  · exact .inr reaches

/-- The longest lexeme of a text is the longest also in front of a closing character. -/
theorem IsLongest.append_closer
    {text lexeme : List Char}
    {token : Token}
    {closer : Char}
    (longest : IsLongest text lexeme token)
    (isCloser : IsCloser closer)
    (behind : List Char) :
    IsLongest (text ++ closer :: behind) lexeme token where
  isLexeme := longest.isLexeme
  begins := longest.begins.trans (List.prefix_append text _)
  longest := by
    intro other otherToken otherLexeme begins
    rcases prefix_or_reaches begins with inside | reaches
    · exact longest.longest other otherToken otherLexeme inside
    · -- A lexeme that reaches over the text contains the closing character.
      have member : closer ∈ other := reaches.subset (by simp)
      rw [IsLexeme.eq_closer isCloser otherLexeme member]
      exact longest.isLexeme.length_pos

/-- Texts on both sides of a closing character are read one behind the other. -/
theorem Lexed.append
    {position : Nat}
    {text behind : List Char}
    {placed placedBehind : List PlacedToken}
    {closer : Char}
    (lexed : Lexed position text placed)
    (isCloser : IsCloser closer)
    (lexedBehind :
      Lexed (position + byteLength text) (closer :: behind) placedBehind) :
    Lexed position (text ++ closer :: behind) (placed ++ placedBehind) := by
  induction lexed with
  | done position => simpa [byteLength] using lexedBehind
  | @blank position character rest placed blank _ inductionHypothesis =>
      simp only [byteLength, ← Nat.add_assoc] at lexedBehind
      exact .blank blank (inductionHypothesis lexedBehind)
  | @lexeme position lexeme rest token placed longest _ inductionHypothesis =>
      have longer := longest.append_closer isCloser behind
      rw [byteLength_append, ← Nat.add_assoc] at lexedBehind
      rw [List.append_assoc] at longer ⊢
      exact .lexeme longer (inductionHypothesis lexedBehind)

/-- The tokens of a text are the same at every offset. -/
theorem Lexed.spells
    {position : Nat}
    {text : List Char}
    {placed : List PlacedToken}
    (lexed : Lexed position text placed) :
    Spells text (placed.map PlacedToken.token) := by
  induction lexed with
  | done _ => exact fun other => ⟨[], .done other, rfl⟩
  | blank blank _ inductionHypothesis =>
      intro other
      obtain ⟨moved, lexed, same⟩ := inductionHypothesis (other + _)
      exact ⟨moved, .blank blank lexed, same⟩
  | @lexeme _ lexeme rest token _ longest _ inductionHypothesis =>
      intro other
      obtain ⟨moved, lexed, same⟩ := inductionHypothesis (other + byteLength lexeme)
      exact ⟨⟨token, other⟩ :: moved, .lexeme longest lexed, by simp [same]⟩

namespace Spells

variable
  {text behind : List Char}
  {tokens tokensBehind : List Token}

theorem nil : Spells [] [] :=
  fun position => ⟨[], .done position, rfl⟩

theorem lexeme
    {lexeme : List Char}
    {token : Token}
    (longest : IsLongest (lexeme ++ text) lexeme token)
    (spelled : Spells text tokens) :
    Spells (lexeme ++ text) (token :: tokens) := by
  intro position
  obtain ⟨placed, lexed, same⟩ := spelled (position + byteLength lexeme)
  exact ⟨⟨token, position⟩ :: placed, .lexeme longest lexed, by simp [same]⟩

/-- The tokens on both sides of a closing character stand one behind the other. -/
theorem append_closer
    {closer : Char}
    (spelled : Spells text tokens)
    (isCloser : IsCloser closer)
    (spelledBehind : Spells (closer :: behind) tokensBehind) :
    Spells (text ++ closer :: behind) (tokens ++ tokensBehind) := by
  intro position
  obtain ⟨placed, lexed, same⟩ := spelled position
  obtain ⟨placedBehind, lexedBehind, sameBehind⟩ :=
    spelledBehind (position + byteLength text)
  exact ⟨placed ++ placedBehind, lexed.append isCloser lexedBehind,
    by simp [same, sameBehind]⟩

/-- A symbol that does not begin a double star is a token of its own. -/
theorem symbol
    {token : Token}
    (character : Char)
    (isSymbol : ofSymbol? character = some token)
    (single : symbolLength (character :: text) = 1)
    (spelled : Spells text tokens) :
    Spells (character :: text) (token :: tokens) := by
  have length : [character].length = lexemeLength ([character] ++ text) := by
    simp [lexemeLength, numeralLength_of_symbol isSymbol, nameLength_of_symbol isSymbol,
      single]
  exact lexeme (isLongest_of_isLexeme (.symbol isSymbol) length) spelled

/-- A name is read as a whole in front of a bracket. -/
theorem name
    {name : String}
    (areName : isName name.toList = true)
    (spelled : Spells ('(' :: text) tokens) :
    Spells (name.toList ++ '(' :: text) (.identifier name :: tokens) := by
  obtain ⟨first, rest, spelling, starts, continues⟩ := exists_of_isName areName
  have written : String.ofList (first :: rest) = name := by
    rw [← spelling, String.ofList_toList]
  have taken : (rest ++ '(' :: text).takeWhile continuesName = rest := by
    rw [List.takeWhile_append_of_pos continues]
    simp [show continuesName '(' = false from rfl]
  have length :
      (first :: rest).length = lexemeLength (first :: rest ++ '(' :: text) := by
    simp [lexemeLength, numeralLength_of_startsName starts, nameLength, starts, taken,
      Nat.add_comm]
  have isLexeme := IsLexeme.name starts continues
  rw [written] at isLexeme
  rw [spelling]
  exact lexeme (isLongest_of_isLexeme isLexeme length) spelled

end Spells

/-- The tokens of a scan, without their places, are those that the text spells. -/
theorem exists_scan_iff_spells
    {text : List Char}
    {tokens : List Token} :
    (∃ placed, scan text = .ok placed ∧ placed.map PlacedToken.token = tokens) ↔
      Spells text tokens := by
  constructor
  · rintro ⟨placed, scanned, rfl⟩
    exact (scan_eq_ok_iff_lexed.mp scanned).spells
  · intro spelled
    obtain ⟨placed, lexed, same⟩ := spelled 0
    exact ⟨placed, scan_eq_ok_iff_lexed.mpr lexed, same⟩

/-- The tokens with every understood product sign written out. -/
def writtenOut : List Token → List Token
  | [] => []
  | [only] => [only]
  | first :: second :: rest =>
      if impliesProduct first second then
        first :: .star :: writtenOut (second :: rest)
      else
        first :: writtenOut (second :: rest)

/-- Where product signs are understood does not depend on the places of the tokens. -/
theorem map_insertProducts (placed : List PlacedToken) :
    (insertProducts placed).map PlacedToken.token =
      writtenOut (placed.map PlacedToken.token) := by
  induction placed with
  | nil => rfl
  | cons first others inductionHypothesis =>
      cases others with
      | nil => rfl
      | cons second rest =>
          simp only [List.map_cons] at inductionHypothesis
          simp only [insertProducts, List.map_cons, writtenOut]
          split <;> simp [inductionHypothesis]

/-- No product sign is understood in front of a token that no operand begins with. -/
theorem writtenOut_append
    {next : Token}
    (never : ∀ last, impliesProduct last next = false)
    (front behind : List Token) :
    writtenOut (front ++ next :: behind) = writtenOut front ++ writtenOut (next :: behind) := by
  induction front with
  | nil => rfl
  | cons first others inductionHypothesis =>
      cases others with
      | nil => simp [writtenOut, never first]
      | cons second rest =>
          simp only [List.cons_append] at inductionHypothesis
          simp only [List.cons_append, writtenOut, inductionHypothesis]
          split <;> rfl

/-- No product sign is understood behind a token that no operand ends with. -/
theorem writtenOut_cons
    {first : Token}
    (never : ∀ next, impliesProduct first next = false)
    (rest : List Token) :
    writtenOut (first :: rest) = first :: writtenOut rest := by
  cases rest with
  | nil => rfl
  | cons second others => simp [writtenOut, never second]

end Electrostatics.Token
