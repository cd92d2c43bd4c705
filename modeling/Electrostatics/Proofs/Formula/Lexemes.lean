import Electrostatics.Formula.Token
import Electrostatics.Proofs.Decimal.Numerals

namespace Electrostatics.Token

open Electrostatics.Decimal

/-!
# The lexemes of a formula

A lexeme is a number, a name, the double star or a symbol of one character.  The kinds
are told apart by their first characters, so the longest lexeme at the start of a text
is the longest one of the only kind that can begin there.
-/

/-- A lexeme and the token it stands for. -/
inductive IsLexeme : (lexeme : List Char) → (token : Token) → Prop where
  | number
      {lexeme : List Char}
      {value : Decimal} :
      IsNumeral lexeme value →
      IsLexeme lexeme (.number value)
  | name
      {first : Char}
      {rest : List Char} :
      startsName first = true →
      (∀ character ∈ rest, continuesName character = true) →
      IsLexeme (first :: rest) (.identifier (String.ofList (first :: rest)))
  | doubleStar : IsLexeme ['*', '*'] .doubleStar
  | symbol
      {character : Char}
      {token : Token} :
      ofSymbol? character = some token →
      IsLexeme [character] token

/-- The longest lexeme at the start of a text. -/
structure IsLongest (text lexeme : List Char) (token : Token) : Prop where
  isLexeme : IsLexeme lexeme token
  begins : lexeme <+: text
  longest :
    ∀ other otherToken,
      IsLexeme other otherToken →
      other <+: text →
      other.length ≤ lexeme.length

/-- The letters stand behind the digits. -/
theorem toNat_of_isAlpha
    {character : Char}
    (isAlpha : character.isAlpha = true) :
    'A'.toNat ≤ character.toNat := by
  rcases Bool.or_eq_true_iff.mp isAlpha with upper | lower
  · have bounds := of_decide_eq_true upper
    exact UInt32.le_iff_toNat_le.mp bounds.1
  · have bounds := Bool.and_eq_true_iff.mp lower
    have bound := UInt32.le_iff_toNat_le.mp (of_decide_eq_true bounds.1)
    exact Nat.le_trans (by decide) bound

theorem isDigit_of_startsName
    {character : Char}
    (starts : startsName character = true) :
    character.isDigit = false := by
  by_contra isDigit
  rw [Bool.not_eq_false, Char.isDigit_iff_toNat] at isDigit
  rcases Bool.or_eq_true_iff.mp starts with letter | underscore
  · have behind := Nat.le_trans (toNat_of_isAlpha letter) isDigit.2
    exact absurd behind (by decide)
  · obtain rfl := beq_iff_eq.mp underscore
    exact absurd isDigit.2 (by decide)

theorem ofSymbol?_of_startsName
    {character : Char}
    (starts : startsName character = true) :
    ofSymbol? character = none := by
  unfold ofSymbol?
  split <;> first | rfl | cases starts

theorem numeralLength_eq_zero
    {first : Char}
    (noDigit : first.isDigit = false)
    (noPoint : first ≠ '.')
    (rest : List Char) :
    numeralLength (first :: rest) = 0 := by
  simp [numeralLength, mantissaLength, leadingDigits, noDigit, noPoint]

theorem numeralLength_of_startsName
    {first : Char}
    (starts : startsName first = true)
    (rest : List Char) :
    numeralLength (first :: rest) = 0 := by
  refine numeralLength_eq_zero (isDigit_of_startsName starts) ?_ rest
  rintro rfl
  cases starts

theorem numeralLength_of_symbol
    {first : Char}
    {token : Token}
    (symbol : ofSymbol? first = some token)
    (rest : List Char) :
    numeralLength (first :: rest) = 0 := by
  unfold ofSymbol? at symbol
  split at symbol
  case h_9 => cases symbol
  all_goals exact numeralLength_eq_zero rfl (by decide) rest

theorem nameLength_of_symbol
    {first : Char}
    {token : Token}
    (symbol : ofSymbol? first = some token)
    (rest : List Char) :
    nameLength (first :: rest) = 0 := by
  have noName : startsName first = false := by
    by_contra starts
    simp [ofSymbol?_of_startsName (by simpa using starts)] at symbol
  simp [nameLength, noName]

theorem symbolLength_pos
    {first : Char}
    {token : Token}
    (symbol : ofSymbol? first = some token)
    (rest : List Char) :
    1 ≤ symbolLength (first :: rest) := by
  unfold symbolLength
  split <;> simp_all

theorem lexemeLength_of_isBlank
    {first : Char}
    (blank : isBlank first = true)
    (rest : List Char) :
    lexemeLength (first :: rest) = 0 := by
  simp only [isBlank, Bool.or_eq_true, beq_iff_eq] at blank
  rcases blank with (((rfl | rfl) | rfl) | rfl) | rfl <;> rfl

namespace IsLexeme

variable
  {lexeme : List Char}
  {token : Token}

theorem length_pos
    (isLexeme : IsLexeme lexeme token) :
    0 < lexeme.length := by
  cases isLexeme with
  | number isNumeral => exact isNumeral.length_pos
  | _ => simp

/-- No lexeme at the start of a text is longer than the one that is measured. -/
theorem length_le
    (isLexeme : IsLexeme lexeme token)
    (rest : List Char) :
    lexeme.length ≤ lexemeLength (lexeme ++ rest) := by
  unfold lexemeLength
  cases isLexeme with
  | number isNumeral =>
      have bound := isNumeral.length_le rest
      have positive := isNumeral.length_pos
      have measured : numeralLength (lexeme ++ rest) ≠ 0 := by omega
      simp only [measured, ne_eq, not_false_eq_true, ↓reduceIte]
      exact bound
  | @name first others starts continues =>
      have taken :
          (others ++ rest).takeWhile continuesName =
            others ++ rest.takeWhile continuesName :=
        List.takeWhile_append_of_pos continues
      simp only [List.cons_append, numeralLength_of_startsName starts, nameLength, starts,
        taken, List.length_cons, List.length_append, ne_eq, not_true, ↓reduceIte]
      split <;> omega
  | doubleStar => exact Nat.le_refl 2
  | @symbol character _ symbol =>
      simp only [List.cons_append, List.nil_append, numeralLength_of_symbol symbol,
        nameLength_of_symbol symbol, ne_eq, not_true, ↓reduceIte]
      exact symbolLength_pos symbol rest

/-- A whole lexeme is read as its token. -/
theorem ofLexeme_eq
    (isLexeme : IsLexeme lexeme token) :
    ofLexeme lexeme = token := by
  unfold ofLexeme
  cases isLexeme with
  | number isNumeral =>
      have bound := isNumeral.length_le []
      have positive := isNumeral.length_pos
      have measured : numeralLength lexeme ≠ 0 := by
        rw [List.append_nil] at bound
        omega
      rw [if_pos measured, isNumeral.ofNumeral_eq]
  | @name first others starts continues =>
      have noStars : first :: others ≠ ['*', '*'] := by
        intro same
        obtain ⟨rfl, _⟩ := List.cons.inj same
        cases starts
      rw [if_neg (not_not_intro (numeralLength_of_startsName starts others)),
        if_neg noStars]
      cases others with
      | nil => simp only [ofSymbol?_of_startsName starts, Option.getD_none]
      | cons second rest => rfl
  | doubleStar => rfl
  | @symbol character _ symbol =>
      have noStars : [character] ≠ ['*', '*'] := by simp
      rw [if_neg (not_not_intro (numeralLength_of_symbol symbol [])), if_neg noStars]
      simp only [symbol, Option.getD_some]

theorem not_isBlank
    {first : Char}
    {rest : List Char}
    (isLexeme : IsLexeme (first :: rest) token) :
    isBlank first = false := by
  by_contra blank
  have bound := isLexeme.length_le []
  rw [List.append_nil, lexemeLength_of_isBlank (by simpa using blank)] at bound
  simp at bound

end IsLexeme

theorem exists_symbol
    {text : List Char}
    (measured : symbolLength text ≠ 0) :
    ∃ lexeme token rest,
      text = lexeme ++ rest ∧
      IsLexeme lexeme token ∧
      lexeme.length = symbolLength text := by
  revert measured
  unfold symbolLength
  split
  case h_1 rest =>
    intro _
    exact ⟨['*', '*'], .doubleStar, rest, rfl, .doubleStar, rfl⟩
  case h_2 first rest _ =>
    split
    case isTrue isSymbol =>
      intro _
      obtain ⟨token, symbol⟩ := Option.isSome_iff_exists.mp isSymbol
      exact ⟨[first], token, rest, rfl, .symbol symbol, rfl⟩
    case isFalse => exact fun measured => absurd rfl measured
  case h_3 => exact fun measured => absurd rfl measured

theorem exists_name
    {text : List Char}
    (measured : nameLength text ≠ 0) :
    ∃ lexeme token rest,
      text = lexeme ++ rest ∧
      IsLexeme lexeme token ∧
      lexeme.length = nameLength text := by
  cases text with
  | nil => exact absurd rfl measured
  | cons first others =>
      have starts : startsName first = true := by
        by_contra other
        exact measured (by simp [nameLength, other])
      have areName :
          ∀ character ∈ others.takeWhile continuesName,
            continuesName character = true :=
        fun _ member => List.mem_takeWhile_imp member
      refine ⟨first :: others.takeWhile continuesName, _,
        others.dropWhile continuesName, ?_, .name starts areName, ?_⟩
      · simp
      · simp only [nameLength, starts, ↓reduceIte, List.length_cons]
        omega

/-- What is measured for a lexeme is one. -/
theorem exists_isLexeme
    {text : List Char}
    (measured : lexemeLength text ≠ 0) :
    ∃ lexeme token rest,
      text = lexeme ++ rest ∧
      IsLexeme lexeme token ∧
      lexeme.length = lexemeLength text := by
  unfold lexemeLength at measured ⊢
  by_cases numeral : numeralLength text = 0
  · by_cases name : nameLength text = 0
    · simp only [numeral, name, ne_eq, not_true, ↓reduceIte] at measured ⊢
      exact exists_symbol measured
    · simp only [numeral, name, ne_eq, not_true, not_false_eq_true, ↓reduceIte]
      exact exists_name name
  · obtain ⟨lexeme, value, rest, cut, isNumeral, length⟩ := exists_isNumeral numeral
    exact ⟨lexeme, .number value, rest, cut, .number isNumeral, by simp [numeral, length]⟩

/-- A lexeme of the measured length is the longest one. -/
theorem isLongest_of_isLexeme
    {lexeme rest : List Char}
    {token : Token}
    (isLexeme : IsLexeme lexeme token)
    (length : lexeme.length = lexemeLength (lexeme ++ rest)) :
    IsLongest (lexeme ++ rest) lexeme token where
  isLexeme := isLexeme
  begins := List.prefix_append lexeme rest
  longest := by
    rintro other otherToken otherLexeme ⟨behind, cut⟩
    rw [length, ← cut]
    exact otherLexeme.length_le behind

namespace IsLongest

variable
  {lexeme rest : List Char}
  {token : Token}

theorem length_eq
    (longest : IsLongest (lexeme ++ rest) lexeme token) :
    lexeme.length = lexemeLength (lexeme ++ rest) := by
  have bound := longest.isLexeme.length_le rest
  have positive := longest.isLexeme.length_pos
  have measured : lexemeLength (lexeme ++ rest) ≠ 0 := by omega
  obtain ⟨other, otherToken, behind, cut, otherLexeme, length⟩ :=
    exists_isLexeme measured
  have otherBound :=
    longest.longest other otherToken otherLexeme ⟨behind, cut.symm⟩
  omega

end IsLongest

end Electrostatics.Token
