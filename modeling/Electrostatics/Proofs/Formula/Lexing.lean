import Electrostatics.Formula.Compiled
import Electrostatics.Proofs.Formula.Lexemes

namespace Electrostatics.Token

open Electrostatics.Decimal

/-!
# Texts as blanks and longest lexemes

A text that can be read is an alternation of blanks and lexemes in which every lexeme is
the longest one at its place.  One that cannot be read has such a beginning, and behind
it a character that is no blank and begins no lexeme.
-/

/-- A text from a byte offset on, read as blanks and longest lexemes. -/
inductive Lexed : (position : Nat) → List Char → List PlacedToken → Prop where
  | done (position : Nat) : Lexed position [] []
  | blank
      {position : Nat}
      {character : Char}
      {rest : List Char}
      {placed : List PlacedToken} :
      isBlank character = true →
      Lexed (position + character.utf8Size) rest placed →
      Lexed position (character :: rest) placed
  | lexeme
      {position : Nat}
      {lexeme rest : List Char}
      {token : Token}
      {placed : List PlacedToken} :
      IsLongest (lexeme ++ rest) lexeme token →
      Lexed (position + byteLength lexeme) rest placed →
      Lexed position (lexeme ++ rest)
        ({ token := token, position := position } :: placed)

/-- A text from a byte offset on, read up to a character that begins no lexeme. -/
inductive Stuck : (position : Nat) → List Char → StrayCharacter → Prop where
  | stray
      {position : Nat}
      {character : Char}
      {rest : List Char} :
      isBlank character = false →
      (∀ lexeme token, IsLexeme lexeme token → ¬ lexeme <+: character :: rest) →
      Stuck position (character :: rest)
        { character := character, position := position }
  | blank
      {position : Nat}
      {character : Char}
      {rest : List Char}
      {stray : StrayCharacter} :
      isBlank character = true →
      Stuck (position + character.utf8Size) rest stray →
      Stuck position (character :: rest) stray
  | lexeme
      {position : Nat}
      {lexeme rest : List Char}
      {token : Token}
      {stray : StrayCharacter} :
      IsLongest (lexeme ++ rest) lexeme token →
      Stuck (position + byteLength lexeme) rest stray →
      Stuck position (lexeme ++ rest) stray

theorem byteLength_append (front back : List Char) :
    byteLength (front ++ back) = byteLength front + byteLength back := by
  induction front with
  | nil => simp [byteLength]
  | cons character rest inductionHypothesis =>
      simp only [List.cons_append, byteLength, inductionHypothesis, Nat.add_assoc]

theorem byteLength_pos
    {text : List Char}
    (notEmpty : 0 < text.length) :
    0 < byteLength text := by
  cases text with
  | nil => cases notEmpty
  | cons character rest =>
      have := character.utf8Size_pos
      simp only [byteLength]
      omega

theorem scanFrom_pending
    (lexeme : List Char)
    (position : Nat)
    (rest : List Char) :
    scanFrom lexeme.length position (lexeme ++ rest) =
      scanFrom 0 (position + byteLength lexeme) rest := by
  induction lexeme generalizing position with
  | nil => rfl
  | cons character others inductionHypothesis =>
      simp only [List.length_cons, List.cons_append, scanFrom, inductionHypothesis,
        byteLength, Nat.add_assoc]

theorem scanFrom_blank
    {character : Char}
    (blank : isBlank character = true)
    (position : Nat)
    (rest : List Char) :
    scanFrom 0 position (character :: rest) =
      scanFrom 0 (position + character.utf8Size) rest := by
  simp [scanFrom, blank]

/-- The longest lexeme is read and the scan goes on behind it. -/
theorem scanFrom_lexeme
    {lexeme rest : List Char}
    {token : Token}
    (longest : IsLongest (lexeme ++ rest) lexeme token)
    (position : Nat) :
    scanFrom 0 position (lexeme ++ rest) =
      (scanFrom 0 (position + byteLength lexeme) rest).map
        (List.cons { token := token, position := position }) := by
  have read := longest.isLexeme.ofLexeme_eq
  have measured := longest.length_eq
  cases lexeme with
  | nil => exact absurd longest.isLexeme.length_pos (Nat.lt_irrefl 0)
  | cons first others =>
      have noBlank := longest.isLexeme.not_isBlank
      have pending := scanFrom_pending others (position + first.utf8Size) rest
      simp only [List.cons_append, List.length_cons] at measured
      simp only [List.cons_append, scanFrom, noBlank, ← measured]
      simp [read, pending, byteLength, Nat.add_assoc]

theorem scanFrom_stray
    {character : Char}
    {rest : List Char}
    (noBlank : isBlank character = false)
    (noLexeme : lexemeLength (character :: rest) = 0)
    (position : Nat) :
    scanFrom 0 position (character :: rest) =
      .error { character := character, position := position } := by
  simp [scanFrom, noBlank, noLexeme]

/-- At every place a text ends, has a blank, has a longest lexeme or cannot be read. -/
theorem exists_next (text : List Char) :
    text = [] ∨
    (∃ character rest, text = character :: rest ∧ isBlank character = true) ∨
    (∃ lexeme token rest, text = lexeme ++ rest ∧ IsLongest text lexeme token) ∨
    (∃ character rest,
      text = character :: rest ∧ isBlank character = false ∧ lexemeLength text = 0) := by
  cases text with
  | nil => exact .inl rfl
  | cons character rest =>
      by_cases blank : isBlank character = true
      · exact .inr (.inl ⟨character, rest, rfl, blank⟩)
      by_cases noLexeme : lexemeLength (character :: rest) = 0
      · exact .inr (.inr (.inr ⟨character, rest, rfl, by simpa using blank, noLexeme⟩))
      obtain ⟨lexeme, token, behind, cut, isLexeme, length⟩ := exists_isLexeme noLexeme
      rw [cut] at length ⊢
      exact .inr (.inr (.inl
        ⟨lexeme, token, behind, rfl, isLongest_of_isLexeme isLexeme length⟩))

/--
A scan reads a text as blanks and longest lexemes, or reports where that is impossible.
-/
theorem scanFrom_reads (text : List Char) (position : Nat) :
    (∃ placed, scanFrom 0 position text = .ok placed ∧ Lexed position text placed) ∨
    (∃ stray, scanFrom 0 position text = .error stray ∧ Stuck position text stray) := by
  induction length : text.length using Nat.strong_induction_on generalizing text position with
  | h size inductionHypothesis =>
      subst length
      rcases exists_next text with
          rfl | ⟨character, rest, rfl, blank⟩ | ⟨lexeme, token, rest, rfl, longest⟩ |
            ⟨character, rest, rfl, noBlank, noLexeme⟩
      · exact .inl ⟨[], rfl, .done position⟩
      · rw [scanFrom_blank blank]
        rcases inductionHypothesis rest.length (by simp) rest
            (position + character.utf8Size) rfl with
            ⟨placed, scanned, lexed⟩ | ⟨stray, scanned, stuck⟩
        · exact .inl ⟨placed, scanned, .blank blank lexed⟩
        · exact .inr ⟨stray, scanned, .blank blank stuck⟩
      · have shorter : rest.length < (lexeme ++ rest).length := by
          have positive := longest.isLexeme.length_pos
          rw [List.length_append]
          omega
        rw [scanFrom_lexeme longest]
        rcases inductionHypothesis rest.length shorter rest
            (position + byteLength lexeme) rfl with
            ⟨placed, scanned, lexed⟩ | ⟨stray, scanned, stuck⟩
        · rw [scanned]
          exact .inl ⟨_, rfl, .lexeme longest lexed⟩
        · rw [scanned]
          exact .inr ⟨stray, rfl, .lexeme longest stuck⟩
      · refine .inr ⟨_, scanFrom_stray noBlank noLexeme position, .stray noBlank ?_⟩
        rintro lexeme token isLexeme ⟨behind, cut⟩
        have bound := isLexeme.length_le behind
        have positive := isLexeme.length_pos
        rw [cut, noLexeme] at bound
        omega

theorem Lexed.scanFrom_eq
    {position : Nat}
    {text : List Char}
    {placed : List PlacedToken}
    (lexed : Lexed position text placed) :
    scanFrom 0 position text = .ok placed := by
  induction lexed with
  | done position => rfl
  | blank blank _ inductionHypothesis =>
      rw [scanFrom_blank blank, inductionHypothesis]
  | lexeme longest _ inductionHypothesis =>
      rw [scanFrom_lexeme longest, inductionHypothesis]
      rfl

theorem Stuck.scanFrom_eq
    {position : Nat}
    {text : List Char}
    {stray : StrayCharacter}
    (stuck : Stuck position text stray) :
    scanFrom 0 position text = .error stray := by
  induction stuck with
  | stray noBlank noLexeme =>
      refine scanFrom_stray noBlank ?_ _
      by_contra measured
      obtain ⟨lexeme, token, rest, cut, isLexeme, _⟩ := exists_isLexeme measured
      exact noLexeme lexeme token isLexeme ⟨rest, cut.symm⟩
  | blank blank _ inductionHypothesis =>
      rw [scanFrom_blank blank, inductionHypothesis]
  | lexeme longest _ inductionHypothesis =>
      rw [scanFrom_lexeme longest, inductionHypothesis]
      rfl

/-- The tokens of a scan are those of its blanks and longest lexemes. -/
theorem scan_eq_ok_iff_lexed
    {text : List Char}
    {placed : List PlacedToken} :
    scan text = .ok placed ↔ Lexed 0 text placed := by
  constructor
  · intro scanned
    rcases scanFrom_reads text 0 with ⟨read, readScanned, lexed⟩ | ⟨stray, stopped, _⟩
    · obtain rfl := Except.ok.inj (readScanned.symm.trans scanned)
      exact lexed
    · cases stopped.symm.trans scanned
  · exact Lexed.scanFrom_eq

/-- The error of a scan is the first character at which no lexeme begins. -/
theorem scan_eq_error_iff_stuck
    {text : List Char}
    {stray : StrayCharacter} :
    scan text = .error stray ↔ Stuck 0 text stray := by
  constructor
  · intro scanned
    rcases scanFrom_reads text 0 with ⟨placed, read, _⟩ | ⟨reported, stopped, stuck⟩
    · cases read.symm.trans scanned
    · obtain rfl := Except.error.inj (stopped.symm.trans scanned)
      exact stuck
  · exact Stuck.scanFrom_eq

/-- A formula that cannot be scanned is refused for the character that is reported. -/
theorem Stuck.compile_eq
    {formula : String}
    {stray : StrayCharacter}
    (stuck : Stuck 0 formula.toList stray)
    (bound : List Coordinate) :
    Formula.compile bound formula =
      .error (.unexpectedCharacter stray.character stray.position) := by
  have scanned := scan_eq_error_iff_stuck.mpr stuck
  simp [Formula.compile, tokenize, scanned, Except.map]

/-- Tokens stand at or behind the offset of their text, each behind the one before it. -/
theorem Lexed.positions_increase
    {position : Nat}
    {text : List Char}
    {placed : List PlacedToken}
    (lexed : Lexed position text placed) :
    (∀ token ∈ placed, position ≤ token.position) ∧
      placed.Pairwise (fun first second => first.position < second.position) := by
  induction lexed with
  | done position => simp
  | blank _ _ inductionHypothesis =>
      refine ⟨fun token member => ?_, inductionHypothesis.2⟩
      have := inductionHypothesis.1 token member
      omega
  | lexeme longest _ inductionHypothesis =>
      have positive := byteLength_pos longest.isLexeme.length_pos
      have behind := inductionHypothesis.1
      refine ⟨?_, List.pairwise_cons.mpr ⟨fun token member => ?_, inductionHypothesis.2⟩⟩
      · intro token member
        rcases List.mem_cons.mp member with rfl | later
        · exact Nat.le_refl _
        · have := behind token later
          omega
      · have := behind token member
        simp only
        omega

theorem byteLength_eq_length
    {text : List Char}
    (narrow : ∀ character ∈ text, character.utf8Size = 1) :
    byteLength text = text.length := by
  induction text with
  | nil => rfl
  | cons character rest inductionHypothesis =>
      have rest := inductionHypothesis (fun other member => narrow other (by simp [member]))
      have first := narrow character (by simp)
      simp only [byteLength, List.length_cons, rest, first]
      omega

theorem utf8Size_of_isDigit
    {character : Char}
    (isDigit : character.isDigit = true) :
    character.utf8Size = 1 := by
  have bound := (Char.isDigit_iff_toNat.mp isDigit).2
  rw [Char.utf8Size_eq_one_iff, UInt32.le_iff_toNat_le]
  exact Nat.le_trans bound (by decide)

theorem byteLength_of_isExponent
    {exponent : List Char}
    {value : Int}
    (isExponent : IsExponent exponent value) :
    byteLength exponent = exponent.length := by
  have narrow : ['e', 'E', '+', '-'].all (fun mark => mark.utf8Size == 1) = true := rfl
  refine byteLength_eq_length (fun character member => ?_)
  rcases isExponent.isDigit_or_mark member with isDigit | isMark
  · exact utf8Size_of_isDigit isDigit
  · simpa using List.all_eq_true.mp narrow character isMark

/--
The look-ahead for an exponent stays inside the text: the sign that it steps over and the
characters that it takes are there, and what it takes ends between two characters.
-/
theorem exponent_inside (mark : Char) (afterMark : List Char) :
    signLength afterMark ≤ afterMark.length ∧
      exponentLength (mark :: afterMark) ≤ (mark :: afterMark).length ∧
      byteLength ((mark :: afterMark).take (exponentLength (mark :: afterMark))) =
        exponentLength (mark :: afterMark) := by
  refine ⟨?_, ?_⟩
  · obtain ⟨sign, signed, rest, rfl, _, length⟩ := exists_isSign afterMark
    rw [← length, List.length_append]
    omega
  · obtain ⟨exponent, value, rest, cut, isExponent, length⟩ :=
      exists_isExponent (mark :: afterMark)
    rw [← length, cut, List.take_left, byteLength_of_isExponent isExponent,
      List.length_append]
    exact ⟨by omega, rfl⟩

/--
Scanning loses nothing and always takes the longest lexeme.  It succeeds exactly when the
text is blanks and longest lexemes, with their values and offsets, and otherwise reports
the first character that is reached and begins no lexeme; the formula is then refused for
that character.  Nothing behind the end of the text is looked at.
-/
theorem scan_is_lossless_longest_match (formula : String) :
    (∀ placed, scan formula.toList = .ok placed ↔ Lexed 0 formula.toList placed) ∧
    (∀ stray, scan formula.toList = .error stray ↔ Stuck 0 formula.toList stray) ∧
    (∀ bound stray,
      Stuck 0 formula.toList stray →
      Formula.compile bound formula =
        .error (.unexpectedCharacter stray.character stray.position)) ∧
    (∀ placed,
      scan formula.toList = .ok placed →
      placed.Pairwise (fun first second => first.position < second.position)) ∧
    (∀ front mark afterMark,
      formula.toList = front ++ mark :: afterMark →
      signLength afterMark ≤ afterMark.length ∧
        exponentLength (mark :: afterMark) ≤ (mark :: afterMark).length ∧
        byteLength ((mark :: afterMark).take (exponentLength (mark :: afterMark))) =
          exponentLength (mark :: afterMark)) := by
  refine ⟨fun placed => scan_eq_ok_iff_lexed, fun stray => scan_eq_error_iff_stuck,
    ?_, ?_, ?_⟩
  · intro bound stray stuck
    exact stuck.compile_eq bound
  · intro placed scanned
    exact (scan_eq_ok_iff_lexed.mp scanned).positions_increase.2
  · intro _ mark afterMark _
    exact exponent_inside mark afterMark

/--
The exponent of `2e+3` is taken, that of `4e` is not, and `**` is one lexeme.  In `2 é` no
lexeme begins at the last character.
-/
theorem scan_exponents_and_double_star :
    Lexed 0 "2e+3 x**4e".toList
        [⟨.number ⟨2, 3⟩, 0⟩, ⟨.identifier "x", 5⟩, ⟨.doubleStar, 6⟩,
          ⟨.number ⟨4, 0⟩, 8⟩, ⟨.identifier "e", 9⟩] ∧
      [0, 5, 6, 8, 9].Pairwise (fun first second => first < second) ∧
      exponentLength ['e', '+', '3', ' ', 'x', '*', '*', '4', 'e'] ≤ 9 ∧
      Stuck 0 "2 é".toList { character := 'é', position := 2 } ∧
      Formula.compile [] "2 é" = .error (.unexpectedCharacter 'é' 2) := by
  obtain ⟨reads, _, _, increases, inside⟩ := scan_is_lossless_longest_match "2e+3 x**4e"
  obtain ⟨_, stops, refuses, _, _⟩ := scan_is_lossless_longest_match "2 é"
  have scanned :
      scan "2e+3 x**4e".toList =
        .ok
          [⟨.number ⟨2, 3⟩, 0⟩, ⟨.identifier "x", 5⟩, ⟨.doubleStar, 6⟩,
            ⟨.number ⟨4, 0⟩, 8⟩, ⟨.identifier "e", 9⟩] := by
    rfl
  have looked := inside ['2'] 'e' ['+', '3', ' ', 'x', '*', '*', '4', 'e'] (by rfl)
  have ordered := increases _ scanned
  have stuck : Stuck 0 "2 é".toList { character := 'é', position := 2 } :=
    (stops _).mp (by rfl)
  exact ⟨(reads _).mp scanned, List.pairwise_map.mpr ordered, looked.2.1, stuck,
    refuses [] _ stuck⟩

example : scan "1.2.3".toList = .ok [⟨.number ⟨12, -1⟩, 0⟩, ⟨.number ⟨3, -1⟩, 3⟩] := by
  rfl

end Electrostatics.Token
