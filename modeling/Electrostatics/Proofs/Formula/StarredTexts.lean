import Electrostatics.Proofs.Formula.Displacement
import Electrostatics.Proofs.Formula.ProductSigns
import Electrostatics.Proofs.Formula.Renaming

namespace Electrostatics

/-!
# Product signs written into the text

A star can be written into a formula wherever a product sign is understood.  The star does not
run into its neighbours: the lexeme in front of it is a number or a bracket, and a lexeme that
begins with a star never stands behind it.  So the text keeps its tokens, the stars become tokens
among them, and the formula is read as it was.
-/

namespace Token

/-- The text from a byte offset on, with a star in front of the characters at the offsets. -/
def withStars (offsets : List Nat) : (position : Nat) → List Char → List Char
  | _, [] => []
  | position, character :: rest =>
      let later := withStars offsets (position + character.utf8Size) rest
      if position ∈ offsets then
        '*' :: character :: later
      else
        character :: later

variable
  {offsets : List Nat}
  {position : Nat}
  {text rest lexeme : List Char}
  {token : Token}

theorem withStars_append (front behind : List Char) :
    withStars offsets position (front ++ behind) =
      withStars offsets position front ++
        withStars offsets (position + byteLength front) behind := by
  induction front generalizing position with
  | nil => rfl
  | cons character others inductionHypothesis =>
      simp only [List.cons_append, withStars, byteLength, inductionHypothesis, Nat.add_assoc]
      split <;> rfl

/-- A character in front of the offsets is left as it is. -/
theorem withStars_cons_of_before
    {character : Char}
    (behind : ∀ offset ∈ offsets, position < offset) :
    withStars offsets position (character :: rest) =
      character :: withStars offsets (position + character.utf8Size) rest := by
  have notHere : position ∉ offsets := fun member =>
    Nat.lt_irrefl position (behind position member)
  rw [withStars, if_neg notHere]

/-- A text that ends in front of the offsets is left as it is. -/
theorem withStars_eq_self (behind : ∀ offset ∈ offsets, position + byteLength text ≤ offset) :
    withStars offsets position text = text := by
  induction text generalizing position with
  | nil => rfl
  | cons character others inductionHypothesis =>
      have wide := character.utf8Size_pos
      simp only [byteLength, ← Nat.add_assoc] at behind
      have later : ∀ offset ∈ offsets, position < offset := by
        intro offset member
        have := behind offset member
        omega
      rw [withStars_cons_of_before later, inductionHypothesis behind]

/-- An offset that was passed makes no difference. -/
theorem withStars_cons_of_lt
    {offset : Nat}
    (passed : offset < position) :
    withStars (offset :: offsets) position text = withStars offsets position text := by
  induction text generalizing position with
  | nil => rfl
  | cons character others inductionHypothesis =>
      have notHere : position ≠ offset := Nat.ne_of_gt passed
      simp only [withStars, List.mem_cons, notHere, false_or,
        inductionHypothesis (Nat.lt_add_right _ passed)]

/-- The star in front of a text stands before the stars inside it. -/
theorem withStars_cons_self
    {character : Char}
    (behind : ∀ offset ∈ offsets, position < offset) :
    withStars (position :: offsets) position (character :: rest) =
      '*' :: withStars offsets position (character :: rest) := by
  have passed : position < position + character.utf8Size :=
    Nat.lt_add_of_pos_right character.utf8Size_pos
  rw [withStars_cons_of_before behind, withStars, if_pos List.mem_cons_self,
    withStars_cons_of_lt passed]

/-- The text is the same up to its first star. -/
theorem withStars_first (offsets : List Nat) (position : Nat) (text : List Char) :
    withStars offsets position text = text ∨
      ∃ front behind starredBehind,
        text = front ++ behind ∧
        withStars offsets position text = front ++ '*' :: starredBehind ∧
        (front = [] → position ∈ offsets) := by
  induction text generalizing position with
  | nil => exact .inl rfl
  | cons character others inductionHypothesis =>
      by_cases here : position ∈ offsets
      · refine .inr ⟨[], character :: others,
          character :: withStars offsets (position + character.utf8Size) others, rfl, ?_,
          fun _ => here⟩
        rw [withStars, if_pos here, List.nil_append]
      · rw [withStars, if_neg here]
        rcases inductionHypothesis (position + character.utf8Size) with
            same | ⟨front, behind, starredBehind, cut, starred, _⟩
        · exact .inl (congrArg (List.cons character) same)
        · refine .inr ⟨character :: front, behind, starredBehind, ?_, ?_, by simp⟩
          · rw [cut, List.cons_append]
          · rw [starred, List.cons_append]

/-! ## Lexemes next to a star -/

/-- A lexeme with a star in it is a star or a double star. -/
theorem IsLexeme.eq_of_star_mem
    (isLexeme : IsLexeme lexeme token)
    (member : '*' ∈ lexeme) :
    lexeme = ['*'] ∨ lexeme = ['*', '*'] := by
  cases isLexeme with
  | number isNumeral =>
      rcases isNumeral.isDigit_or_mark member with isDigit | isMark
      · cases isDigit
      · simp at isMark
  | name starts continues =>
      rcases List.mem_cons.mp member with rfl | later
      · cases starts
      · cases continues '*' later
  | doubleStar => exact .inr rfl
  | symbol _ => exact .inl (by rw [List.mem_singleton.mp member])

/-- In front of a star of a lexeme stands nothing or another star. -/
theorem IsLexeme.before_star
    {front : List Char}
    (isLexeme : IsLexeme lexeme token)
    (reaches : front ++ ['*'] <+: lexeme) :
    front = [] ∨ front = ['*'] := by
  have member : '*' ∈ lexeme := reaches.subset (by simp)
  obtain ⟨behind, whole⟩ := reaches
  rcases isLexeme.eq_of_star_mem member with rfl | rfl
  · cases front with
    | nil => exact .inl rfl
    | cons first others => simp at whole
  · rcases front with _ | ⟨first, _ | ⟨second, others⟩⟩
    · exact .inl rfl
    · obtain ⟨rfl, _⟩ := List.cons.inj whole
      exact .inr rfl
    · simp at whole

/-- A lexeme with a star in it is one of the two operators with that character. -/
theorem IsLexeme.token_of_star_mem
    (isLexeme : IsLexeme lexeme token)
    (member : '*' ∈ lexeme) :
    token = .star ∨ token = .doubleStar := by
  have read := isLexeme.ofLexeme_eq
  rcases isLexeme.eq_of_star_mem member with rfl | rfl
  · exact .inl read.symm
  · exact .inr read.symm

theorem Understood.previous_ne_star
    {next : Token}
    (understood : Understood (some token) next) :
    token ≠ .star := by
  obtain ⟨_, same, juxtaposed⟩ := understood
  rintro rfl
  obtain rfl := Option.some.inj same
  cases juxtaposed

/-- No sign is understood in front of a lexeme with a star in it. -/
theorem Understood.star_notMem
    {last : Option Token}
    (understood : Understood last token)
    (isLexeme : IsLexeme lexeme token) :
    '*' ∉ lexeme := by
  intro member
  obtain ⟨_, _, juxtaposed⟩ := understood
  rcases isLexeme.token_of_star_mem member with rfl | rfl
  · cases juxtaposed
  · cases juxtaposed

/-- A star in front of another character is a lexeme of its own. -/
theorem symbolLength_star
    {character : Char}
    (other : character ≠ '*') :
    symbolLength ('*' :: character :: rest) = 1 := by
  unfold symbolLength
  split
  case h_1 sameText =>
    simp only [List.cons.injEq, true_and] at sameText
    exact absurd sameText.1 other
  case h_2 sameText =>
    obtain ⟨rfl, -⟩ := List.cons.inj sameText
    rfl
  case h_3 sameText => cases sameText

/--
The longest lexeme stays the longest when stars are written into the text behind it.  Only a star
directly behind a star would make it longer.
-/
theorem IsLongest.before_stars
    (longest : IsLongest (lexeme ++ rest) lexeme token)
    (apart : position ∈ offsets → token ≠ .star) :
    IsLongest (lexeme ++ withStars offsets position rest) lexeme token where
  isLexeme := longest.isLexeme
  begins := List.prefix_append lexeme _
  longest := by
    intro other otherToken otherLexeme begins
    rcases withStars_first offsets position rest with
        same | ⟨front, behind, starredBehind, rfl, starred, immediate⟩
    · rw [same] at begins
      exact longest.longest other otherToken otherLexeme begins
    · rw [starred, ← List.append_assoc] at begins
      rcases prefix_or_reaches begins with inside | reaches
      · refine longest.longest other otherToken otherLexeme ?_
        rw [← List.append_assoc]
        exact inside.trans (List.prefix_append _ behind)
      · -- A lexeme that reaches over the star is a double star with the first lexeme in front.
        rcases otherLexeme.before_star reaches with nothing | single
        · have noLexeme := (List.append_eq_nil_iff.mp nothing).1
          exact absurd longest.isLexeme.length_pos (by simp [noLexeme])
        · rcases List.append_eq_singleton_iff.mp single with ⟨noLexeme, _⟩ | ⟨isStar, atOnce⟩
          · exact absurd longest.isLexeme.length_pos (by simp [noLexeme])
          · subst isStar
            exact absurd longest.isLexeme.ofLexeme_eq.symm (apart (immediate atOnce))

/-! ## The starred text -/

/-- A sign at the beginning of a text is understood behind what was read last. -/
theorem WrittenOut.exists_understood
    {last : Option Token}
    {placed written : List PlacedToken}
    (writtenOut : WrittenOut last placed written offsets)
    (lexed : Lexed position text placed)
    (member : position ∈ offsets) :
    ∃ next, Understood last next := by
  cases writtenOut with
  | done _ => cases member
  | @plain _ item placed written offsets notUnderstood later =>
      -- The signs behind the first token stand behind the beginning of the text.
      obtain ⟨least, increase⟩ := lexed.positions_increase
      obtain ⟨other, otherLater, same⟩ := later.mem_positions member
      have here := least item List.mem_cons_self
      have behind := (List.pairwise_cons.mp increase).1 other otherLater
      omega
  | signed understood _ => exact ⟨_, understood⟩

/-- The signs of a text stand at its offset or behind it. -/
theorem WrittenOut.le_offset
    {last : Option Token}
    {placed written : List PlacedToken}
    (writtenOut : WrittenOut last placed written offsets)
    (lexed : Lexed position text placed)
    (offset : Nat)
    (member : offset ∈ offsets) :
    position ≤ offset := by
  obtain ⟨item, itemMember, rfl⟩ := writtenOut.mem_positions member
  exact lexed.positions_increase.1 item itemMember

/-- A lexeme in front of a text with stars is one of its lexemes still. -/
theorem IsLongest.lexeme_before_stars
    {placed written : List PlacedToken}
    (longest : IsLongest (lexeme ++ rest) lexeme token)
    (lexed : Lexed (position + byteLength lexeme) rest placed)
    (later : WrittenOut (some token) placed written offsets) :
    withStars offsets position (lexeme ++ rest) =
        lexeme ++ withStars offsets (position + byteLength lexeme) rest ∧
      IsLongest (lexeme ++ withStars offsets (position + byteLength lexeme) rest)
        lexeme token := by
  constructor
  · rw [withStars_append, withStars_eq_self (later.le_offset lexed)]
  · refine longest.before_stars ?_
    intro member
    obtain ⟨_, understood⟩ := later.exists_understood lexed member
    exact understood.previous_ne_star

/-- A text with its understood signs written into it spells its tokens with these signs. -/
theorem Lexed.spells_withStars
    {last : Option Token}
    {placed written : List PlacedToken}
    (lexed : Lexed position text placed)
    (writtenOut : WrittenOut last placed written offsets) :
    Spells (withStars offsets position text) (written.map PlacedToken.token) := by
  induction lexed generalizing last written offsets with
  | done _ =>
      cases writtenOut
      exact .nil
  | @blank position character rest placed isBlank lexed inductionHypothesis =>
      have behind : ∀ offset ∈ offsets, position < offset := fun offset member =>
        Nat.lt_of_lt_of_le (Nat.lt_add_of_pos_right character.utf8Size_pos)
          (writtenOut.le_offset lexed offset member)
      rw [withStars_cons_of_before behind]
      exact (inductionHypothesis writtenOut).blank isBlank
  | @lexeme position lexeme rest token placed longest lexed inductionHypothesis =>
      cases writtenOut with
      | plain _ later =>
          obtain ⟨same, stillLongest⟩ := longest.lexeme_before_stars lexed later
          rw [same]
          exact .lexeme stillLongest (inductionHypothesis later)
      | @signed _ _ _ written offsets understood later =>
          obtain ⟨same, stillLongest⟩ := longest.lexeme_before_stars lexed later
          have spelled := Spells.lexeme stillLongest (inductionHypothesis later)
          have noStar := understood.star_notMem longest.isLexeme
          have positive := longest.isLexeme.length_pos
          obtain ⟨first, others, rfl⟩ := List.exists_cons_of_length_pos positive
          have behind : ∀ offset ∈ offsets, position < offset := fun offset member =>
            Nat.lt_of_lt_of_le (Nat.lt_add_of_pos_right (byteLength_pos positive))
              (later.le_offset lexed offset member)
          rw [List.cons_append, withStars_cons_self behind, ← List.cons_append, same]
          refine spelled.symbol '*' rfl (symbolLength_star ?_)
          rintro rfl
          exact noStar List.mem_cons_self

end Token

namespace Formula

open Token

/-- The text of a formula with a star at each of the byte offsets. -/
def starred (source : String) (offsets : List Nat) : String :=
  String.ofList (withStars offsets 0 source.toList)

/-- Formulas with the same tokens, signs included, are read as the same tree or refused alike. -/
theorem compile_agree
    {source other : String}
    {placed moved : List PlacedToken}
    (scanned : scan source.toList = .ok placed)
    (otherScanned : scan other.toList = .ok moved)
    (same :
      (insertProducts placed).map PlacedToken.token =
        (insertProducts moved).map PlacedToken.token)
    (bound : List Coordinate) :
    Parser.Agree
      ((compile bound source).map Formula.tree)
      ((compile bound other).map Formula.tree) := by
  simp only [compile, tokenize, scanned, otherScanned, Except.map]
  rcases (Parser.parse_agree bound same).outcomes with
      ⟨tree, parsed, parsedOther⟩ | ⟨fault, faultOther, failed, failedOther, sameFault⟩
  · simp only [parsed, parsedOther]
    exact .ok tree
  · simp only [failed, failedOther]
    exact .error sameFault

/--
Understood product signs are only an abbreviation.  They stand exactly between the neighbours that
imply them, the tokens of the text stay in order, and a second pass finds nothing to add.  Written
into the text as stars they are tokens of it, none is understood any more, and the formula is read
as the same tree or refused for the same reason.
-/
theorem products_only_abbreviate
    {source : String}
    {placed : List PlacedToken}
    (scanned : scan source.toList = .ok placed) :
    WrittenOut none placed (insertProducts placed) (signOffsets placed) ∧
    placed.Sublist (insertProducts placed) ∧
    insertProducts (insertProducts placed) = insertProducts placed ∧
    (∃ written,
      scan (starred source (signOffsets placed)).toList = .ok written ∧
      written.map PlacedToken.token = (insertProducts placed).map PlacedToken.token ∧
      insertProducts written = written) ∧
    ∀ bound,
      Parser.Agree
        ((compile bound source).map Formula.tree)
        ((compile bound (starred source (signOffsets placed))).map Formula.tree) := by
  have writtenOut := insertProducts_writtenOut placed
  have spelled : Spells (starred source (signOffsets placed)).toList
      ((insertProducts placed).map PlacedToken.token) := by
    rw [starred, String.toList_ofList]
    exact (scan_eq_ok_iff_lexed.mp scanned).spells_withStars writtenOut
  obtain ⟨written, starredScanned, same⟩ := exists_scan_iff_spells.mpr spelled
  have complete := insertProducts_of_same same
  refine ⟨writtenOut, writtenOut.sublist, insertProducts_insertProducts placed,
    ⟨written, starredScanned, same, complete⟩, fun bound => ?_⟩
  refine compile_agree scanned starredScanned ?_ bound
  rw [complete, same]

/--
The sign in `2e+3x` stands behind the whole number, `**` stays one operator and the tree is the
same one.
-/
theorem products_abbreviated_in_text :
    starred "2e+3x**(y)4" [4, 10] = "2e+3*x**(y)*4" ∧
      Parser.Agree
        ((parse "2e+3x**(y)4").map Formula.tree)
        ((parse "2e+3*x**(y)*4").map Formula.tree) := by
  have text : starred "2e+3x**(y)4" [4, 10] = "2e+3*x**(y)*4" := rfl
  have scanned :
      scan "2e+3x**(y)4".toList =
        .ok
          [⟨.number ⟨2, 3⟩, 0⟩, ⟨.identifier "x", 4⟩, ⟨.doubleStar, 5⟩,
            ⟨.leftParenthesis, 7⟩, ⟨.identifier "y", 8⟩, ⟨.rightParenthesis, 9⟩,
            ⟨.number ⟨4, 0⟩, 10⟩] := by
    rfl
  obtain ⟨_, _, _, _, agree⟩ := products_only_abbreviate scanned
  refine ⟨text, ?_⟩
  rw [← text]
  exact agree Coordinate.all

end Formula

end Electrostatics
