import Electrostatics.Proofs.Formula.Composition
import Electrostatics.Text.WhiteSpace
import Mathlib.Data.List.TakeWhile

namespace Electrostatics

/-!
# White space around a formula

No lexeme contains white space, so white space behind a text changes none of its lexemes.  A
formula that is read is therefore read the same without the white space at its ends.
-/

/-- A text of nothing but white space. -/
def IsBlankText (text : List Char) : Prop :=
  ∀ character ∈ text, isWhiteSpace character = true

/-- A text without any white space. -/
def IsSolid (text : List Char) : Prop :=
  ∀ character ∈ text, isWhiteSpace character = false

theorem not_isWhiteSpace_of_visible
    {character : Char}
    (above : 0x20 < character.toNat)
    (below : character.toNat < 0x85) :
    isWhiteSpace character = false := by
  simp only [isWhiteSpace, CodeRanges.contains, whiteSpaceRanges, List.any_cons, List.any_nil,
    Bool.or_false, Bool.or_eq_false_iff, Bool.and_eq_false_iff, decide_eq_false_iff_not]
  omega

/-- A text is its trimmed text between white space. -/
theorem exists_margins (text : String) :
    ∃ front behind,
      text.toList = front ++ ((trimmed text).toList ++ behind) ∧
        IsBlankText front ∧ IsBlankText behind := by
  let core := text.toList.dropWhile isWhiteSpace
  refine ⟨text.toList.takeWhile isWhiteSpace, (core.reverse.takeWhile isWhiteSpace).reverse, ?_,
    fun _ => List.mem_takeWhile_imp, ?_⟩
  · have cut :
        (trimmed text).toList ++ (core.reverse.takeWhile isWhiteSpace).reverse = core := by
      rw [trimmed, String.toList_ofList, ← List.reverse_append,
        List.takeWhile_append_dropWhile, List.reverse_reverse]
    rw [cut, List.takeWhile_append_dropWhile]
  · intro character member
    exact List.mem_takeWhile_imp (List.mem_reverse.mp member)

/-- White space around a text is trimmed with what the text itself has. -/
theorem trimmed_of_margins
    {front text behind : List Char}
    (frontBlank : IsBlankText front)
    (behindBlank : IsBlankText behind) :
    trimmed (String.ofList (front ++ (text ++ behind))) = trimmed (String.ofList text) := by
  have reversedBlank : IsBlankText behind.reverse :=
    fun character member => behindBlank character (List.mem_reverse.mp member)
  simp only [trimmed, String.toList_ofList, List.dropWhile_append_of_pos frontBlank,
    List.dropWhile_append]
  split
  case isTrue nothing =>
    rw [List.isEmpty_iff.mp nothing, List.dropWhile_eq_nil_iff.mpr behindBlank]
  case isFalse =>
    rw [List.reverse_append, List.dropWhile_append_of_pos reversedBlank]

namespace Token

theorem not_isWhiteSpace_of_isDigit
    {character : Char}
    (isDigit : character.isDigit = true) :
    isWhiteSpace character = false := by
  obtain ⟨low, high⟩ := Char.isDigit_iff_toNat.mp isDigit
  exact not_isWhiteSpace_of_visible (Nat.lt_of_lt_of_le (by decide) low)
    (Nat.lt_of_le_of_lt high (by decide))

/-- No letter stands behind the last small one. -/
theorem toNat_le_of_isAlpha
    {character : Char}
    (isAlpha : character.isAlpha = true) :
    character.toNat ≤ 'z'.toNat := by
  rcases Bool.or_eq_true_iff.mp isAlpha with upper | lower
  · have bounds := of_decide_eq_true upper
    exact Nat.le_trans (UInt32.le_iff_toNat_le.mp bounds.2) (by decide)
  · have bounds := Bool.and_eq_true_iff.mp lower
    exact UInt32.le_iff_toNat_le.mp (of_decide_eq_true bounds.2)

theorem not_isWhiteSpace_of_continuesName
    {character : Char}
    (continues : continuesName character = true) :
    isWhiteSpace character = false := by
  rcases Bool.or_eq_true_iff.mp continues with isAlphanum | underscore
  · rcases Bool.or_eq_true_iff.mp isAlphanum with isAlpha | isDigit
    · exact not_isWhiteSpace_of_visible
        (Nat.lt_of_lt_of_le (by decide) (toNat_of_isAlpha isAlpha))
        (Nat.lt_of_le_of_lt (toNat_le_of_isAlpha isAlpha) (by decide))
    · exact not_isWhiteSpace_of_isDigit isDigit
  · obtain rfl := beq_iff_eq.mp underscore
    rfl

theorem continuesName_of_startsName
    {character : Char}
    (starts : startsName character = true) :
    continuesName character = true := by
  have either := Bool.or_eq_true_iff.mp starts
  exact Bool.or_eq_true_iff.mpr
    (either.imp_left fun isAlpha => Bool.or_eq_true_iff.mpr (.inl isAlpha))

theorem not_isWhiteSpace_of_symbol
    {character : Char}
    {token : Token}
    (isSymbol : ofSymbol? character = some token) :
    isWhiteSpace character = false := by
  unfold ofSymbol? at isSymbol
  split at isSymbol
  case h_9 => cases isSymbol
  all_goals rfl

/-- No lexeme contains white space. -/
theorem IsLexeme.isSolid
    {lexeme : List Char}
    {token : Token}
    (isLexeme : IsLexeme lexeme token) :
    IsSolid lexeme := by
  cases isLexeme with
  | number isNumeral =>
      intro character member
      have marks : ['.', 'e', 'E', '+', '-'].all (fun mark => !isWhiteSpace mark) = true := rfl
      rcases isNumeral.isDigit_or_mark member with isDigit | isMark
      · exact not_isWhiteSpace_of_isDigit isDigit
      · simpa using List.all_eq_true.mp marks character isMark
  | name starts continues =>
      have first := not_isWhiteSpace_of_continuesName (continuesName_of_startsName starts)
      exact List.forall_mem_cons.mpr ⟨first, fun character member =>
        not_isWhiteSpace_of_continuesName (continues character member)⟩
  | doubleStar => exact List.forall_mem_cons.mpr ⟨rfl, List.forall_mem_singleton.mpr rfl⟩
  | symbol isSymbol =>
      exact List.forall_mem_singleton.mpr (not_isWhiteSpace_of_symbol isSymbol)

/-- A lexeme at the start of a text ends before the white space behind the text. -/
theorem IsLexeme.begins_of_append
    {lexeme text behind : List Char}
    {token : Token}
    (isLexeme : IsLexeme lexeme token)
    (blank : IsBlankText behind)
    (begins : lexeme <+: text ++ behind) :
    lexeme <+: text := by
  by_cases inside : lexeme.length ≤ text.length
  · exact List.prefix_of_prefix_length_le begins (List.prefix_append text behind) inside
  · -- A lexeme that reaches over the text contains white space.
    have reached : text <+: lexeme :=
      List.prefix_of_prefix_length_le (List.prefix_append text behind) begins (by omega)
    obtain ⟨beyond, rfl⟩ := reached
    rw [List.prefix_append_right_inj] at begins
    cases beyond with
    | nil => simp at inside
    | cons first rest =>
        have white := blank first (begins.subset List.mem_cons_self)
        have solid := isLexeme.isSolid first (by simp)
        cases white.symm.trans solid

/-- White space behind a text does not change which lexeme the text begins with. -/
theorem lexemeLength_append_blank
    {behind : List Char}
    (blank : IsBlankText behind)
    (text : List Char) :
    lexemeLength (text ++ behind) = lexemeLength text := by
  refine le_antisymm ?_ ?_
  · by_cases measured : lexemeLength (text ++ behind) = 0
    · omega
    · obtain ⟨lexeme, token, rest, cut, isLexeme, length⟩ := exists_isLexeme measured
      obtain ⟨others, rfl⟩ := isLexeme.begins_of_append blank ⟨rest, cut.symm⟩
      rw [← length]
      exact isLexeme.length_le others
  · by_cases measured : lexemeLength text = 0
    · omega
    · obtain ⟨lexeme, token, rest, rfl, isLexeme, length⟩ := exists_isLexeme measured
      rw [← length, List.append_assoc]
      exact isLexeme.length_le (rest ++ behind)

/-- White space behind a text has no tokens. -/
theorem Lexed.of_append_blank
    {position : Nat}
    {text behind : List Char}
    {placed : List PlacedToken}
    (blank : IsBlankText behind)
    (lexed : Lexed position (text ++ behind) placed) :
    Lexed position text placed := by
  generalize whole : text ++ behind = spelling at lexed
  induction lexed generalizing text behind with
  | done position =>
      obtain ⟨rfl, _⟩ := List.append_eq_nil_iff.mp whole
      exact .done position
  | @blank position character rest placed isBlank _ inductionHypothesis =>
      cases text with
      | cons _ others =>
          obtain ⟨rfl, behindText⟩ := List.cons.inj whole
          exact .blank isBlank (inductionHypothesis blank behindText)
      | nil =>
          -- The text has ended, and what was read here belongs to the white space.
          subst whole
          have restBlank : IsBlankText rest := fun other member =>
            blank other (List.mem_cons_of_mem _ member)
          have nothing := inductionHypothesis restBlank (List.nil_append rest)
          obtain rfl : [] = placed := Except.ok.inj nothing.scanFrom_eq
          exact .done position
  | @lexeme position lexeme rest token placed longest _ inductionHypothesis =>
      obtain ⟨others, rfl⟩ :=
        longest.isLexeme.begins_of_append blank ⟨rest, whole.symm⟩
      rw [List.append_assoc, List.append_cancel_left_eq] at whole
      subst whole
      refine .lexeme ?_ (inductionHypothesis blank rfl)
      have length := longest.length_eq
      rw [← List.append_assoc, lexemeLength_append_blank blank] at length
      exact isLongest_of_isLexeme longest.isLexeme length

/-- White space in front of a text has no tokens. -/
theorem Lexed.of_blank_append
    {position : Nat}
    {front text : List Char}
    {placed : List PlacedToken}
    (blank : IsBlankText front)
    (lexed : Lexed position (front ++ text) placed) :
    Lexed (position + byteLength front) text placed := by
  induction front generalizing position with
  | nil => exact lexed
  | cons first others inductionHypothesis =>
      obtain ⟨white, othersBlank⟩ := List.forall_mem_cons.mp blank
      generalize whole : first :: others ++ text = spelling at lexed
      cases lexed with
      | done => cases whole
      | blank _ lexed =>
          obtain ⟨rfl, rfl⟩ := List.cons.inj whole
          have read := inductionHypothesis othersBlank lexed
          rwa [Nat.add_assoc] at read
      | @lexeme _ lexeme _ _ _ longest _ =>
          have solid := longest.isLexeme.isSolid
          cases lexeme with
          | nil => exact absurd longest.isLexeme.length_pos (Nat.lt_irrefl 0)
          | cons start _ =>
              obtain ⟨rfl, _⟩ := List.cons.inj whole
              cases white.symm.trans (solid first List.mem_cons_self)

/-- The white space at the ends of a text spells nothing. -/
theorem Spells.trimmed
    {source : String}
    {tokens : List Token}
    (spelled : Spells source.toList tokens) :
    Spells (Electrostatics.trimmed source).toList tokens := by
  obtain ⟨front, behind, cut, frontBlank, behindBlank⟩ := exists_margins source
  obtain ⟨placed, lexed, rfl⟩ := spelled 0
  rw [cut] at lexed
  exact ((lexed.of_blank_append frontBlank).of_append_blank behindBlank).spells

end Token

/-- A formula is read the same without the white space at its ends. -/
theorem Formula.compilesTo_trimmed
    {bound : List Coordinate}
    {source : String}
    {formula : Formula}
    (compiled : compile bound source = .ok formula) :
    CompilesTo bound (Electrostatics.trimmed source) formula.tree := by
  obtain ⟨tokens, spelled, derived⟩ := exists_spells_of_compile compiled
  exact compilesTo_of_spells spelled.trimmed derived

end Electrostatics
