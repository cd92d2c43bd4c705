import Electrostatics.Proofs.Formula.Binding
import Electrostatics.Proofs.Formula.LastError
import Electrostatics.Proofs.Formula.Margins
import Electrostatics.Proofs.Formula.Refusals

namespace Electrostatics

open Grammar

/-!
# Renaming the axes in a formula

The Cartesian coordinates of a formula can be renamed in turn, each to the next one.  Their
names are single letters, so that the text keeps its lexemes where it had them; it is then
read as the renamed tree, and has at a renamed point the value that it had before.
-/

namespace Coordinate

/-- The coordinate behind a coordinate in the turn of the axes; only Cartesian ones take part. -/
def rotated : Coordinate → Coordinate
  | .x => .y
  | .y => .z
  | .z => .x
  | other => other

/-- The name that stands for a name when the axes are renamed. -/
def rotatedName (name : String) : String :=
  ((named? name).map (fun coordinate => coordinate.rotated.name)).getD name

theorem rotatedName_name (coordinate : Coordinate) :
    rotatedName coordinate.name = coordinate.rotated.name := by
  simp [rotatedName, named?_name]

theorem rotatedName_of_unnamed
    {name : String}
    (unnamed : named? name = none) :
    rotatedName name = name := by
  simp [rotatedName, unnamed]

end Coordinate

/-- The tree with the axes renamed. -/
def Expr.rotated : Expr → Expr
  | .number value => .number value
  | .constant name => .constant name
  | .coordinate name => .coordinate name.rotated
  | .negation operand => .negation operand.rotated
  | .operation operator left right => .operation operator left.rotated right.rotated
  | .call function argument => .call function argument.rotated
  | .callPair function first second => .callPair function first.rotated second.rotated

namespace Token

/-- The token with the axes renamed. -/
def rotated : Token → Token
  | .identifier name => .identifier (Coordinate.rotatedName name)
  | other => other

/--
The text with the axes renamed, lexeme by lexeme.  The first argument counts the characters
that still belong to the lexeme written last.
-/
def rotatedFrom : (pending : Nat) → List Char → List Char
  | _, [] => []
  | pending + 1, _ :: rest => rotatedFrom pending rest
  | 0, character :: rest =>
      match lexemeLength (character :: rest) with
      | 0 => character :: rotatedFrom 0 rest
      | more + 1 =>
          let lexeme := (character :: rest).take (more + 1)
          (Coordinate.rotatedName (String.ofList lexeme)).toList ++ rotatedFrom more rest

/-! ## Letters that take each other's place -/

/-- The letters that name an axis. -/
def axisLetters : List Char :=
  ['x', 'y', 'z']

/-- Texts that are the same but for the letters of axes. -/
def Alike (first second : List Char) : Prop :=
  List.Forall₂
    (fun before after => before = after ∨ before ∈ axisLetters ∧ after ∈ axisLetters)
    first second

variable
  {first second lexeme rest text : List Char}
  {token : Token}

theorem Alike.refl (text : List Char) : Alike text text :=
  List.forall₂_same.mpr fun _ _ => .inl rfl

theorem Alike.symm (alike : Alike first second) : Alike second first :=
  alike.flip.imp fun _ _ either => either.imp Eq.symm And.symm

theorem Alike.append
    {firstBehind secondBehind : List Char}
    (alike : Alike first second)
    (behind : Alike firstBehind secondBehind) :
    Alike (first ++ firstBehind) (second ++ secondBehind) :=
  List.rel_append alike behind

/-- A text without the letter of an axis is like no other one. -/
theorem Alike.eq_of_no_letter
    (alike : Alike first second)
    (noLetter : ∀ character ∈ first, character ∉ axisLetters) :
    first = second := by
  induction alike with
  | nil => rfl
  | cons either _ inductionHypothesis =>
      obtain ⟨noFirst, noOther⟩ := List.forall_mem_cons.mp noLetter
      obtain rfl := either.resolve_right fun letters => noFirst letters.1
      rw [inductionHypothesis noOther]

/-- The letters of axes are letters of names. -/
theorem Alike.continuesName
    (alike : Alike first second)
    (continues : ∀ character ∈ first, continuesName character = true) :
    ∀ character ∈ second, Token.continuesName character = true := by
  have letters : axisLetters.all Token.continuesName = true := rfl
  induction alike with
  | nil => exact nofun
  | cons either _ inductionHypothesis =>
      obtain ⟨firstContinues, othersContinue⟩ := List.forall_mem_cons.mp continues
      refine List.forall_mem_cons.mpr ⟨?_, inductionHypothesis othersContinue⟩
      rcases either with rfl | ⟨-, letter⟩
      · exact firstContinues
      · exact List.all_eq_true.mp letters _ letter

/-- What is like a lexeme is one. -/
theorem IsLexeme.exists_of_alike
    (isLexeme : IsLexeme lexeme token)
    (alike : Alike lexeme text) :
    ∃ other, IsLexeme text other := by
  cases isLexeme with
  | number isNumeral =>
      have noDigit : axisLetters.all (fun letter => !letter.isDigit) = true := rfl
      have noMark :
          axisLetters.all (fun letter => !(['.', 'e', 'E', '+', '-'].contains letter)) = true :=
        rfl
      have noLetter : ∀ character ∈ lexeme, character ∉ axisLetters := by
        intro character member letter
        rcases isNumeral.isDigit_or_mark member with isDigit | isMark
        · simpa [isDigit] using List.all_eq_true.mp noDigit character letter
        · simpa [isMark] using List.all_eq_true.mp noMark character letter
      obtain rfl := alike.eq_of_no_letter noLetter
      exact ⟨_, .number isNumeral⟩
  | name starts continues =>
      have letters : axisLetters.all startsName = true := rfl
      cases alike with
      | cons either others =>
          refine ⟨_, .name ?_ (Alike.continuesName others continues)⟩
          rcases either with rfl | ⟨-, letter⟩
          · exact starts
          · exact List.all_eq_true.mp letters _ letter
  | doubleStar =>
      have noLetter : '*' ∉ axisLetters := by decide
      obtain rfl := alike.eq_of_no_letter
        (List.forall_mem_cons.mpr ⟨noLetter, List.forall_mem_singleton.mpr noLetter⟩)
      exact ⟨_, .doubleStar⟩
  | @symbol character token isSymbol =>
      have noSymbol : axisLetters.all (fun letter => (ofSymbol? letter).isNone) = true := rfl
      have noLetter : character ∉ axisLetters := by
        intro letter
        simpa [isSymbol] using List.all_eq_true.mp noSymbol character letter
      obtain rfl := alike.eq_of_no_letter (List.forall_mem_singleton.mpr noLetter)
      exact ⟨_, .symbol isSymbol⟩

theorem lexemeLength_le_of_alike (alike : Alike first second) :
    lexemeLength first ≤ lexemeLength second := by
  by_cases measured : lexemeLength first = 0
  · omega
  · obtain ⟨lexeme, token, rest, rfl, isLexeme, length⟩ := exists_isLexeme measured
    have begins := List.forall₂_take_append second lexeme rest alike.symm
    obtain ⟨other, otherLexeme⟩ := isLexeme.exists_of_alike (Alike.symm begins)
    have bound := otherLexeme.length_le (second.drop lexeme.length)
    rwa [List.take_append_drop, begins.length_eq, length] at bound

/-- Lexemes end at the same places in texts that are alike. -/
theorem lexemeLength_of_alike (alike : Alike first second) :
    lexemeLength first = lexemeLength second :=
  le_antisymm (lexemeLength_le_of_alike alike) (lexemeLength_le_of_alike alike.symm)

/-! ## Renamed lexemes -/

theorem isLexeme_name (coordinate : Coordinate) :
    IsLexeme coordinate.name.toList (.identifier coordinate.name) := by
  cases coordinate <;> exact .name rfl (List.all_eq_true.mp rfl)

/-- A lexeme that is the name of a coordinate stands for this name. -/
theorem IsLexeme.eq_identifier
    {coordinate : Coordinate}
    (isLexeme : IsLexeme coordinate.name.toList token) :
    token = .identifier coordinate.name :=
  isLexeme.ofLexeme_eq.symm.trans (isLexeme_name coordinate).ofLexeme_eq

theorem IsLexeme.rotated
    (isLexeme : IsLexeme lexeme token) :
    IsLexeme (Coordinate.rotatedName (String.ofList lexeme)).toList token.rotated := by
  cases named : Coordinate.named? (String.ofList lexeme) with
  | some coordinate =>
      have spelling := Coordinate.named?_eq_some_iff.mp named
      obtain rfl : coordinate.name.toList = lexeme := by rw [spelling, String.toList_ofList]
      obtain rfl := isLexeme.eq_identifier
      rw [Token.rotated, String.ofList_toList, Coordinate.rotatedName_name]
      exact isLexeme_name coordinate.rotated
  | none =>
      have same := Coordinate.rotatedName_of_unnamed named
      have sameToken : token.rotated = token := by
        cases isLexeme with
        | number _ => rfl
        | name _ _ => exact congrArg Token.identifier same
        | doubleStar => rfl
        | symbol isSymbol =>
            unfold ofSymbol? at isSymbol
            split at isSymbol <;> cases isSymbol <;> rfl
      rw [same, sameToken, String.toList_ofList]
      exact isLexeme

/-- The name of an axis is renamed by a letter. -/
theorem alike_rotatedName (lexeme : List Char) :
    Alike lexeme (Coordinate.rotatedName (String.ofList lexeme)).toList := by
  cases named : Coordinate.named? (String.ofList lexeme) with
  | some coordinate =>
      have spelling := Coordinate.named?_eq_some_iff.mp named
      obtain rfl : coordinate.name.toList = lexeme := by rw [spelling, String.toList_ofList]
      rw [String.ofList_toList, Coordinate.rotatedName_name]
      have letter : ∀ before ∈ axisLetters, ∀ after ∈ axisLetters, Alike [before] [after] :=
        fun before isBefore after isAfter => .cons (.inr ⟨isBefore, isAfter⟩) .nil
      cases coordinate with
      | x => exact letter 'x' (by decide) 'y' (by decide)
      | y => exact letter 'y' (by decide) 'z' (by decide)
      | z => exact letter 'z' (by decide) 'x' (by decide)
      | r => exact Alike.refl _
      | rho => exact Alike.refl _
      | theta => exact Alike.refl _
      | phi => exact Alike.refl _
  | none =>
      rw [Coordinate.rotatedName_of_unnamed named, String.toList_ofList]
      exact Alike.refl lexeme

theorem rotatedFrom_pending (lexeme rest : List Char) :
    rotatedFrom lexeme.length (lexeme ++ rest) = rotatedFrom 0 rest := by
  induction lexeme with
  | nil => rfl
  | cons character others inductionHypothesis => exact inductionHypothesis

theorem rotatedFrom_of_no_lexeme
    {character : Char}
    (noLexeme : lexemeLength (character :: rest) = 0) :
    rotatedFrom 0 (character :: rest) = character :: rotatedFrom 0 rest := by
  simp [rotatedFrom, noLexeme]

/-- A lexeme is renamed as a whole. -/
theorem rotatedFrom_lexeme
    (longest : IsLongest (lexeme ++ rest) lexeme token) :
    rotatedFrom 0 (lexeme ++ rest) =
      (Coordinate.rotatedName (String.ofList lexeme)).toList ++ rotatedFrom 0 rest := by
  have measured := longest.length_eq
  cases lexeme with
  | nil => exact absurd longest.isLexeme.length_pos (Nat.lt_irrefl 0)
  | cons first others =>
      have pending := rotatedFrom_pending others rest
      simp only [List.cons_append, List.length_cons] at measured
      simp [rotatedFrom, ← measured, pending]

theorem Spells.blank
    {character : Char}
    {tokens : List Token}
    (isBlank : Token.isBlank character = true)
    (spelled : Spells text tokens) :
    Spells (character :: text) tokens := by
  intro position
  obtain ⟨placed, lexed, same⟩ := spelled (position + character.utf8Size)
  exact ⟨placed, .blank isBlank lexed, same⟩

/-- A text that can be read spells the renamed tokens when it is renamed. -/
theorem Lexed.rotated
    {position : Nat}
    {placed : List PlacedToken}
    (lexed : Lexed position text placed) :
    Alike text (rotatedFrom 0 text) ∧
      Spells (rotatedFrom 0 text) (placed.map fun token => token.token.rotated) := by
  induction lexed with
  | done _ => exact ⟨.nil, .nil⟩
  | blank isBlank _ inductionHypothesis =>
      obtain ⟨alike, spelled⟩ := inductionHypothesis
      rw [rotatedFrom_of_no_lexeme (lexemeLength_of_isBlank isBlank _)]
      exact ⟨.cons (.inl rfl) alike, spelled.blank isBlank⟩
  | @lexeme _ lexeme rest token _ longest _ inductionHypothesis =>
      obtain ⟨alike, spelled⟩ := inductionHypothesis
      have renamed := alike_rotatedName lexeme
      have whole := renamed.append alike
      have length := longest.length_eq
      rw [renamed.length_eq, lexemeLength_of_alike whole] at length
      rw [rotatedFrom_lexeme longest]
      exact ⟨whole, spelled.lexeme (isLongest_of_isLexeme longest.isLexeme.rotated length)⟩

theorem Spells.rotated
    {tokens : List Token}
    (spelled : Spells text tokens) :
    Spells (rotatedFrom 0 text) (tokens.map Token.rotated) := by
  obtain ⟨placed, lexed, rfl⟩ := spelled 0
  rw [List.map_map]
  exact lexed.rotated.2

theorem impliesProduct_rotated (first second : Token) :
    impliesProduct first.rotated second.rotated = impliesProduct first second := by
  cases first <;> cases second <;> rfl

/-- Product signs are understood at the same places. -/
theorem writtenOut_map_rotated (tokens : List Token) :
    writtenOut (tokens.map rotated) = (writtenOut tokens).map rotated := by
  induction tokens with
  | nil => rfl
  | cons first others inductionHypothesis =>
      cases others with
      | nil => rfl
      | cons second rest =>
          simp only [List.map_cons] at inductionHypothesis
          simp only [List.map_cons, writtenOut, impliesProduct_rotated, inductionHypothesis]
          split <;> rfl

theorem lexemeLength_of_isWhiteSpace
    {character : Char}
    (white : isWhiteSpace character = true)
    (rest : List Char) :
    lexemeLength (character :: rest) = 0 := by
  by_contra measured
  obtain ⟨lexeme, token, behind, cut, isLexeme, -⟩ := exists_isLexeme measured
  cases lexeme with
  | nil => exact Nat.lt_irrefl 0 isLexeme.length_pos
  | cons first others =>
      obtain ⟨rfl, -⟩ := List.cons.inj cut
      cases white.symm.trans (isLexeme.isSolid character List.mem_cons_self)

theorem rotatedFrom_blank_append
    {front : List Char}
    (blank : IsBlankText front)
    (text : List Char) :
    rotatedFrom 0 (front ++ text) = front ++ rotatedFrom 0 text := by
  induction front with
  | nil => rfl
  | cons first others inductionHypothesis =>
      obtain ⟨white, othersBlank⟩ := List.forall_mem_cons.mp blank
      rw [List.cons_append, rotatedFrom_of_no_lexeme (lexemeLength_of_isWhiteSpace white _),
        inductionHypothesis othersBlank, List.cons_append]

/-- White space behind a text stays as it is. -/
theorem Lexed.rotatedFrom_append_blank
    {position : Nat}
    {placed : List PlacedToken}
    {behind : List Char}
    (lexed : Lexed position text placed)
    (blank : IsBlankText behind) :
    rotatedFrom 0 (text ++ behind) = rotatedFrom 0 text ++ behind := by
  induction lexed with
  | done _ =>
      have nothing := rotatedFrom_blank_append blank []
      rw [List.append_nil, rotatedFrom, List.append_nil] at nothing
      exact nothing
  | blank isBlank _ inductionHypothesis =>
      rw [List.cons_append, rotatedFrom_of_no_lexeme (lexemeLength_of_isBlank isBlank _),
        rotatedFrom_of_no_lexeme (lexemeLength_of_isBlank isBlank _), inductionHypothesis,
        List.cons_append]
  | lexeme longest _ inductionHypothesis =>
      have length := longest.length_eq
      rw [← lexemeLength_append_blank blank, List.append_assoc] at length
      have longer := isLongest_of_isLexeme longest.isLexeme length
      rw [List.append_assoc, rotatedFrom_lexeme longer, rotatedFrom_lexeme longest,
        inductionHypothesis, List.append_assoc]

end Token

/-! ## Renamed sentences -/

theorem Meaning.named?_rotatedName
    {name : String}
    (other : ∀ coordinate, named? name ≠ some (.coordinate coordinate)) :
    named? (Coordinate.rotatedName name) = named? name := by
  cases named : Coordinate.named? name with
  | none => rw [Coordinate.rotatedName_of_unnamed named]
  | some coordinate => exact absurd (by simp [named?, named]) (other coordinate)

theorem Meaning.named?_coordinate (coordinate : Coordinate) :
    named? coordinate.name = some (.coordinate coordinate) := by
  simp [named?, Coordinate.named?_name]

/-- A phrase with the axes renamed is a phrase for the renamed tree. -/
theorem Grammar.Derives.rotated
    {category : Category}
    {tokens : List Token}
    {tree : Expr}
    (derived : Derives Coordinate.all category tokens tree) :
    Derives Coordinate.all category (tokens.map Token.rotated) tree.rotated := by
  induction derived with
  | sumOfProduct _ inductionHypothesis => exact .sumOfProduct inductionHypothesis
  | productOfUnary _ inductionHypothesis => exact .productOfUnary inductionHypothesis
  | unaryOfPower _ inductionHypothesis => exact .unaryOfPower inductionHypothesis
  | powerOfPrimary _ inductionHypothesis => exact .powerOfPrimary inductionHypothesis
  | @operation _ sign _ _ _ _ isOperator _ _ leftHypothesis rightHypothesis =>
      have sameSign : sign.rotated = sign := by cases sign <;> first | rfl | cases isOperator
      rw [List.map_append, List.map_cons, sameSign]
      exact .operation isOperator leftHypothesis rightHypothesis
  | negative _ inductionHypothesis => exact .negative inductionHypothesis
  | positive _ inductionHypothesis => exact .positive inductionHypothesis
  | number value => exact .number value
  | @coordinate _ coordinate named _ =>
      obtain rfl := name_of_named? named
      rw [List.map_singleton, Token.rotated, Coordinate.rotatedName_name]
      exact .coordinate (Meaning.named?_coordinate _) coordinate.rotated.mem_all
  | constant named =>
      refine .constant ?_
      rw [Meaning.named?_rotatedName (by simp [named]), named]
  | group _ inductionHypothesis =>
      rw [List.map_append, List.map_cons]
      exact .group inductionHypothesis
  | callOne named ofOne _ inductionHypothesis =>
      simp only [List.map_append, List.map_cons]
      refine .callOne ?_ ofOne inductionHypothesis
      rw [Meaning.named?_rotatedName (by simp [named]), named]
  | callTwo named ofTwo _ _ firstHypothesis secondHypothesis =>
      simp only [List.map_append, List.map_cons]
      refine .callTwo ?_ ofTwo firstHypothesis secondHypothesis
      rw [Meaning.named?_rotatedName (by simp [named]), named]

namespace Formula

/-- The text of a formula with the axes renamed. -/
def rotatedText (source : String) : String :=
  String.ofList (Token.rotatedFrom 0 source.toList)

/-- The formula with the axes renamed. -/
def rotated (formula : Formula) : Formula :=
  { formula with source := rotatedText formula.source, tree := formula.tree.rotated }

/-- A text with the axes renamed is read as the renamed tree. -/
theorem parse_rotatedText
    {source : String}
    {formula : Formula}
    (parsed : parse source = .ok formula) :
    parse (rotatedText source) = .ok formula.rotated := by
  obtain ⟨tokens, spelled, derived⟩ := exists_spells_of_compile parsed
  obtain ⟨tree, rfl⟩ := exists_tree_of_compile parsed
  have renamed : Token.Spells (rotatedText source).toList (tokens.map Token.rotated) := by
    rw [rotatedText, String.toList_ofList]
    exact spelled.rotated
  refine compilesTo_of_spells renamed ?_
  rw [Token.writtenOut_map_rotated]
  exact derived.rotated

/-- What a text with margins is read as, it is read as with the axes renamed. -/
theorem parse_trimmed_rotatedText
    {source : String}
    {formula : Formula}
    (parsed : parse (trimmed source) = .ok formula) :
    CompilesTo Coordinate.all (trimmed (rotatedText source)) formula.tree.rotated := by
  obtain ⟨front, behind, cut, frontBlank, behindBlank⟩ := exists_margins source
  obtain ⟨tokens, spelled, -⟩ := exists_spells_of_compile parsed
  obtain ⟨placed, lexed, -⟩ := spelled 0
  have margins :
      rotatedText source =
        String.ofList (front ++ (Token.rotatedFrom 0 (trimmed source).toList ++ behind)) := by
    rw [rotatedText, cut, Token.rotatedFrom_blank_append frontBlank,
      lexed.rotatedFrom_append_blank behindBlank]
  have inner := compilesTo_trimmed (parse_rotatedText parsed)
  rw [margins, trimmed_of_margins frontBlank behindBlank]
  exact inner

end Formula

/-! ## Values of renamed trees -/

/-- The coordinates that are the positions along the axes. -/
def Coordinate.IsCartesian (coordinate : Coordinate) : Prop :=
  coordinate = .x ∨ coordinate = .y ∨ coordinate = .z

/-- A point that has the coordinates of another one along the axes behind theirs. -/
structure Point.Rotated {α : Type} (point turned : Point α) : Prop where
  x : turned.y = point.x
  y : turned.z = point.y
  z : turned.x = point.z

/-- A tree in Cartesian coordinates has at a renamed point the value that it had. -/
theorem Expr.evaluate_rotated
    {α : Type}
    [Scalar α]
    [Elementary α]
    {tree : Expr}
    {point turned : Point α}
    (rotated : point.Rotated turned)
    (only : tree.RefersOnlyTo Coordinate.IsCartesian) :
    tree.rotated.evaluate turned = tree.evaluate point := by
  induction tree with
  | number value => rfl
  | constant name => rfl
  | coordinate name =>
      rcases refersOnlyTo_coordinate.mp only with rfl | rfl | rfl
      · exact congrArg Except.ok rotated.x
      · exact congrArg Except.ok rotated.y
      · exact congrArg Except.ok rotated.z
  | negation operand inductionHypothesis =>
      have same := inductionHypothesis (refersOnlyTo_negation.mp only)
      simp only [Expr.rotated, evaluate, same]
  | call function argument inductionHypothesis =>
      have same := inductionHypothesis (refersOnlyTo_call.mp only)
      simp only [Expr.rotated, evaluate, same]
  | operation operator left right leftHypothesis rightHypothesis =>
      obtain ⟨leftOnly, rightOnly⟩ := refersOnlyTo_operation.mp only
      simp only [Expr.rotated, evaluate, leftHypothesis leftOnly, rightHypothesis rightOnly]
  | callPair function left right leftHypothesis rightHypothesis =>
      obtain ⟨leftOnly, rightOnly⟩ := refersOnlyTo_callPair.mp only
      simp only [Expr.rotated, evaluate, leftHypothesis leftOnly, rightHypothesis rightOnly]

end Electrostatics
