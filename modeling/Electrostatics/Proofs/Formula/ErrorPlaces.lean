import Electrostatics.Proofs.Formula.Lexing
import Electrostatics.Proofs.Formula.Refusals
import Mathlib.Data.List.Nodup

namespace Electrostatics

/-!
# The places of errors

The position of an error is the byte offset of what it reports.  Only the understood product
signs stand at a place where the text has something else.  Each of them follows a number or
a closing bracket, where the machine has just finished an operand and accepts any sign, so
the token that it refuses is always one of the text.
-/

open Electrostatics.Parser

namespace Token

/-- A text that stands in a formula at a byte offset. -/
def StandsAt (source text : String) (position : Nat) : Prop :=
  ∃ before after : String,
    source = before ++ text ++ after ∧ before.utf8ByteSize = position

/-- A lexeme of a formula: it stands at its offset, is the longest one there and is scanned. -/
structure IsLexemeAt
    (source lexeme : String)
    (token : Token)
    (position : Nat) : Prop where
  stands :
    ∃ before after : String,
      source = before ++ lexeme ++ after ∧
      before.utf8ByteSize = position ∧
      IsLongest (lexeme ++ after).toList lexeme.toList token
  scanned :
    ∃ placed,
      scan source.toList = .ok placed ∧
      { token := token, position := position } ∈ placed

/-- A product sign is understood in front of the token at an offset. -/
def ProductUnderstoodAt (placed : List PlacedToken) (position : Nat) : Prop :=
  ∃ front first second rest,
    placed = front ++ first :: second :: rest ∧
    impliesProduct first.token second.token = true ∧
    second.position = position

theorem byteLength_eq_utf8ByteSize (text : List Char) :
    byteLength text = (String.ofList text).utf8ByteSize := by
  induction text with
  | nil => simp [byteLength]
  | cons character rest inductionHypothesis =>
      have split :
          String.ofList (character :: rest) =
            String.singleton character ++ String.ofList rest := by
        rw [← String.toList_inj]
        simp
      rw [split, String.utf8ByteSize_append, String.utf8ByteSize_singleton, byteLength,
        inductionHypothesis]

/-- Every token that is scanned is a longest lexeme at its offset. -/
theorem Lexed.exists_lexeme
    {position : Nat}
    {text : List Char}
    {placed : List PlacedToken}
    {item : PlacedToken}
    (lexed : Lexed position text placed)
    (member : item ∈ placed) :
    ∃ before lexeme after,
      text = before ++ (lexeme ++ after) ∧
      item.position = position + byteLength before ∧
      IsLongest (lexeme ++ after) lexeme item.token := by
  induction lexed with
  | done position => cases member
  | @blank position character rest placed _ _ inductionHypothesis =>
      obtain ⟨before, lexeme, after, rfl, offset, longest⟩ := inductionHypothesis member
      refine ⟨character :: before, lexeme, after, rfl, ?_, longest⟩
      rw [offset, byteLength, Nat.add_assoc]
  | @lexeme position first rest token placed longest _ inductionHypothesis =>
      rcases List.mem_cons.mp member with rfl | later
      · exact ⟨[], first, rest, rfl, rfl, longest⟩
      · obtain ⟨before, lexeme, after, rfl, offset, itemLongest⟩ := inductionHypothesis later
        refine ⟨first ++ before, lexeme, after, by simp, ?_, itemLongest⟩
        rw [offset, byteLength_append, Nat.add_assoc]

theorem Stuck.exists_character
    {position : Nat}
    {text : List Char}
    {stray : StrayCharacter}
    (stuck : Stuck position text stray) :
    ∃ before after,
      text = before ++ stray.character :: after ∧
      stray.position = position + byteLength before := by
  induction stuck with
  | @stray position character rest _ _ => exact ⟨[], rest, rfl, rfl⟩
  | @blank position character rest stray _ _ inductionHypothesis =>
      obtain ⟨before, after, rfl, offset⟩ := inductionHypothesis
      refine ⟨character :: before, after, rfl, ?_⟩
      rw [offset, byteLength, Nat.add_assoc]
  | @lexeme position lexeme rest token stray _ _ inductionHypothesis =>
      obtain ⟨before, after, rfl, offset⟩ := inductionHypothesis
      refine ⟨lexeme ++ before, after, by simp, ?_⟩
      rw [offset, byteLength_append, Nat.add_assoc]

theorem Stuck.standsAt
    {source : String}
    {stray : StrayCharacter}
    (stuck : Stuck 0 source.toList stray) :
    StandsAt source (String.singleton stray.character) stray.position := by
  obtain ⟨before, after, cut, offset⟩ := stuck.exists_character
  refine ⟨String.ofList before, String.ofList after, ?_, ?_⟩
  · rw [← String.toList_inj]
    simpa using cut
  · rw [← byteLength_eq_utf8ByteSize, offset, Nat.zero_add]

theorem exists_isLexemeAt
    {source : String}
    {placed : List PlacedToken}
    {item : PlacedToken}
    (scanned : scan source.toList = .ok placed)
    (member : item ∈ placed) :
    ∃ lexeme, IsLexemeAt source lexeme item.token item.position := by
  obtain ⟨before, lexeme, after, cut, offset, longest⟩ :=
    (scan_eq_ok_iff_lexed.mp scanned).exists_lexeme member
  refine ⟨String.ofList lexeme, ⟨String.ofList before, String.ofList after, ?_, ?_, ?_⟩,
    placed, scanned, member⟩
  · rw [← String.toList_inj]
    simpa using cut
  · rw [← byteLength_eq_utf8ByteSize, offset, Nat.zero_add]
  · simpa using longest

theorem IsLexeme.eq_name
    {lexeme : List Char}
    {name : String}
    (isLexeme : IsLexeme lexeme (.identifier name)) :
    lexeme = name.toList := by
  generalize isName : Token.identifier name = token at isLexeme
  cases isLexeme with
  | number _ => cases isName
  | doubleStar => cases isName
  | name _ _ =>
      obtain rfl := Token.identifier.inj isName
      simp
  | symbol symbol =>
      subst isName
      unfold ofSymbol? at symbol
      split at symbol <;> cases symbol

/-- A name that is scanned stands in the text as it is. -/
theorem IsLexemeAt.ofName
    {source lexeme name : String}
    {position : Nat}
    (isLexeme : IsLexemeAt source lexeme (.identifier name) position) :
    IsLexemeAt source name (.identifier name) position := by
  obtain ⟨_, _, _, _, longest⟩ := isLexeme.stands
  obtain rfl : lexeme = name := String.toList_inj.mp longest.isLexeme.eq_name
  exact isLexeme

theorem impliesProduct_star (last : Token) :
    impliesProduct last .star = false := by
  cases last <;> rfl

/-- No token of the text is a product sign that is understood. -/
theorem not_understood_of_mem
    {text : List Char}
    {placed : List PlacedToken}
    {position : Nat}
    (scanned : scan text = .ok placed)
    (member : { token := .star, position := position } ∈ placed) :
    ¬ ProductUnderstoodAt placed position := by
  rintro ⟨front, first, second, rest, rfl, implied, samePosition⟩
  have increase := (scan_eq_ok_iff_lexed.mp scanned).positions_increase.2
  have noTwo :
      ((front ++ first :: second :: rest).map PlacedToken.position).Nodup :=
    List.pairwise_map.mpr (increase.imp Nat.ne_of_lt)
  have same := List.inj_on_of_nodup_map noTwo (by simp : second ∈ _) member samePosition
  rw [same, impliesProduct_star] at implied
  cases implied

/-- A token of the text, or a product sign directly behind the end of an operand. -/
def IsWrittenOrImplied (placed front : List PlacedToken) (item : PlacedToken) : Prop :=
  item ∈ placed ∨
  (item.token = .star ∧
    ∃ earlier last next,
      front = earlier ++ [last] ∧ impliesProduct last.token next = true)

theorem IsWrittenOrImplied.extend
    {placed front : List PlacedToken}
    {item : PlacedToken}
    (known : IsWrittenOrImplied placed front item)
    (first : PlacedToken)
    (before : List PlacedToken) :
    IsWrittenOrImplied (first :: placed) (before ++ front) item := by
  rcases known with written | ⟨isStar, earlier, last, next, rfl, implied⟩
  · exact .inl (List.mem_cons_of_mem first written)
  · exact .inr ⟨isStar, before ++ earlier, last, next, by simp, implied⟩

/-- Writing the understood signs out adds nothing else. -/
theorem insertProducts_cut
    {placed front behind : List PlacedToken}
    {item : PlacedToken}
    (cut : insertProducts placed = front ++ item :: behind) :
    IsWrittenOrImplied placed front item := by
  induction placed generalizing front with
  | nil => simp [insertProducts] at cut
  | cons first others inductionHypothesis =>
      cases others with
      | nil =>
          obtain ⟨_, rfl, _⟩ : front = [] ∧ item = first ∧ behind = [] := by
            simpa [insertProducts, List.singleton_eq_append_iff] using cut
          exact .inl (List.mem_singleton_self _)
      | cons second rest =>
          unfold insertProducts at cut
          split at cut
          case isTrue implied =>
            match front with
            | [] =>
                obtain ⟨rfl, _⟩ := List.cons.inj cut
                exact .inl (by simp)
            | [only] =>
                simp only [List.singleton_append, List.cons.injEq] at cut
                obtain ⟨rfl, rfl, _⟩ := cut
                exact .inr ⟨rfl, [], first, second.token, rfl, implied⟩
            | before :: sign :: front =>
                simp only [List.cons_append, List.cons.injEq] at cut
                exact (inductionHypothesis cut.2.2).extend first [before, sign]
          case isFalse =>
            cases front with
            | nil =>
                obtain ⟨rfl, _⟩ := List.cons.inj cut
                exact .inl (by simp)
            | cons before front =>
                exact (inductionHypothesis (List.cons.inj cut).2).extend first [before]

end Token

namespace Grammar

variable
  {bound : List Coordinate}
  {state first middle next : State}
  {placed : PlacedToken}
  {fault : ParseError}

theorem phase_of_closeCall
    {callable : Callable}
    {arguments : List Expr}
    {outer : List Opened}
    {outside : List Waiting}
    (closed : closeCall callable arguments outer outside = .ok next) :
    ∃ value, next.phase = .operator value := by
  unfold closeCall at closed
  split at closed
  case h_1 value _ =>
    obtain rfl := Except.ok.inj closed
    exact ⟨value, rfl⟩
  case h_2 => cases closed

/-- Behind a number or a closing bracket an operand is finished. -/
theorem phase_of_step
    {following : Token}
    (implied : Token.impliesProduct placed.token following = true)
    (stepped : step bound state placed = .ok next) :
    ∃ value, next.phase = .operator value := by
  rcases placed with ⟨token, position⟩
  rcases state with ⟨opened, waiting, phase⟩
  cases token with
  | number decimal =>
      cases phase with
      | operand =>
          obtain rfl := Except.ok.inj stepped
          exact ⟨.number decimal, rfl⟩
      | firstArgument =>
          obtain rfl := Except.ok.inj stepped
          exact ⟨.number decimal, rfl⟩
      | argumentList callable => cases stepped
      | operator value => cases stepped
  | rightParenthesis =>
      rcases opened with _ | ⟨⟨_ | ⟨callable, given⟩, outside⟩, outer⟩
      · cases phase <;> cases stepped
      · cases phase with
        | operator value =>
            obtain rfl := Except.ok.inj stepped
            exact ⟨settleAll waiting value, rfl⟩
        | _ => cases stepped
      · cases phase with
        | operand => cases stepped
        | argumentList _ => cases stepped
        | firstArgument => exact phase_of_closeCall stepped
        | operator value => exact phase_of_closeCall stepped
  | _ => cases implied

/-- Only tokens of the text are refused, not the product signs that are understood. -/
theorem mem_of_refused
    {tokens front behind : List PlacedToken}
    (cut : Token.insertProducts tokens = front ++ placed :: behind)
    (ran : run bound first front = .ok middle)
    (refuses : step bound middle placed = .error fault) :
    placed ∈ tokens := by
  rcases Token.insertProducts_cut cut with
      inText | ⟨isStar, earlier, last, following, rfl, implied⟩
  · exact inText
  · rw [run_append] at ran
    cases reached : run bound first earlier with
    | error _ => simp [reached, Except.bind] at ran
    | ok before =>
        cases stepped : step bound before last with
        | error _ => simp [reached, Except.bind, run, stepped] at ran
        | ok behindLast =>
            obtain rfl : behindLast = middle := by
              simpa [reached, Except.bind, run, stepped] using ran
            obtain ⟨value, finished⟩ := phase_of_step implied stepped
            simp [step, finished, stepOperator, isStar] at refuses

end Grammar

namespace Formula

open Electrostatics.Grammar
open Electrostatics.Token

variable
  {bound : List Coordinate}
  {source : String}
  {fault : ParseError}

/-- Why a text is rejected: a stray character, a refused token of the text, or its end. -/
inductive TextRejection (bound : List Coordinate) (source : String) : ParseError → Prop where
  | stray
      {stray : StrayCharacter} :
      scan source.toList = .error stray →
      TextRejection bound source (.unexpectedCharacter stray.character stray.position)
  | refused
      {placed : List PlacedToken}
      {item : PlacedToken}
      {fault : ParseError} :
      scan source.toList = .ok placed →
      item ∈ placed →
      Refusal bound item fault →
      TextRejection bound source fault
  | empty : TextRejection bound source .empty
  | ended (expected : Expectation) : TextRejection bound source (.unexpectedEnd expected)

theorem TextRejection.ofCompile
    (failed : compile bound source = .error fault) :
    TextRejection bound source fault := by
  unfold compile tokenize at failed
  cases scanned : scan source.toList with
  | error stray =>
      obtain rfl : .unexpectedCharacter stray.character stray.position = fault := by
        simpa [scanned, Except.map] using failed
      exact .stray scanned
  | ok placed =>
      cases parsed : Parser.parse bound (insertProducts placed) with
      | ok tree => simp [scanned, Except.map, parsed] at failed
      | error reported =>
          obtain rfl : reported = fault := by
            simpa [scanned, Except.map, parsed] using failed
          cases Rejection.ofParse parsed with
          | empty => exact .empty
          | ended expected _ => exact .ended expected
          | refused cut ran refuses =>
              exact .refused scanned (mem_of_refused cut ran refuses) (.ofStep refuses)

/--
Errors point at the text.  An unknown name is a lexeme at the reported offset, an unexpected
token is one that is read there and no product sign that is only understood, and an
unexpected character stands there.
-/
theorem errors_point_at_the_text (bound : List Coordinate) (source : String) :
    (∀ name position,
      compile bound source = .error (.unknownSymbol name position) →
      IsLexemeAt source name (.identifier name) position) ∧
    (∀ found expected position,
      compile bound source = .error (.unexpectedToken found expected position) →
      (∃ lexeme, IsLexemeAt source lexeme found position) ∧
        ∀ placed,
          scan source.toList = .ok placed →
          found = .star →
          ¬ ProductUnderstoodAt placed position) ∧
    (∀ found position,
      compile bound source = .error (.unexpectedCharacter found position) →
      StandsAt source (String.singleton found) position) := by
  refine ⟨?_, ?_, ?_⟩
  · intro name position failed
    cases TextRejection.ofCompile failed with
    | @refused _ item _ scanned member refusal =>
        obtain ⟨lexeme, isLexeme⟩ := exists_isLexemeAt scanned member
        rcases item with ⟨token, place⟩
        cases refusal with
        | unknown isName _ _ =>
            obtain rfl : token = .identifier name := isName
            exact isLexeme.ofName
  · intro found expected position failed
    cases TextRejection.ofCompile failed with
    | refused scanned member refusal =>
        cases refusal with
        | unexpected =>
            refine ⟨exists_isLexemeAt scanned member, ?_⟩
            rintro other otherScanned isStar
            obtain rfl := Except.ok.inj (scanned.symm.trans otherScanned)
            refine not_understood_of_mem scanned ?_
            rwa [← isStar]
  · intro found position failed
    cases TextRejection.ofCompile failed with
    | stray scanned => exact (scan_eq_error_iff_stuck.mp scanned).standsAt
    | refused _ _ refusal => cases refusal

/--
In `(x)2* *` the second written star is unexpected, not the sign understood before the `2`;
in `2foo` the name behind such a sign is unknown.
-/
theorem errors_point_behind_understood_signs :
    (compile [.x] "(x)2* *" = .error (.unexpectedToken .star .operand 6) ∧
        (∃ lexeme, IsLexemeAt "(x)2* *" lexeme .star 6) ∧
        ∃ placed,
          scan "(x)2* *".toList = .ok placed ∧
          ¬ ProductUnderstoodAt placed 6) ∧
      (compile [.x] "2foo" = .error (.unknownSymbol "foo" 1) ∧
        IsLexemeAt "2foo" "foo" (.identifier "foo") 1) ∧
      compile [.x] "x + é" = .error (.unexpectedCharacter 'é' 4) ∧
      StandsAt "x + é" "é" 4 := by
  obtain ⟨_, unexpected, _⟩ := errors_point_at_the_text [.x] "(x)2* *"
  obtain ⟨unknown, _, _⟩ := errors_point_at_the_text [.x] "2foo"
  obtain ⟨_, _, stray⟩ := errors_point_at_the_text [.x] "x + é"
  have starRefused :
      compile [.x] "(x)2* *" = .error (.unexpectedToken .star .operand 6) := by
    rfl
  have nameRefused : compile [.x] "2foo" = .error (.unknownSymbol "foo" 1) := by
    rfl
  have characterRefused : compile [.x] "x + é" = .error (.unexpectedCharacter 'é' 4) := by
    rfl
  obtain ⟨placed, scanned⟩ : ∃ placed, scan "(x)2* *".toList = .ok placed := ⟨_, rfl⟩
  obtain ⟨isLexeme, written⟩ := unexpected _ _ _ starRefused
  exact
    ⟨⟨starRefused, isLexeme, placed, scanned, written placed scanned rfl⟩,
      ⟨nameRefused, unknown _ _ nameRefused⟩,
      characterRefused, stray _ _ characterRefused⟩

end Formula

end Electrostatics
