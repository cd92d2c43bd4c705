import Electrostatics.Decimal.Numeral
import Mathlib.Data.List.TakeWhile
import Mathlib.Data.Nat.Digits.Defs

namespace Electrostatics.Decimal

/-!
# The language of numerals

A numeral is a mantissa and an exponent that may be absent.  Measuring a numeral at the
start of a text takes as much as any numeral there could: the digits of the mantissa are
taken to their end, and an exponent can only follow a mantissa that ended.
-/

/-- A text of decimal digits. -/
def Digits (text : List Char) : Prop :=
  ∀ digit ∈ text, digit.isDigit = true

/-- The number that digits write in the decimal system, the last digit counting ones. -/
def positionalValue (digits : List Char) : Nat :=
  Nat.ofDigits 10 (digits.reverse.map (fun digit => digit.toNat - '0'.toNat))

/-- A mantissa, the digits in front of its point and those behind. -/
inductive IsMantissa : (text whole fraction : List Char) → Prop where
  | whole
      {whole : List Char} :
      whole ≠ [] →
      Digits whole →
      IsMantissa whole whole []
  | point
      {whole fraction : List Char} :
      whole ≠ [] ∨ fraction ≠ [] →
      Digits whole →
      Digits fraction →
      IsMantissa (whole ++ '.' :: fraction) whole fraction

/-- A sign that an exponent may carry, and its effect. -/
inductive IsSign : (text : List Char) → (signed : Nat → Int) → Prop where
  | none : IsSign [] (fun value => value)
  | plus : IsSign ['+'] (fun value => value)
  | minus : IsSign ['-'] (fun value => -value)

/-- An exponent and its value; without a digit there is none. -/
inductive IsExponent : (text : List Char) → (value : Int) → Prop where
  | absent : IsExponent [] 0
  | present
      {mark : Char}
      {sign digits : List Char}
      {signed : Nat → Int} :
      mark = 'e' ∨ mark = 'E' →
      IsSign sign signed →
      digits ≠ [] →
      Digits digits →
      IsExponent (mark :: sign ++ digits) (signed (positionalValue digits))

/-- A numeral and its exact value. -/
inductive IsNumeral : (text : List Char) → (value : Decimal) → Prop where
  | mk
      {mantissa whole fraction exponent : List Char}
      {shift : Int} :
      IsMantissa mantissa whole fraction →
      IsExponent exponent shift →
      IsNumeral (mantissa ++ exponent)
        { coefficient := positionalValue (whole ++ fraction)
          exponent := shift - (fraction.length : Int) }

/-- Digits read from the left have their positional value. -/
theorem digitsValue_eq_positionalValue (digits : List Char) :
    digitsValue digits = positionalValue digits := by
  unfold digitsValue positionalValue
  rw [← List.foldr_reverse]
  induction digits.reverse with
  | nil => rfl
  | cons digit rest inductionHypothesis =>
      simp only [List.foldr_cons, List.map_cons, Nat.ofDigits_cons, inductionHypothesis]
      omega

/-- A text that does not go on with a digit. -/
def NoDigit (text : List Char) : Prop :=
  ∀ first ∈ text.head?, first.isDigit = false

theorem leadingDigits_append
    {digits : List Char}
    (areDigits : Digits digits)
    (rest : List Char) :
    leadingDigits (digits ++ rest) = digits ++ leadingDigits rest :=
  List.takeWhile_append_of_pos areDigits

theorem leadingDigits_of_noDigit
    {text : List Char}
    (noDigit : NoDigit text) :
    leadingDigits text = [] := by
  cases text with
  | nil => rfl
  | cons first rest => simp [leadingDigits, noDigit first rfl]

theorem digits_leadingDigits (text : List Char) : Digits (leadingDigits text) :=
  fun _ member => List.mem_takeWhile_imp member

/-- Behind the digits that are taken no digit follows. -/
theorem split_leadingDigits (text : List Char) :
    ∃ rest, text = leadingDigits text ++ rest ∧ NoDigit rest := by
  refine ⟨text.dropWhile Char.isDigit, List.takeWhile_append_dropWhile.symm, ?_⟩
  intro first member
  have := List.head?_dropWhile_not Char.isDigit text
  rw [Option.mem_def.mp member] at this
  simpa using this

theorem leadingDigits_whole
    {whole rest : List Char}
    (areDigits : Digits whole)
    (noDigit : NoDigit rest) :
    leadingDigits (whole ++ rest) = whole := by
  rw [leadingDigits_append areDigits, leadingDigits_of_noDigit noDigit, List.append_nil]

theorem noDigit_point (text : List Char) : NoDigit ('.' :: text) := by
  simp [NoDigit]

theorem mantissaLength_point
    {whole behind : List Char}
    (areDigits : Digits whole)
    (someDigit : whole ≠ [] ∨ leadingDigits behind ≠ []) :
    mantissaLength (whole ++ '.' :: behind) =
      whole.length + 1 + (leadingDigits behind).length := by
  have noDigit := noDigit_point behind
  have measured :
      ¬ (whole.length = 0 ∧ (leadingDigits behind).length = 0) := by
    simpa [List.length_eq_zero_iff, imp_iff_not_or] using someDigit
  simp only [mantissaLength, leadingDigits_whole areDigits noDigit, List.drop_left,
    measured, ↓reduceIte]

theorem mantissaLength_whole
    {whole rest : List Char}
    (areDigits : Digits whole)
    (noDigit : NoDigit rest)
    (noPoint : ∀ behind, rest ≠ '.' :: behind) :
    mantissaLength (whole ++ rest) = whole.length := by
  simp only [mantissaLength, leadingDigits_whole areDigits noDigit, List.drop_left]

theorem leadingDigits_le_mantissaLength (text : List Char) :
    (leadingDigits text).length ≤ mantissaLength text := by
  unfold mantissaLength
  dsimp only
  split
  · split <;> omega
  · exact Nat.le_refl _

theorem IsMantissa.length_pos
    {mantissa whole fraction : List Char}
    (isMantissa : IsMantissa mantissa whole fraction) :
    0 < mantissa.length := by
  cases isMantissa with
  | whole notEmpty _ => exact List.length_pos_iff.mpr notEmpty
  | point _ _ _ => simp

theorem IsMantissa.length_le
    {mantissa whole fraction : List Char}
    (isMantissa : IsMantissa mantissa whole fraction)
    (rest : List Char) :
    mantissa.length ≤ mantissaLength (mantissa ++ rest) := by
  cases isMantissa with
  | whole _ areDigits =>
      have bound := leadingDigits_le_mantissaLength (mantissa ++ rest)
      rw [leadingDigits_append areDigits, List.length_append] at bound
      omega
  | point someDigit wholeDigits fractionDigits =>
      have taken := leadingDigits_append fractionDigits rest
      have someTaken : whole ≠ [] ∨ leadingDigits (fraction ++ rest) ≠ [] := by
        rw [taken]
        exact someDigit.imp_right (fun notEmpty => by simp [notEmpty])
      have measured := mantissaLength_point wholeDigits someTaken
      simp only [List.append_assoc, List.cons_append, measured, taken,
        List.length_append, List.length_cons]
      omega

/-- A mantissa is measured exactly when neither a digit nor a point follows it. -/
theorem IsMantissa.length_eq
    {mantissa whole fraction rest : List Char}
    (isMantissa : IsMantissa mantissa whole fraction)
    (noDigit : NoDigit rest)
    (noPoint : ∀ behind, rest ≠ '.' :: behind) :
    mantissaLength (mantissa ++ rest) = mantissa.length := by
  cases isMantissa with
  | whole _ areDigits => exact mantissaLength_whole areDigits noDigit noPoint
  | point someDigit wholeDigits fractionDigits =>
      have taken := leadingDigits_whole fractionDigits noDigit
      have measured :=
        mantissaLength_point wholeDigits
          (someDigit.imp_right (fun notEmpty => taken.symm ▸ notEmpty))
      simp only [List.append_assoc, List.cons_append, measured, taken,
        List.length_append, List.length_cons]
      omega

/-- What is measured at the start of a text is a mantissa. -/
theorem exists_isMantissa
    {text : List Char}
    (measured : mantissaLength text ≠ 0) :
    ∃ mantissa whole fraction rest,
      text = mantissa ++ rest ∧
      IsMantissa mantissa whole fraction ∧
      mantissa.length = mantissaLength text := by
  obtain ⟨behind, cut, noDigit⟩ := split_leadingDigits text
  have areDigits := digits_leadingDigits text
  generalize leadingDigits text = whole at cut areDigits
  subst cut
  by_cases point : ∃ afterPoint, behind = '.' :: afterPoint
  · obtain ⟨afterPoint, rfl⟩ := point
    obtain ⟨rest, fractionCut, _⟩ := split_leadingDigits afterPoint
    have fractionDigits := digits_leadingDigits afterPoint
    have someDigit : whole ≠ [] ∨ leadingDigits afterPoint ≠ [] := by
      by_contra noneTaken
      obtain ⟨rfl, nothing⟩ := not_or.mp noneTaken |>.imp not_not.mp not_not.mp
      exact measured (by simp [mantissaLength, leadingDigits_of_noDigit noDigit, nothing])
    refine ⟨whole ++ '.' :: leadingDigits afterPoint, whole, leadingDigits afterPoint, rest,
      ?_, .point someDigit areDigits fractionDigits, ?_⟩
    · simpa using fractionCut
    · rw [mantissaLength_point areDigits someDigit]
      simp only [List.length_append, List.length_cons]
      omega
  · have noPoint : ∀ afterPoint, behind ≠ '.' :: afterPoint :=
      fun afterPoint same => point ⟨afterPoint, same⟩
    have length := mantissaLength_whole areDigits noDigit noPoint
    have notEmpty : whole ≠ [] := by
      rintro rfl
      exact measured length
    exact ⟨whole, whole, [], behind, rfl, .whole notEmpty areDigits, length.symm⟩

theorem signLength_append
    {sign digits : List Char}
    {signed : Nat → Int}
    (isSign : IsSign sign signed)
    (notEmpty : digits ≠ [])
    (areDigits : Digits digits)
    (rest : List Char) :
    signLength (sign ++ (digits ++ rest)) = sign.length := by
  cases isSign with
  | none =>
      obtain ⟨first, others, rfl⟩ := List.exists_cons_of_ne_nil notEmpty
      have isDigit : first.isDigit = true := areDigits first (by simp)
      simp only [List.nil_append, List.cons_append, signLength]
      split
      · simp_all
      · simp_all
      · rfl
  | plus => rfl
  | minus => rfl

theorem exists_isSign (text : List Char) :
    ∃ sign signed rest,
      text = sign ++ rest ∧ IsSign sign signed ∧ sign.length = signLength text := by
  unfold signLength
  split
  case h_1 rest => exact ⟨['+'], _, rest, rfl, .plus, rfl⟩
  case h_2 rest => exact ⟨['-'], _, rest, rfl, .minus, rfl⟩
  case h_3 => exact ⟨[], _, text, rfl, .none, rfl⟩

theorem IsExponent.length_le
    {exponent : List Char}
    {value : Int}
    (isExponent : IsExponent exponent value)
    (rest : List Char) :
    exponent.length ≤ exponentLength (exponent ++ rest) := by
  cases isExponent with
  | absent => simp
  | @present mark sign digits _ isMark isSign notEmpty areDigits =>
      have signed := signLength_append isSign notEmpty areDigits rest
      have taken := leadingDigits_append areDigits rest
      have positive : 0 < digits.length := List.length_pos_iff.mpr notEmpty
      simp only [List.cons_append, List.append_assoc, exponentLength, isMark, ↓reduceIte,
        signed, List.drop_left, taken, List.length_append, List.length_cons]
      split <;> omega

theorem exists_isExponent (text : List Char) :
    ∃ exponent value rest,
      text = exponent ++ rest ∧
      IsExponent exponent value ∧
      exponent.length = exponentLength text := by
  cases text with
  | nil => exact ⟨[], 0, [], rfl, .absent, rfl⟩
  | cons mark afterMark =>
      by_cases isMark : mark = 'e' ∨ mark = 'E'
      · obtain ⟨sign, signed, afterSign, rfl, isSign, signMeasured⟩ := exists_isSign afterMark
        obtain ⟨rest, cut, _⟩ := split_leadingDigits afterSign
        have areDigits := digits_leadingDigits afterSign
        by_cases nothing : leadingDigits afterSign = []
        · exact ⟨[], 0, _, rfl, .absent, by
            simp [exponentLength, isMark, ← signMeasured, nothing]⟩
        · have digitsMeasured : (leadingDigits afterSign).length ≠ 0 :=
            fun none => nothing (List.length_eq_zero_iff.mp none)
          refine ⟨mark :: sign ++ leadingDigits afterSign, _, rest, ?_,
            .present isMark isSign nothing areDigits, ?_⟩
          · simpa using cut
          · simp only [exponentLength, isMark, ↓reduceIte, ← signMeasured, List.drop_left,
              digitsMeasured, List.cons_append, List.length_cons, List.length_append]
            omega
      · exact ⟨[], 0, _, rfl, .absent, by simp [exponentLength, isMark]⟩

theorem IsExponent.exponentValue_eq
    {exponent : List Char}
    {value : Int}
    (isExponent : IsExponent exponent value) :
    exponentValue exponent = value := by
  cases isExponent with
  | absent => rfl
  | @present mark sign digits _ isMark isSign notEmpty areDigits =>
      have taken : leadingDigits digits = digits := by
        simpa [leadingDigits] using leadingDigits_append areDigits []
      cases isSign with
      | none =>
          obtain ⟨first, others, rfl⟩ := List.exists_cons_of_ne_nil notEmpty
          have isDigit : first.isDigit = true := areDigits first (by simp)
          have noMinus : first ≠ '-' := by rintro rfl; cases isDigit
          have noPlus : first ≠ '+' := by rintro rfl; cases isDigit
          simp [exponentValue, noMinus, noPlus, taken, digitsValue_eq_positionalValue]
      | plus => simp [exponentValue, taken, digitsValue_eq_positionalValue]
      | minus => simp [exponentValue, taken, digitsValue_eq_positionalValue]

/-- Behind a mantissa an exponent is no part of it. -/
theorem IsExponent.no_mantissa
    {exponent : List Char}
    {value : Int}
    (isExponent : IsExponent exponent value)
    (notEmpty : exponent ≠ [])
    (rest : List Char) :
    NoDigit (exponent ++ rest) ∧ ∀ behind, exponent ++ rest ≠ '.' :: behind := by
  cases isExponent with
  | absent => exact absurd rfl notEmpty
  | present isMark _ _ _ =>
      rcases isMark with rfl | rfl <;> simp [NoDigit]

theorem IsMantissa.fractionDigits_eq
    {mantissa whole fraction rest : List Char}
    (isMantissa : IsMantissa mantissa whole fraction)
    (noDigit : NoDigit rest)
    (noPoint : ∀ behind, rest ≠ '.' :: behind) :
    fractionDigits (mantissa ++ rest) = fraction := by
  cases isMantissa with
  | whole _ areDigits =>
      simp only [fractionDigits, leadingDigits_whole areDigits noDigit, List.drop_left]
  | point _ wholeDigits fractionDigits =>
      have pointNext := noDigit_point (fraction ++ rest)
      simp only [Decimal.fractionDigits, List.append_assoc, List.cons_append,
        leadingDigits_whole wholeDigits pointNext, List.drop_left,
        leadingDigits_whole fractionDigits noDigit]

theorem IsMantissa.leadingDigits_eq
    {mantissa whole fraction rest : List Char}
    (isMantissa : IsMantissa mantissa whole fraction)
    (noDigit : NoDigit rest) :
    leadingDigits (mantissa ++ rest) = whole := by
  cases isMantissa with
  | whole _ areDigits => exact leadingDigits_whole areDigits noDigit
  | point _ wholeDigits _ =>
      have pointNext := noDigit_point (fraction ++ rest)
      simp only [List.append_assoc, List.cons_append,
        leadingDigits_whole wholeDigits pointNext]

namespace IsNumeral

variable
  {numeral : List Char}
  {value : Decimal}

theorem length_pos
    (isNumeral : IsNumeral numeral value) :
    0 < numeral.length := by
  cases isNumeral with
  | mk isMantissa _ =>
      have mantissaPos := isMantissa.length_pos
      rw [List.length_append]
      omega

/-- A text that is a numeral as a whole is read as the value of the numeral. -/
theorem ofNumeral_eq
    (isNumeral : IsNumeral numeral value) :
    ofNumeral numeral = value := by
  cases isNumeral with
  | @mk mantissa whole fraction exponent shift isMantissa isExponent =>
      have apart : NoDigit exponent ∧ ∀ behind, exponent ≠ '.' :: behind := by
        by_cases absent : exponent = []
        · simp [absent, NoDigit]
        · simpa using isExponent.no_mantissa absent []
      obtain ⟨noDigit, noPoint⟩ := apart
      simp only [ofNumeral, isMantissa.fractionDigits_eq noDigit noPoint,
        isMantissa.leadingDigits_eq noDigit, isMantissa.length_eq noDigit noPoint,
        List.drop_left, isExponent.exponentValue_eq, digitsValue_eq_positionalValue]

/-- No numeral at the start of a text is longer than the one that is measured. -/
theorem length_le
    (isNumeral : IsNumeral numeral value)
    (rest : List Char) :
    numeral.length ≤ numeralLength (numeral ++ rest) := by
  cases isNumeral with
  | @mk mantissa whole fraction exponent shift isMantissa isExponent =>
      have mantissaPos := isMantissa.length_pos
      have mantissaBound := isMantissa.length_le (exponent ++ rest)
      have measured : mantissaLength (mantissa ++ (exponent ++ rest)) ≠ 0 := by omega
      simp only [List.append_assoc, numeralLength, measured, ↓reduceIte, List.length_append]
      by_cases absent : exponent = []
      · subst absent
        simp only [List.nil_append] at mantissaBound ⊢
        simp only [List.length_nil]
        omega
      · -- An exponent begins with a letter, where every mantissa ends.
        obtain ⟨noDigit, noPoint⟩ := isExponent.no_mantissa absent rest
        rw [isMantissa.length_eq noDigit noPoint, List.drop_left]
        have exponentBound := isExponent.length_le rest
        omega

end IsNumeral

/-- What is measured for a numeral is one. -/
theorem exists_isNumeral
    {text : List Char}
    (measured : numeralLength text ≠ 0) :
    ∃ numeral value rest,
      text = numeral ++ rest ∧
      IsNumeral numeral value ∧
      numeral.length = numeralLength text := by
  have mantissaMeasured : mantissaLength text ≠ 0 := by
    intro none
    exact measured (by simp [numeralLength, none])
  obtain ⟨mantissa, whole, fraction, behind, rfl, isMantissa, mantissaLength_eq⟩ :=
    exists_isMantissa mantissaMeasured
  obtain ⟨exponent, shift, rest, rfl, isExponent, exponentLength_eq⟩ :=
    exists_isExponent behind
  rw [← mantissaLength_eq] at mantissaMeasured
  refine ⟨mantissa ++ exponent, _, rest, by simp, .mk isMantissa isExponent, ?_⟩
  simp only [numeralLength, mantissaMeasured, ↓reduceIte, ← mantissaLength_eq,
    List.drop_left, exponentLength_eq, List.length_append]

/-- An exponent is written with its mark, a sign and digits. -/
theorem IsExponent.isDigit_or_mark
    {exponent : List Char}
    {value : Int}
    {character : Char}
    (isExponent : IsExponent exponent value)
    (member : character ∈ exponent) :
    character.isDigit = true ∨ character ∈ ['e', 'E', '+', '-'] := by
  cases isExponent with
  | absent => cases member
  | present isMark isSign _ areDigits =>
      simp only [List.cons_append, List.mem_cons, List.mem_append] at member
      rcases member with rfl | inSign | inDigits
      · rcases isMark with rfl | rfl <;> exact .inr (by decide)
      · cases isSign <;> simp at inSign <;> subst inSign <;> exact .inr (by decide)
      · exact .inl (areDigits character inDigits)

/-- A numeral is written with digits, a point and what its exponent is written with. -/
theorem IsNumeral.isDigit_or_mark
    {numeral : List Char}
    {value : Decimal}
    {character : Char}
    (isNumeral : IsNumeral numeral value)
    (member : character ∈ numeral) :
    character.isDigit = true ∨ character ∈ ['.', 'e', 'E', '+', '-'] := by
  cases isNumeral with
  | mk isMantissa isExponent =>
      rcases List.mem_append.mp member with inMantissa | inExponent
      · cases isMantissa with
        | whole _ areDigits => exact .inl (areDigits character inMantissa)
        | point _ wholeDigits fractionDigits =>
            rcases List.mem_append.mp inMantissa with inWhole | behind
            · exact .inl (wholeDigits character inWhole)
            · rcases List.mem_cons.mp behind with rfl | inFraction
              · exact .inr List.mem_cons_self
              · exact .inl (fractionDigits character inFraction)
      · exact (isExponent.isDigit_or_mark inExponent).imp_right (List.mem_cons_of_mem _)

end Electrostatics.Decimal
