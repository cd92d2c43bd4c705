import Electrostatics.Proofs.Number.DoubleOrder

namespace Electrostatics.Double

/-!
# The value of a double

An ordinary double stands for a rational number: its significand times a power of two.
Doubles are compared as these numbers are, and the count that is read off a double is the
whole part of its number.  The exponent and the significand decide the order together,
since no double has a second pair of them.
-/

open Float.Model Float.Model.UnpackedFloat

/-- Whether a sign is that of the numbers below zero. -/
def isNegative : Sign → Bool
  | .negative => true
  | .positive => false

/-- The parts of an unpacked double. -/
def partsOf : UnpackedFloat → Binary64.Parts
  | .notANumber => .undefined
  | .infinity sign => .infinite (isNegative sign)
  | .zero sign => .finite (isNegative sign) 0 Binary64.leastExponent
  | .finite sign mantissa exponent _ => .finite (isNegative sign) mantissa exponent

section Fields

variable (bits : BitVec 64)

theorem toNat_unpackMantissa :
    (@unpackMantissa .binary64 bits).toNat = bits.toNat % Binary64.hiddenBit := by
  rw [unpackMantissa, BitVec.toNat_cast, BitVec.extractLsb, BitVec.extractLsb'_toNat]
  rfl

theorem toNat_unpackExponent :
    (@unpackExponent .binary64 bits).toNat = bits.toNat / Binary64.hiddenBit % 2048 := by
  rw [unpackExponent, BitVec.toNat_cast, BitVec.extractLsb, BitVec.extractLsb'_toNat,
    Nat.shiftRight_eq_div_pow]
  rfl

theorem toNat_unpackSign :
    (@unpackSign .binary64 bits).toNat = bits.toNat / 2 ^ 63 % 2 := by
  rw [unpackSign, BitVec.toNat_cast, BitVec.extractLsb, BitVec.extractLsb'_toNat,
    Nat.shiftRight_eq_div_pow]
  rfl

theorem isNegative_unpackSign :
    isNegative (Sign.ofBitVec (@unpackSign .binary64 bits)) =
      decide (Binary64.powerOfTwo 63 ≤ bits.toNat) := by
  have width : bits.toNat < 2 ^ 64 := bits.isLt
  have positive : @unpackSign .binary64 bits = 0#1 ↔ ¬ 2 ^ 63 ≤ bits.toNat := by
    rw [← BitVec.toNat_inj, toNat_unpackSign, BitVec.toNat_ofNat]
    omega
  by_cases negative : 2 ^ 63 ≤ bits.toNat
  · rw [Sign.ofBitVec, if_neg fun same => positive.mp same negative]
    exact (decide_eq_true negative).symm
  · rw [Sign.ofBitVec, if_pos (positive.mpr negative)]
    exact (decide_eq_false negative).symm

theorem unpackExponent_eq_iff (exponent : BitVec 11) :
    @unpackExponent .binary64 bits = exponent ↔
      bits.toNat / Binary64.hiddenBit % 2048 = exponent.toNat := by
  rw [← BitVec.toNat_inj, toNat_unpackExponent]

theorem unpackMantissa_eq_zero_iff :
    @unpackMantissa .binary64 bits = 0#52 ↔ bits.toNat % Binary64.hiddenBit = 0 := by
  rw [← BitVec.toNat_inj, toNat_unpackMantissa]
  rfl

theorem toNat_hidden_append :
    (1#1 ++ @unpackMantissa .binary64 bits).toNat =
      Binary64.hiddenBit + bits.toNat % Binary64.hiddenBit := by
  have small := (@unpackMantissa .binary64 bits).isLt
  rw [BitVec.toNat_append, ← Nat.shiftLeft_add_eq_or_of_lt small, toNat_unpackMantissa]
  rfl

end Fields

/-- The parts of a double are those of the double unpacked. -/
theorem parts_eq (value : Float) :
    Binary64.parts value = partsOf value.toModel.unpack := by
  let bits := value.toModel.toBits.toBitVec
  have reservedIff := unpackExponent_eq_iff bits (-1#11)
  have zeroIff := unpackExponent_eq_iff bits 0#11
  have storedIff := unpackMantissa_eq_zero_iff bits
  have sign := isNegative_unpackSign bits
  have unit (field : Nat) :
      (field : Int) - 1 + Binary64.leastExponent =
        field -
          (Format.binary64.exponentBias + Format.binary64.mantissaBitsWithoutImplicit : Int) := by
    have bias : Format.binary64.exponentBias = 1023 := rfl
    have stored : Format.binary64.mantissaBitsWithoutImplicit = 52 := rfl
    rw [bias, stored, Binary64.leastExponent]
    omega
  have whole : value.toBits.toNat = bits.toNat := rfl
  have unpacked : value.toModel.unpack = UnpackedFloat.unpack .binary64 bits := rfl
  rw [unpacked]
  simp only [Binary64.parts, UnpackedFloat.unpack, whole]
  by_cases reserved : bits.toNat / Binary64.hiddenBit % 2048 = 2047
  · by_cases stored : bits.toNat % Binary64.hiddenBit = 0
    · rw [if_pos reserved, if_pos stored, if_pos (reservedIff.mpr reserved),
        if_pos (storedIff.mpr stored), partsOf, sign]
    · rw [if_pos reserved, if_neg stored, if_pos (reservedIff.mpr reserved),
        if_neg fun same => stored (storedIff.mp same), partsOf]
  · rw [if_neg reserved, if_neg fun same => reserved (reservedIff.mp same)]
    by_cases subnormal : bits.toNat / Binary64.hiddenBit % 2048 = 0
    · rw [if_pos subnormal, if_pos (zeroIff.mpr subnormal)]
      by_cases stored : bits.toNat % Binary64.hiddenBit = 0
      · rw [dif_pos (storedIff.mpr stored), partsOf, sign, stored]
      · rw [dif_neg fun same => stored (storedIff.mp same), partsOf, sign, toNat_unpackMantissa,
          toNat_unpackExponent, subnormal]
        rfl
    · rw [if_neg subnormal, if_neg fun same => subnormal (zeroIff.mp same), partsOf, sign,
        toNat_hidden_append, toNat_unpackExponent, unit]


/-- A significand and an exponent that a double has. -/
structure IsCanonical (significand : Nat) (exponent : Int) : Prop where
  small : significand < 2 * Binary64.hiddenBit
  least : Binary64.leastExponent ≤ exponent
  normal : Binary64.hiddenBit ≤ significand ∨ exponent = Binary64.leastExponent

theorem isCanonical_of_parts
    {value : Float}
    {negative : Bool}
    {significand : Nat}
    {exponent : Int}
    (finite : Binary64.parts value = .finite negative significand exponent) :
    IsCanonical significand exponent := by
  have small : value.toBits.toNat % Binary64.hiddenBit < Binary64.hiddenBit :=
    Nat.mod_lt _ (by decide)
  simp only [Binary64.parts] at finite
  split_ifs at finite with reserved stored subnormal
  · cases finite
    exact ⟨by omega, le_rfl, .inr rfl⟩
  · cases finite
    exact ⟨by omega, by omega, .inl (by omega)⟩

/-! ## The value -/

/-- The value of a sign, a significand and an exponent. -/
def dyadic
    (negative : Bool)
    (significand : Nat)
    (exponent : Int) :
    ℚ :=
  (if negative then -1 else 1) * (significand * 2 ^ exponent)

/-- The value that the parts of a double stand for, if it is an ordinary number. -/
def valueOf? : Binary64.Parts → Option ℚ
  | .finite negative significand exponent => some (dyadic negative significand exponent)
  | .infinite _ => none
  | .undefined => none

/-- The exact value of an ordinary double. -/
def exactValue? (value : Float) : Option ℚ :=
  valueOf? (Binary64.parts value)

/-! ## The order -/

section Order

variable
  {significand other : Nat}
  {exponent further : Int}

/-- Of two doubles without sign the one with the larger exponent is larger. -/
theorem IsCanonical.lt_of_exponent_lt
    (first : IsCanonical significand exponent)
    (second : IsCanonical other further)
    (larger : exponent < further) :
    (significand : ℚ) * 2 ^ exponent < other * 2 ^ further := by
  have normal : Binary64.hiddenBit ≤ other :=
    second.normal.resolve_right (first.least.trans_lt larger).ne'
  have positive : (0 : ℚ) < 2 ^ exponent := zpow_pos two_pos _
  calc
    (significand : ℚ) * 2 ^ exponent
        < (2 * Binary64.hiddenBit : Nat) * 2 ^ exponent :=
      mul_lt_mul_of_pos_right (Nat.cast_lt.mpr first.small) positive
    _ = Binary64.hiddenBit * 2 ^ (exponent + 1) := by
      rw [zpow_add_one₀ two_ne_zero]
      push_cast
      ring
    _ ≤ other * 2 ^ further :=
      mul_le_mul (Nat.cast_le.mpr normal)
        (zpow_le_zpow_right₀ one_le_two larger)
        (zpow_nonneg two_pos.le _) (Nat.cast_nonneg _)

/-- Doubles without sign are ordered by exponent first and then by significand. -/
theorem IsCanonical.compare_eq
    (first : IsCanonical significand exponent)
    (second : IsCanonical other further) :
    (compare exponent further).then (compare significand other) =
      compare ((significand : ℚ) * 2 ^ exponent) (other * 2 ^ further) := by
  rcases lt_trichotomy exponent further with less | rfl | greater
  · rw [compare_lt_iff_lt.mpr less, compare_lt_iff_lt.mpr (first.lt_of_exponent_lt second less)]
    rfl
  · have positive : (0 : ℚ) < 2 ^ exponent := zpow_pos two_pos _
    rw [compare_eq_iff_eq.mpr rfl, Ordering.eq_then]
    rcases lt_trichotomy significand other with less | rfl | greater
    · rw [compare_lt_iff_lt.mpr less,
        compare_lt_iff_lt.mpr (mul_lt_mul_of_pos_right (Nat.cast_lt.mpr less) positive)]
    · rw [compare_eq_iff_eq.mpr rfl, compare_eq_iff_eq.mpr rfl]
    · rw [compare_gt_iff_gt.mpr greater,
        compare_gt_iff_gt.mpr (mul_lt_mul_of_pos_right (Nat.cast_lt.mpr greater) positive)]
  · rw [compare_gt_iff_gt.mpr greater,
      compare_gt_iff_gt.mpr (second.lt_of_exponent_lt first greater)]
    rfl

theorem magnitude_pos
    (positive : 0 < significand)
    (exponent : Int) :
    (0 : ℚ) < significand * 2 ^ exponent :=
  mul_pos (Nat.cast_pos.mpr positive) (zpow_pos two_pos _)

theorem dyadic_true (significand : Nat) (exponent : Int) :
    dyadic true significand exponent = -(significand * 2 ^ exponent) :=
  neg_one_mul _

theorem dyadic_false (significand : Nat) (exponent : Int) :
    dyadic false significand exponent = significand * 2 ^ exponent :=
  one_mul _

theorem dyadic_zero (negative : Bool) (exponent : Int) :
    dyadic negative 0 exponent = 0 := by
  rw [dyadic, Nat.cast_zero, zero_mul, mul_zero]

end Order

theorem compare_neg_neg (left right : ℚ) :
    compare (-left) (-right) = (compare left right).swap := by
  rcases lt_trichotomy left right with less | rfl | greater
  · rw [compare_lt_iff_lt.mpr less, compare_gt_iff_gt.mpr (neg_lt_neg less)]
    rfl
  · rw [compare_eq_iff_eq.mpr rfl, compare_eq_iff_eq.mpr rfl]
    rfl
  · rw [compare_gt_iff_gt.mpr greater, compare_lt_iff_lt.mpr (neg_lt_neg greater)]
    rfl

/-- A zero is compared by the sign of the other double. -/
theorem compare_zero_finite
    (zeroSign sign : Sign)
    {significand : Nat}
    (exponent : Int)
    (positive : 0 < significand) :
    (UnpackedFloat.zero zeroSign).compare (.finite sign significand exponent positive) =
      some (compare 0 (dyadic (isNegative sign) significand exponent)) := by
  have magnitude := magnitude_pos positive exponent
  cases sign with
  | negative =>
      rw [isNegative, dyadic_true, compare_gt_iff_gt.mpr (neg_neg_of_pos magnitude)]
      rfl
  | positive =>
      rw [isNegative, dyadic_false, compare_lt_iff_lt.mpr magnitude]
      rfl

/-- Doubles that are not zero are compared by their signs, and of one sign by magnitude. -/
theorem compare_finite_finite
    (firstSign secondSign : Sign)
    {significand other : Nat}
    {exponent further : Int}
    (positive : 0 < significand)
    (otherPositive : 0 < other)
    (first : IsCanonical significand exponent)
    (second : IsCanonical other further) :
    (UnpackedFloat.finite firstSign significand exponent positive).compare
        (.finite secondSign other further otherPositive) =
      some
        (compare (dyadic (isNegative firstSign) significand exponent)
          (dyadic (isNegative secondSign) other further)) := by
  have magnitude := magnitude_pos positive exponent
  have otherMagnitude := magnitude_pos otherPositive further
  have magnitudes := first.compare_eq second
  cases firstSign with
  | negative =>
      cases secondSign with
      | negative =>
          rw [isNegative, dyadic_true, dyadic_true, compare_neg_neg, ← magnitudes]
          rfl
      | positive =>
          have less := (neg_neg_of_pos magnitude).trans otherMagnitude
          rw [isNegative, isNegative, dyadic_true, dyadic_false, compare_lt_iff_lt.mpr less]
          rfl
  | positive =>
      cases secondSign with
      | negative =>
          have greater := (neg_neg_of_pos otherMagnitude).trans magnitude
          rw [isNegative, isNegative, dyadic_true, dyadic_false, compare_gt_iff_gt.mpr greater]
          rfl
      | positive =>
          rw [isNegative, dyadic_false, dyadic_false, ← magnitudes]
          rfl

/-- Unpacked doubles are compared by their values. -/
theorem compare_eq_of_values
    {first second : UnpackedFloat}
    {left right : ℚ}
    (firstCanonical :
      ∀ negative significand exponent,
        partsOf first = .finite negative significand exponent →
          IsCanonical significand exponent)
    (secondCanonical :
      ∀ negative significand exponent,
        partsOf second = .finite negative significand exponent →
          IsCanonical significand exponent)
    (firstValue : valueOf? (partsOf first) = some left)
    (secondValue : valueOf? (partsOf second) = some right) :
    first.compare second = some (compare left right) := by
  cases first with
  | notANumber | infinity _ => cases firstValue
  | zero sign =>
      cases second with
      | notANumber | infinity _ => cases secondValue
      | zero other =>
          obtain rfl := Option.some.inj firstValue
          obtain rfl := Option.some.inj secondValue
          rw [dyadic_zero, dyadic_zero, compare_eq_iff_eq.mpr rfl]
          rfl
      | finite other significand exponent positive =>
          obtain rfl := Option.some.inj firstValue
          obtain rfl := Option.some.inj secondValue
          rw [dyadic_zero]
          exact compare_zero_finite sign other exponent positive
  | finite sign significand exponent positive =>
      cases second with
      | notANumber | infinity _ => cases secondValue
      | zero other =>
          obtain rfl := Option.some.inj firstValue
          obtain rfl := Option.some.inj secondValue
          rw [dyadic_zero, compare_swap, compare_zero_finite, Option.map_some,
            ← Std.OrientedCmp.eq_swap]
      | finite other otherSignificand further otherPositive =>
          obtain rfl := Option.some.inj firstValue
          obtain rfl := Option.some.inj secondValue
          exact compare_finite_finite sign other positive otherPositive
            (firstCanonical _ _ _ rfl) (secondCanonical _ _ _ rfl)

variable
  {first second : Float}
  {left right : ℚ}

/-- Ordinary doubles are compared by their exact values. -/
theorem compare_exactValue
    (firstValue : exactValue? first = some left)
    (secondValue : exactValue? second = some right) :
    first.toModel.unpack.compare second.toModel.unpack = some (compare left right) := by
  rw [exactValue?, parts_eq] at firstValue secondValue
  refine compare_eq_of_values ?_ ?_ firstValue secondValue
  · intro negative significand exponent finite
    exact isCanonical_of_parts ((parts_eq first).trans finite)
  · intro negative significand exponent finite
    exact isCanonical_of_parts ((parts_eq second).trans finite)

theorem lt_iff_exactValue
    (firstValue : exactValue? first = some left)
    (secondValue : exactValue? second = some right) :
    first < second ↔ left < right := by
  rw [lt_iff, UnpackedFloat.lt, compare_exactValue firstValue secondValue, beq_iff_eq,
    Option.some.injEq, compare_lt_iff_lt]

/-! ## The whole part as a count -/

/-- Bits that are shifted out leave the quotient by a power of two. -/
theorem mantissa_shiftRight
    (extended : ExtendedMantissa)
    (places : Nat) :
    (extended >>> places).mantissa = extended.mantissa / 2 ^ places := by
  induction places with
  | zero => exact (Nat.div_one _).symm
  | succ places inductionHypothesis =>
      have step : (extended >>> (places + 1)).mantissa = (extended >>> places).mantissa / 2 := rfl
      rw [step, inductionHypothesis, Nat.div_div_eq_div_mul, ← Nat.pow_succ]

/-- The whole part of a finite double, whose sign is kept apart. -/
theorem roundToInt_eq
    (sign : Sign)
    (significand : Nat)
    (exponent : Int) :
    roundToInt sign significand exponent = sign.apply ⌊(significand : ℚ) * 2 ^ exponent⌋₊ := by
  obtain ⟨places, rfl | rfl⟩ := exponent.eq_nat_or_neg
  · have shifted :
        roundToInt sign significand places = sign.apply (significand <<< places : Nat) := by
      have up : ((places : Int) - 0).toNat = places := by omega
      have down : (0 - ((places : Int) - places)).toNat = 0 := by omega
      simp only [roundToInt, decreaseExponent, shiftToExponent, up, down,
        ExtendedMantissa.ofMantissaAndAccuracy, mantissa_shiftRight, pow_zero, Nat.div_one]
    have whole : (significand : ℚ) * 2 ^ places = (significand * 2 ^ places : Nat) := by
      push_cast
      rfl
    rw [shifted, Nat.shiftLeft_eq, zpow_natCast, whole, Nat.floor_natCast]
  · have shifted :
        roundToInt sign significand (-places) = sign.apply (significand / 2 ^ places : Nat) := by
      have up : (-(places : Int) - 0).toNat = 0 := by omega
      have down : (0 - (-(places : Int) - (0 : Nat))).toNat = places := by omega
      simp only [roundToInt, decreaseExponent, shiftToExponent, up, down,
        ExtendedMantissa.ofMantissaAndAccuracy, mantissa_shiftRight, Nat.shiftLeft_zero]
    have quotient :
        (significand : ℚ) * 2 ^ (-(places : Int)) = significand / (2 ^ places : Nat) := by
      rw [zpow_neg, zpow_natCast, div_eq_mul_inv]
      push_cast
      rfl
    rw [shifted, quotient, Nat.floor_div_eq_div]

/-- The largest count that is read off a double. -/
def greatestCount : Nat := 2 ^ 64 - 1

theorem toNat_ofNatClamp (count : Nat) :
    (UInt64.ofNatClamp count).toNat = min count greatestCount := by
  by_cases small : count < UInt64.size
  · have below : count ≤ greatestCount := Nat.le_pred_of_lt small
    rw [UInt64.toNat_ofNatClamp_of_lt small, min_eq_left below]
  · have above : greatestCount ≤ count := (Nat.pred_le _).trans (not_lt.mp small)
    rw [UInt64.toNat_ofNatClamp_of_le (not_lt.mp small), min_eq_right above]
    rfl

/-- The count of a double is that of its integer, held between zero and the largest. -/
theorem toCount_eq_min (value : Float) :
    Scalar.toCount value =
      min (value.toModel.unpack.toInt 0 (UInt64.size - 1)).toNat greatestCount :=
  toNat_ofNatClamp _

/-- The count of an ordinary double is its whole part, held between zero and the largest. -/
theorem toCount_eq
    {value : Float}
    {exact : ℚ}
    (hasValue : exactValue? value = some exact) :
    Scalar.toCount value = min ⌊exact⌋₊ greatestCount := by
  rw [exactValue?, parts_eq] at hasValue
  rw [toCount_eq_min]
  congr 1
  cases kind : value.toModel.unpack with
  | notANumber | infinity _ => rw [kind] at hasValue; cases hasValue
  | zero sign =>
      rw [kind] at hasValue
      obtain rfl := Option.some.inj hasValue
      rw [dyadic_zero, Nat.floor_zero]
      rfl
  | finite sign significand exponent positive =>
      rw [kind] at hasValue
      obtain rfl := Option.some.inj hasValue
      rw [UnpackedFloat.toInt, roundToInt_eq]
      cases sign with
      | negative =>
          have below := neg_nonpos.mpr (magnitude_pos positive exponent).le
          rw [isNegative, dyadic_true, Nat.floor_of_nonpos below]
          exact Int.toNat_of_nonpos (neg_nonpos.mpr (Nat.cast_nonneg _))
      | positive =>
          rw [isNegative, dyadic_false]
          exact Int.toNat_natCast _

/-! ## Doubles of one value -/

theorem signBit_add_rest
    {bits : Nat}
    (width : bits < 2 ^ 64) :
    Binary64.signBit (decide (Binary64.powerOfTwo 63 ≤ bits)) + bits % Binary64.powerOfTwo 63 =
      bits := by
  by_cases negative : Binary64.powerOfTwo 63 ≤ bits
  · have below : bits - Binary64.powerOfTwo 63 < Binary64.powerOfTwo 63 :=
      (Nat.sub_lt_iff_lt_add negative).mpr width
    have rest : bits % Binary64.powerOfTwo 63 = bits - Binary64.powerOfTwo 63 :=
      (Nat.mod_eq_sub_mod negative).trans (Nat.mod_eq_of_lt below)
    rw [decide_eq_true negative, rest]
    exact Nat.add_sub_cancel' negative
  · rw [decide_eq_false negative, Nat.mod_eq_of_lt (not_le.mp negative)]
    exact Nat.zero_add bits

/-- The bits of an ordinary double are made up of its parts. -/
theorem toBits_of_parts
    {value : Float}
    {negative : Bool}
    {significand : Nat}
    {exponent : Int}
    (finite : Binary64.parts value = .finite negative significand exponent) :
    value.toBits.toNat =
      Binary64.signBit negative +
        ((exponent - Binary64.leastExponent).toNat * Binary64.hiddenBit + significand) := by
  have width : value.toBits.toNat < 2 ^ 64 := value.toBits.toBitVec.isLt
  have sign := signBit_add_rest width
  have bit : Binary64.hiddenBit = 4503599627370496 := rfl
  have top : Binary64.powerOfTwo 63 = 9223372036854775808 := rfl
  simp only [Binary64.parts] at finite
  generalize value.toBits.toNat = bits at *
  split_ifs at finite with reserved stored subnormal
  · cases finite
    have rest : bits % Binary64.powerOfTwo 63 = bits % Binary64.hiddenBit := by
      rw [bit] at subnormal
      rw [bit, top]
      omega
    rw [sub_self, Int.toNat_zero, zero_mul, zero_add, ← rest, sign]
  · cases finite
    have field :
        ((bits / Binary64.hiddenBit % 2048 : Nat) - 1 + Binary64.leastExponent -
            Binary64.leastExponent : Int).toNat =
          bits / Binary64.hiddenBit % 2048 - 1 := by
      omega
    have rest :
        bits % Binary64.powerOfTwo 63 =
          (bits / Binary64.hiddenBit % 2048 - 1) * Binary64.hiddenBit +
            (Binary64.hiddenBit + bits % Binary64.hiddenBit) := by
      rw [bit] at subnormal
      rw [bit, top]
      omega
    rw [field, ← rest, sign]

/-- Doubles whose parts are the same finite ones are the same. -/
theorem eq_of_parts
    {first second : Float}
    {negative : Bool}
    {significand : Nat}
    {exponent : Int}
    (firstFinite : Binary64.parts first = .finite negative significand exponent)
    (secondFinite : Binary64.parts second = .finite negative significand exponent) :
    first = second := by
  have bits : first.toBits.toNat = second.toBits.toNat :=
    (toBits_of_parts firstFinite).trans (toBits_of_parts secondFinite).symm
  have same : first.toModel.toBits = second.toModel.toBits := UInt64.toNat_inj.mp bits
  obtain ⟨⟨firstBits, _⟩⟩ := first
  obtain ⟨⟨secondBits, _⟩⟩ := second
  obtain rfl : firstBits = secondBits := same
  rfl

theorem abs_dyadic
    (negative : Bool)
    (significand : Nat)
    (exponent : Int) :
    |dyadic negative significand exponent| = significand * 2 ^ exponent := by
  have nonneg : (0 : ℚ) ≤ significand * 2 ^ exponent := by positivity
  cases negative with
  | false => rw [dyadic_false, abs_of_nonneg nonneg]
  | true => rw [dyadic_true, abs_neg, abs_of_nonneg nonneg]

/-- Canonical parts of one value other than zero are the same. -/
theorem dyadic_injective
    {negative other : Bool}
    {significand otherSignificand : Nat}
    {exponent further : Int}
    (first : IsCanonical significand exponent)
    (second : IsCanonical otherSignificand further)
    (notZero : dyadic negative significand exponent ≠ 0)
    (same : dyadic negative significand exponent = dyadic other otherSignificand further) :
    negative = other ∧ significand = otherSignificand ∧ exponent = further := by
  have equal : (significand : ℚ) * 2 ^ exponent = otherSignificand * 2 ^ further := by
    rw [← abs_dyadic negative, ← abs_dyadic other, same]
  have magnitudes := first.compare_eq second
  rw [equal, compare_eq_iff_eq.mpr rfl, Ordering.then_eq_eq, compare_eq_iff_eq,
    compare_eq_iff_eq] at magnitudes
  refine ⟨?_, magnitudes.2, magnitudes.1⟩
  rw [dyadic, equal] at notZero
  rw [dyadic, dyadic, equal] at same
  have signs := mul_right_cancel₀ (right_ne_zero_of_mul notZero) same
  cases negative with
  | false =>
      cases other with
      | false => rfl
      | true => norm_num at signs
  | true =>
      cases other with
      | false => norm_num at signs
      | true => rfl

/-- Doubles of one value are the same, but for the two zeros. -/
theorem eq_of_exactValue
    {first second : Float}
    {exact : ℚ}
    (notZero : exact ≠ 0)
    (firstValue : exactValue? first = some exact)
    (secondValue : exactValue? second = some exact) :
    first = second := by
  unfold exactValue? at firstValue secondValue
  cases firstKind : Binary64.parts first with
  | undefined | infinite _ => rw [firstKind] at firstValue; cases firstValue
  | finite negative significand exponent =>
      cases secondKind : Binary64.parts second with
      | undefined | infinite _ => rw [secondKind] at secondValue; cases secondValue
      | finite other otherSignificand further =>
          have firstCanonical := isCanonical_of_parts firstKind
          have secondCanonical := isCanonical_of_parts secondKind
          rw [firstKind] at firstValue
          rw [secondKind] at secondValue
          obtain rfl := Option.some.inj firstValue
          have same := Option.some.inj secondValue
          obtain ⟨rfl, rfl, rfl⟩ :=
            dyadic_injective firstCanonical secondCanonical notZero same.symm
          exact eq_of_parts firstKind secondKind

end Electrostatics.Double
