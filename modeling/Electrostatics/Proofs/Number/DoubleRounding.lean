import Electrostatics.Proofs.Number.DoubleValue
import Electrostatics.Proofs.Number.Exact

namespace Electrostatics.Double

/-!
# Rounding doubles to whole numbers

A double with places behind the point is rounded by way of its parts: the quotient of its
significand is rounded as a natural number, and the double of that number is put together
from bits.  Since the number fits the significand nothing is rounded a second time, and the
result has the value that is rounded exactly.
-/

open Float.Model Float.Model.UnpackedFloat

/-! ## Bits that are packed again -/

theorem toNat_packComponents
    (sign : Sign)
    (exponent : BitVec 11)
    (mantissa : BitVec 52) :
    (packComponents .binary64 sign exponent mantissa).toNat =
      sign.toBitVec.toNat * 2 ^ 63 + exponent.toNat * Binary64.hiddenBit + mantissa.toNat := by
  have exponentSmall := exponent.isLt
  have mantissaSmall := mantissa.isLt
  have bit : Binary64.hiddenBit = 2 ^ 52 := rfl
  rw [packComponents, BitVec.toNat_append, ← Nat.shiftLeft_add_eq_or_of_lt mantissaSmall,
    BitVec.toNat_append, ← Nat.shiftLeft_add_eq_or_of_lt exponentSmall, Nat.shiftLeft_eq,
    Nat.shiftLeft_eq, bit]
  ring

/-- The fields of a bit pattern make it up. -/
theorem packComponents_fields (bits : BitVec 64) :
    packComponents .binary64 (Sign.ofBitVec (@unpackSign .binary64 bits))
        (@unpackExponent .binary64 bits) (@unpackMantissa .binary64 bits) =
      bits := by
  have sign : ∀ field : BitVec 1, (Sign.ofBitVec field).toBitVec = field := by decide
  have width : bits.toNat < 2 ^ 64 := bits.isLt
  have bit : Binary64.hiddenBit = 2 ^ 52 := rfl
  refine BitVec.eq_of_toNat_eq ?_
  rw [toNat_packComponents, sign, toNat_unpackSign, toNat_unpackExponent, toNat_unpackMantissa, bit]
  omega

theorem log2_of_normal
    {significand : Nat}
    (normal : Binary64.hiddenBit ≤ significand)
    (small : significand < 2 * Binary64.hiddenBit) :
    significand.log2 = 52 :=
  (Nat.log2_eq_iff (Nat.pos_of_ne_zero fun zero => absurd (zero ▸ normal) (by decide)).ne').mpr
    ⟨normal, small⟩

/-- A normal double loses its hidden bit when it is packed. -/
theorem pack_normal
    {significand field : Nat}
    (sign : Sign)
    (normal : Binary64.hiddenBit ≤ significand)
    (small : significand < 2 * Binary64.hiddenBit)
    (ordinary : field < 2047)
    (positive : 0 < significand) :
    UnpackedFloat.pack .binary64
        (.finite sign significand
          ((field : Int) -
            (Format.binary64.exponentBias + Format.binary64.mantissaBitsWithoutImplicit : Int))
          positive) =
      packComponents .binary64 sign (.ofNat 11 field) (.ofNat 52 significand) := by
  have biased :
      ((field : Int) -
              (Format.binary64.exponentBias + Format.binary64.mantissaBitsWithoutImplicit : Int) +
            Format.binary64.exponentBias +
          Format.binary64.mantissaBitsWithoutImplicit).toNat =
        field := by
    omega
  have inside : ¬ 2 ^ Format.binary64.exponentBits ≤ field + 1 := by
    have width : 2 ^ Format.binary64.exponentBits = 2048 := rfl
    omega
  have bits : significand.log2 + 1 = Format.binary64.mantissaBits := by
    rw [log2_of_normal normal small]
    rfl
  simp only [UnpackedFloat.pack, biased, if_neg inside, if_pos bits]

/-- A double below the normal ones keeps its significand when it is packed. -/
theorem pack_subnormal
    {significand : Nat}
    {exponent : Int}
    (sign : Sign)
    (small : significand < Binary64.hiddenBit)
    (least : exponent = Binary64.leastExponent)
    (positive : 0 < significand) :
    UnpackedFloat.pack .binary64 (.finite sign significand exponent positive) =
      packComponents .binary64 sign 0#11 (.ofNat 52 significand) := by
  have biased :
      (exponent + Format.binary64.exponentBias +
          Format.binary64.mantissaBitsWithoutImplicit).toNat =
        1 := by
    rw [least]
    rfl
  have inside : ¬ 2 ^ Format.binary64.exponentBits ≤ 1 + 1 := by decide
  have bits : significand.log2 + 1 ≠ Format.binary64.mantissaBits := by
    have fewer : significand.log2 < 52 := (Nat.log2_lt positive.ne').mpr small
    have width : Format.binary64.mantissaBits = 53 := rfl
    omega
  simp only [UnpackedFloat.pack, biased, if_neg inside, if_neg bits]

/-- A bit pattern without the reserved exponent is packed again as it was. -/
theorem pack_unpack
    {bits : BitVec 64}
    (ordinary : bits.toNat / Binary64.hiddenBit % 2048 ≠ 2047) :
    UnpackedFloat.pack .binary64 (UnpackedFloat.unpack .binary64 bits) = bits := by
  have fields := packComponents_fields bits
  have exponent := toNat_unpackExponent bits
  have mantissa : (@unpackMantissa .binary64 bits).toNat < Binary64.hiddenBit :=
    (@unpackMantissa .binary64 bits).isLt
  have reserved : @unpackExponent .binary64 bits ≠ -1#11 :=
    fun same => ordinary ((unpackExponent_eq_iff bits _).mp same)
  simp only [UnpackedFloat.unpack, if_neg reserved]
  by_cases subnormal : @unpackExponent .binary64 bits = 0#11
  · rw [if_pos subnormal]
    rw [subnormal] at fields
    by_cases zero : @unpackMantissa .binary64 bits = 0#52
    · rw [zero] at fields
      rw [dif_pos zero]
      exact fields
    · rw [dif_neg zero, pack_subnormal _ mantissa (by rw [subnormal]; rfl), BitVec.ofNat_toNat,
        BitVec.setWidth_eq]
      exact fields
  · rw [if_neg subnormal]
    have hidden := toNat_hidden_append bits
    have inside : bits.toNat % Binary64.hiddenBit < Binary64.hiddenBit :=
      Nat.mod_lt _ (by decide)
    have stored :
        BitVec.ofNat 52 (1#1 ++ @unpackMantissa .binary64 bits).toNat =
          @unpackMantissa .binary64 bits := by
      refine BitVec.eq_of_toNat_eq ?_
      rw [BitVec.toNat_ofNat, hidden, toNat_unpackMantissa]
      exact (Nat.add_mod_left _ _).trans (Nat.mod_mod _ _)
    rw [pack_normal _ (by omega) (by omega) (by omega), stored, BitVec.ofNat_toNat,
      BitVec.setWidth_eq]
    exact fields

/-! ## Doubles of a bit pattern -/

/-- A bit pattern without the reserved exponent is what its double has. -/
theorem toBits_ofBits
    {bits : UInt64}
    (ordinary : bits.toNat / Binary64.hiddenBit % 2048 ≠ 2047) :
    (Float.ofBits bits).toBits = bits :=
  congrArg UInt64.ofBitVec (pack_unpack ordinary)

/-- The fields of a bit pattern made of a sign and a magnitude below that of infinity. -/
theorem fields_of_magnitude
    (negative : Bool)
    {magnitude : Nat}
    (small : magnitude < Binary64.infinityBits) :
    let bits := Binary64.signBit negative + magnitude
    bits < 2 ^ 64 ∧
      bits / Binary64.hiddenBit % 2048 = magnitude / Binary64.hiddenBit ∧
      bits % Binary64.hiddenBit = magnitude % Binary64.hiddenBit ∧
      decide (Binary64.powerOfTwo 63 ≤ bits) = negative := by
  have limit : Binary64.infinityBits = 9218868437227405312 := rfl
  have bit : Binary64.hiddenBit = 4503599627370496 := rfl
  have top : Binary64.powerOfTwo 63 = 9223372036854775808 := rfl
  intro bits
  rw [limit] at small
  rw [bit, top]
  cases negative with
  | true =>
      have total : bits = 9223372036854775808 + magnitude := rfl
      rw [decide_eq_true_iff]
      omega
  | false =>
      have total : bits = 0 + magnitude := rfl
      rw [decide_eq_false_iff_not]
      omega

/-- The parts of a double made of a sign and a magnitude below that of infinity. -/
theorem parts_ofMagnitudeBits
    (negative : Bool)
    {magnitude : Nat}
    (small : magnitude < Binary64.infinityBits) :
    Binary64.parts (Binary64.ofMagnitudeBits negative magnitude) =
      if magnitude / Binary64.hiddenBit = 0 then
        .finite negative (magnitude % Binary64.hiddenBit) Binary64.leastExponent
      else
        .finite negative (Binary64.hiddenBit + magnitude % Binary64.hiddenBit)
          ((magnitude / Binary64.hiddenBit : Nat) - 1 + Binary64.leastExponent) := by
  obtain ⟨width, field, stored, sign⟩ := fields_of_magnitude negative small
  have ordinary : magnitude / Binary64.hiddenBit ≠ 2047 :=
    ((Nat.div_lt_iff_lt_mul (by decide)).mpr small).ne
  have whole :
      (UInt64.ofNat (Binary64.signBit negative + min magnitude Binary64.infinityBits)).toNat =
        Binary64.signBit negative + magnitude := by
    rw [min_eq_left small.le, UInt64.toNat_ofNat']
    exact Nat.mod_eq_of_lt width
  have kept := toBits_ofBits (by rw [whole, field]; exact ordinary)
  simp only [Binary64.parts, Binary64.ofMagnitudeBits, kept, whole, field, stored, sign,
    if_neg ordinary]

/-! ## Whole numbers -/

theorem roundQuotient_one
    (tie : Tie)
    (whole : Nat) :
    roundQuotient tie whole 1 = whole := by
  simp [roundQuotient, Nat.mod_one]

theorem floorLog2_one
    {whole : Nat}
    (positive : 0 < whole) :
    Binary64.floorLog2 whole 1 = whole.log2 := by
  have one : (Nat.log2 1 : Int) = 0 := rfl
  have reached : 1 * Binary64.powerOfTwo (whole.log2 : Int).toNat ≤ whole := by
    rw [one_mul, Int.toNat_natCast]
    exact Nat.log2_self_le positive.ne'
  simp only [Binary64.floorLog2, one, sub_zero, if_pos (Int.natCast_nonneg _),
    if_pos reached]

theorem log2_le_of_fits
    {whole : Nat}
    (positive : 0 < whole)
    (small : whole ≤ Binary64.hiddenBit) :
    whole.log2 ≤ 52 := by
  have below : whole < 2 ^ 53 := small.trans_lt (by decide)
  exact Nat.le_of_lt_succ ((Nat.log2_lt positive.ne').mpr below)

/-- A whole number that is moved up to the hidden bit. -/
theorem shifted_whole
    {whole : Nat}
    (positive : 0 < whole)
    (width : whole.log2 ≤ 52) :
    Binary64.hiddenBit ≤ whole * 2 ^ (52 - whole.log2) ∧
      whole * 2 ^ (52 - whole.log2) < 2 * Binary64.hiddenBit := by
  have bit : Binary64.hiddenBit = 2 ^ whole.log2 * 2 ^ (52 - whole.log2) := by
    rw [← pow_add, Nat.add_sub_cancel' width]
    rfl
  have room : 0 < 2 ^ (52 - whole.log2) := Nat.two_pow_pos _
  rw [bit, ← mul_assoc, ← pow_succ']
  exact
    ⟨Nat.mul_le_mul_right _ (Nat.log2_self_le positive.ne'),
      Nat.mul_lt_mul_of_pos_right Nat.lt_log2_self room⟩

/-- The significand of a whole number is not rounded. -/
theorem significand_of_whole
    {whole : Nat}
    (width : whole.log2 ≤ 52) :
    (if 0 ≤ (whole.log2 : Int) - 52 then
        roundQuotient .toEven whole (1 * Binary64.powerOfTwo ((whole.log2 : Int) - 52).toNat)
      else
        roundQuotient .toEven (whole * Binary64.powerOfTwo (-((whole.log2 : Int) - 52)).toNat) 1) =
      whole * 2 ^ (52 - whole.log2) := by
  by_cases full : whole.log2 = 52
  · rw [full]
    exact (roundQuotient_one _ _).trans (Nat.mul_one _).symm
  · have places : (-((whole.log2 : Int) - 52)).toNat = 52 - whole.log2 := by omega
    rw [if_neg (by omega), places]
    exact roundQuotient_one _ _

/-- The parts of the double of a whole number that fits the significand. -/
theorem parts_nearest_whole
    (negative : Bool)
    {whole : Nat}
    (positive : 0 < whole)
    (small : whole ≤ Binary64.hiddenBit) :
    Binary64.parts (Binary64.nearest negative whole 1) =
      .finite negative (whole * 2 ^ (52 - whole.log2)) (whole.log2 - 52) := by
  have width := log2_le_of_fits positive small
  obtain ⟨normal, fits⟩ := shifted_whole positive width
  have unit : max ((whole.log2 : Int) - 52) Binary64.leastExponent = whole.log2 - 52 :=
    max_eq_left (by rw [Binary64.leastExponent]; omega)
  have field : ((whole.log2 : Int) - 52 - Binary64.leastExponent).toNat = whole.log2 + 1022 := by
    rw [Binary64.leastExponent]
    omega
  simp only [Binary64.nearest, if_neg positive.ne', floorLog2_one positive, unit,
    significand_of_whole width, field]
  generalize whole * 2 ^ (52 - whole.log2) = significand at normal fits ⊢
  have bit : 0 < Binary64.hiddenBit := by decide
  have quotient : significand / Binary64.hiddenBit = 1 :=
    (Nat.div_eq_iff bit).mpr ⟨by omega, by omega⟩
  have exponent :
      ((whole.log2 + 1022) * Binary64.hiddenBit + significand) / Binary64.hiddenBit =
        whole.log2 + 1023 := by
    rw [Nat.add_comm, Nat.add_mul_div_right _ _ bit, quotient]
    omega
  have stored : Binary64.hiddenBit + significand % Binary64.hiddenBit = significand := by
    have parts := Nat.div_add_mod significand Binary64.hiddenBit
    rwa [quotient, Nat.mul_one] at parts
  have finite :
      (whole.log2 + 1022) * Binary64.hiddenBit + significand < Binary64.infinityBits :=
    calc
      (whole.log2 + 1022) * Binary64.hiddenBit + significand
          < (whole.log2 + 1022) * Binary64.hiddenBit + 2 * Binary64.hiddenBit :=
        Nat.add_lt_add_left fits _
      _ = (whole.log2 + 1024) * Binary64.hiddenBit := by ring
      _ ≤ 2047 * Binary64.hiddenBit := Nat.mul_le_mul_right _ (by omega)
  have last :
      ((whole.log2 + 1023 : Nat) : Int) - 1 + Binary64.leastExponent = whole.log2 - 52 := by
    rw [Binary64.leastExponent]
    omega
  rw [parts_ofMagnitudeBits negative finite, exponent, if_neg (by omega),
    Nat.mul_add_mod_self_right, stored, last]

/-- The double of a whole number that fits the significand has its value. -/
theorem exactValue_nearest_whole
    (negative : Bool)
    {whole : Nat}
    (small : whole ≤ Binary64.hiddenBit) :
    exactValue? (Binary64.nearest negative whole 1) = some (dyadic negative whole 0) := by
  rcases Nat.eq_zero_or_pos whole with rfl | positive
  · have zero :
        Binary64.parts (Binary64.nearest negative 0 1) =
          .finite negative 0 Binary64.leastExponent :=
      (parts_ofMagnitudeBits negative (by decide)).trans (if_pos rfl)
    rw [exactValue?, zero, valueOf?, dyadic_zero, dyadic_zero]
  · have width := log2_le_of_fits positive small
    have places : (52 : Int) - whole.log2 = (52 - whole.log2 : Nat) := by omega
    rw [exactValue?, parts_nearest_whole negative positive small, valueOf?, dyadic, dyadic]
    congr 2
    rw [Nat.cast_mul, Nat.cast_pow, Nat.cast_ofNat, mul_assoc, ← zpow_natCast,
      ← zpow_add₀ two_ne_zero, ← places, sub_add_sub_cancel, sub_self]

/-! ## Rounding -/

/-- A quotient with the middle going up is rounded to the nearest whole number. -/
theorem roundQuotient_away_eq
    (numerator : Nat)
    {denominator : Nat}
    (positive : 0 < denominator) :
    ((roundQuotient .away numerator denominator : Nat) : ℤ) =
      round ((numerator : ℚ) / denominator) := by
  have whole := Nat.div_add_mod numerator denominator
  have rest := Nat.mod_lt numerator positive
  simp only [roundQuotient, Tie.goesUp, and_true]
  generalize numerator / denominator = below at whole ⊢
  generalize numerator % denominator = left at whole rest ⊢
  have room : (0 : ℚ) < denominator := Nat.cast_pos.mpr positive
  have quotient : (numerator : ℚ) / denominator = below + left / denominator := by
    rw [← whole]
    push_cast
    field_simp
  have fraction : (left : ℚ) / denominator < 1 :=
    (div_lt_one room).mpr (Nat.cast_lt.mpr rest)
  have positivePart : (0 : ℚ) ≤ left / denominator := by positivity
  rw [round_eq, eq_comm, Int.floor_eq_iff, quotient]
  split_ifs with up
  · have half : (1 : ℚ) / 2 ≤ left / denominator := by
      rw [div_le_div_iff₀ two_pos room]
      exact_mod_cast (show 1 * denominator ≤ left * 2 by omega)
    push_cast
    constructor <;> linarith
  · have half : (left : ℚ) / denominator < 1 / 2 := by
      rw [div_lt_div_iff₀ room two_pos]
      exact_mod_cast (show left * 2 < 1 * denominator by omega)
    push_cast
    constructor <;> linarith

/-- A quotient of a significand by two at least fits below the hidden bit. -/
theorem roundQuotient_le_half
    (tie : Tie)
    {numerator denominator bound : Nat}
    (small : numerator < 2 * bound)
    (large : 2 ≤ denominator) :
    roundQuotient tie numerator denominator ≤ bound := by
  have below : numerator / denominator < bound :=
    (Nat.div_lt_iff_lt_mul (by omega)).mpr
      (small.trans_le ((Nat.mul_comm 2 bound).trans_le (Nat.mul_le_mul_left bound large)))
  simp only [roundQuotient]
  split_ifs <;> omega

/-- Rounding does not look at the sign. -/
theorem roundHalfAway_signed
    (negative : Bool)
    {magnitude : ℚ}
    (nonneg : 0 ≤ magnitude) :
    Exact.roundHalfAway ((if negative then -1 else 1) * magnitude) =
      (if negative then -1 else 1) * round magnitude := by
  cases negative with
  | false =>
      rw [if_neg Bool.false_ne_true, one_mul, one_mul, Exact.roundHalfAway, if_neg nonneg.not_gt]
  | true =>
      rw [if_pos rfl, neg_one_mul, neg_one_mul, Exact.roundHalfAway]
      rcases nonneg.eq_or_lt with rfl | positive
      · have notBelow : ¬ (-0 : ℚ) < 0 := by decide
        rw [if_neg notBelow, neg_zero, round_zero, Int.cast_zero, neg_zero]
      · rw [if_pos (neg_neg_of_pos positive), neg_neg]

/-- An ordinary double is rounded to the whole number nearest to its value. -/
theorem exactValue_round
    {value : Float}
    {exact : ℚ}
    (hasValue : exactValue? value = some exact) :
    exactValue? (Scalar.round value) = some (Exact.roundHalfAway exact) := by
  have rounded : Scalar.round value = Binary64.roundToWhole value := rfl
  rw [rounded, Binary64.roundToWhole]
  cases kind : Binary64.parts value with
  | undefined | infinite _ => rw [exactValue?, kind] at hasValue; cases hasValue
  | finite negative significand exponent =>
      have canonical := isCanonical_of_parts kind
      rw [exactValue?, kind] at hasValue
      obtain rfl := Option.some.inj hasValue
      have magnitude : (0 : ℚ) ≤ significand * 2 ^ exponent := by positivity
      rw [dyadic, roundHalfAway_signed negative magnitude]
      by_cases fractional : exponent < 0
      · obtain ⟨places, rfl⟩ := Int.exists_eq_neg_ofNat fractional.le
        have large : 2 ≤ Binary64.powerOfTwo places :=
          Nat.pow_le_pow_right two_pos (show 1 ≤ places by omega)
        have fits := roundQuotient_le_half .away canonical.small large
        have quotient :
            (significand : ℚ) * 2 ^ (-(places : ℤ)) =
              significand / (Binary64.powerOfTwo places : Nat) := by
          have power : ((Binary64.powerOfTwo places : Nat) : ℚ) = 2 ^ places :=
            Nat.cast_pow 2 places
          rw [zpow_neg, zpow_natCast, power, div_eq_mul_inv]
        have whole := exactValue_nearest_whole negative fits
        rw [quotient, ← roundQuotient_away_eq _ (by omega)]
        simp only [if_pos fractional, neg_neg, Int.toNat_natCast]
        rw [whole, dyadic, zpow_zero, mul_one, Int.cast_natCast]
      · obtain ⟨places, rfl⟩ := Int.eq_ofNat_of_zero_le (not_lt.mp fractional)
        have whole : (significand : ℚ) * 2 ^ (places : ℤ) = (significand * 2 ^ places : Nat) := by
          push_cast
          rw [zpow_natCast]
        simp only [if_neg fractional]
        rw [exactValue?, kind, valueOf?, dyadic, whole, round_natCast, Int.cast_natCast]

end Electrostatics.Double
