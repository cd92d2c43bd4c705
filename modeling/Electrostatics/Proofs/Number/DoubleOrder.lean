import Mathlib
import Electrostatics.Number.Double
import Electrostatics.Proofs.Number.Order

namespace Electrostatics.Double

/-!
# The order of doubles

A double is compared by its sign, exponent and mantissa, unless it is undefined.  The
negative of a double is packed into bits anew; of what comes out again only the sign
matters here, and that is the opposite one.
-/

open Float.Model Float.Model.UnpackedFloat
open scoped Scalar

/-- The sign of an unpacked double; an undefined one has none. -/
def sign? : UnpackedFloat → Option Sign
  | .notANumber => none
  | .infinity sign => some sign
  | .zero sign => some sign
  | .finite sign _ _ _ => some sign

theorem sign?_neg (unpacked : UnpackedFloat) :
    sign? unpacked.neg = (sign? unpacked).map (fun sign => -sign) := by
  cases unpacked <;> rfl

/-! ## Comparisons of unpacked doubles -/

variable {first second : UnpackedFloat}

theorem compare_self_eq_iff :
    (first.compare first == some .eq) = (sign? first).isSome := by
  cases first with
  | notANumber => rfl
  | infinity sign => cases sign <;> rfl
  | zero sign => rfl
  | finite sign mantissa exponent positive =>
      cases sign <;> simp [UnpackedFloat.compare, sign?]

theorem compare_ne_lt_self : first.compare first ≠ some .lt := by
  cases first with
  | notANumber => simp [UnpackedFloat.compare]
  | infinity sign => cases sign <;> simp [UnpackedFloat.compare]
  | zero sign => simp [UnpackedFloat.compare]
  | finite sign mantissa exponent positive =>
      cases sign <;> simp [UnpackedFloat.compare]

/-- Exchanging two doubles exchanges less and greater. -/
theorem compare_swap :
    second.compare first = (first.compare second).map Ordering.swap := by
  cases first with
  | notANumber => cases second <;> rfl
  | infinity sign =>
      cases second with
      | infinity other => cases sign <;> cases other <;> rfl
      | notANumber | zero _ | finite _ _ _ _ => cases sign <;> rfl
  | zero sign =>
      cases second with
      | infinity other | finite other _ _ _ => cases other <;> rfl
      | notANumber | zero _ => rfl
  | finite sign mantissa exponent _ =>
      cases second with
      | notANumber => rfl
      | infinity other => cases other <;> rfl
      | zero _ => cases sign <;> rfl
      | finite other otherMantissa otherExponent _ =>
          have magnitudes :
              ((compare otherExponent exponent).then (compare otherMantissa mantissa)) =
                ((compare exponent otherExponent).then (compare mantissa otherMantissa)).swap := by
            rw [Ordering.swap_then, ← Std.OrientedCmp.eq_swap, ← Std.OrientedCmp.eq_swap]
          cases sign <;> cases other <;> simp [UnpackedFloat.compare, magnitudes]

/-- Doubles that are not undefined compare to each other. -/
theorem compare_isSome
    (firstNumber : (sign? first).isSome = true)
    (secondNumber : (sign? second).isSome = true) :
    (first.compare second).isSome = true := by
  cases first with
  | notANumber => cases firstNumber
  | infinity sign =>
      cases second with
      | notANumber => cases secondNumber
      | infinity _ | zero _ | finite _ _ _ _ => cases sign <;> rfl
  | zero sign =>
      cases second with
      | notANumber => cases secondNumber
      | zero _ => rfl
      | infinity other | finite other _ _ _ => cases other <;> rfl
  | finite sign _ _ _ =>
      cases second with
      | notANumber => cases secondNumber
      | zero _ => cases sign <;> rfl
      | infinity other | finite other _ _ _ => cases sign <;> cases other <;> rfl

theorem le_of_not_lt
    (firstNumber : (sign? first).isSome = true)
    (secondNumber : (sign? second).isSome = true)
    (notLess : first.lt second = false) :
    second.le first = true := by
  obtain ⟨order, compared⟩ :=
    Option.isSome_iff_exists.mp (compare_isSome firstNumber secondNumber)
  rw [UnpackedFloat.lt, compared] at notLess
  rw [UnpackedFloat.le, compare_swap, compared]
  cases order with
  | lt => cases notLess
  | eq | gt => rfl

/-- A negative double is not above a positive one, zeros included. -/
theorem le_of_signs
    (negative : sign? first = some .negative)
    (positive : sign? second = some .positive) :
    first.le second = true := by
  cases first <;> cases second <;> cases negative <;> cases positive <;> rfl

theorem positive_of_zero_lt
    (less : (UnpackedFloat.zero .positive).lt second = true) :
    sign? second = some .positive := by
  cases second with
  | notANumber => cases less
  | infinity sign => cases sign with
    | positive => rfl
    | negative => cases less
  | zero sign => cases less
  | finite sign mantissa exponent positive => cases sign with
    | positive => rfl
    | negative => cases less

/-! ## The negative of a double -/

theorem ofNat_ne_reserved
    {biased : Nat}
    (small : ¬ 2 ^ 11 ≤ biased + 1) :
    BitVec.ofNat 11 biased ≠ -1#11 := by
  intro reserved
  have bits := congrArg BitVec.toNat reserved
  simp only [BitVec.toNat_ofNat, BitVec.reduceNeg] at bits
  omega

/-- Components whose exponent is not the reserved one keep their sign. -/
theorem sign?_unpack_packComponents
    {sign : Sign}
    {exponent : BitVec 11}
    {mantissa : BitVec 52}
    (ordinary : exponent ≠ -1#11) :
    sign? (UnpackedFloat.unpack .binary64 (packComponents .binary64 sign exponent mantissa)) =
      some sign := by
  unfold UnpackedFloat.unpack
  simp only [unpackMantissa_packComponents, unpackExponent_packComponents,
    unpackSign_packComponents, Sign.ofBitVec_toBitVec]
  rw [if_neg ordinary]
  split_ifs <;> rfl

/-- Packing a double keeps its sign. -/
theorem sign?_unpack_pack (unpacked : UnpackedFloat) :
    sign? (UnpackedFloat.unpack .binary64 (UnpackedFloat.pack .binary64 unpacked)) =
      sign? unpacked := by
  cases unpacked with
  | notANumber => rfl
  | infinity sign | zero sign => cases sign <;> rfl
  | finite sign mantissa exponent positive =>
      simp only [UnpackedFloat.pack]
      split_ifs with tooLarge normal
      · cases sign <;> rfl
      · exact sign?_unpack_packComponents (ofNat_ne_reserved tooLarge)
      · exact sign?_unpack_packComponents (by decide)

/-- The sign of a double, taken from its bits. -/
def signOf? (value : Float) : Option Sign :=
  sign? value.toModel.unpack

theorem isNumber_iff (value : Float) :
    Scalar.isNumber value = (signOf? value).isSome :=
  compare_self_eq_iff

theorem lt_iff {first second : Float} :
    first < second ↔ first.toModel.unpack.lt second.toModel.unpack = true :=
  decide_eq_true_iff

theorem le_iff {first second : Float} :
    first ≤ second ↔ first.toModel.unpack.le second.toModel.unpack = true :=
  decide_eq_true_iff

theorem signOf?_neg (value : Float) :
    signOf? (-value) = (signOf? value).map (fun sign => -sign) :=
  (sign?_unpack_pack value.toModel.unpack.neg).trans (sign?_neg _)

theorem signOf?_of_pos
    {value : Float}
    (positive : 0 < value) :
    signOf? value = some .positive :=
  positive_of_zero_lt (lt_iff.mp positive)

theorem signOf?_isSome_of_isFinite
    {value : Float}
    (finite : Scalar.isFinite value = true) :
    (signOf? value).isSome = true := by
  have unpacked : value.toModel.unpack.isFinite = true := finite
  unfold signOf?
  cases kind : value.toModel.unpack with
  | notANumber => rw [kind] at unpacked; cases unpacked
  | infinity _ | zero _ | finite _ _ _ _ => rfl

/-- The doubles that are not undefined are in order. -/
instance orderedNumbers : OrderedNumbers Float where
  isFinite_zero := rfl
  isNumber_of_isFinite finite := (isNumber_iff _).trans (signOf?_isSome_of_isFinite finite)
  isNumber_of_pos positive := by
    rw [isNumber_iff, signOf?_of_pos positive]
    rfl
  isNumber_neg number := by
    rw [isNumber_iff] at number ⊢
    rw [signOf?_neg, Option.isSome_map, number]
  lt_irrefl value less := by
    have compared := lt_iff.mp less
    exact compare_ne_lt_self (beq_iff_eq.mp compared)
  le_of_not_lt firstNumber secondNumber notLess := by
    rw [isNumber_iff] at firstNumber secondNumber
    refine le_iff.mpr (le_of_not_lt firstNumber secondNumber ?_)
    exact Bool.eq_false_iff.mpr fun less => notLess (lt_iff.mpr less)
  neg_le_self positive := by
    have sign := signOf?_of_pos positive
    refine le_iff.mpr (le_of_signs ?_ sign)
    exact (signOf?_neg _).trans (congrArg _ sign)

end Electrostatics.Double
