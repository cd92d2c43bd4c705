import Electrostatics.Proofs.Number.DoubleOrder

namespace Electrostatics.Double

/-!
# Where arithmetic on doubles is defined

Ordinary doubles have a sum, which may have overflowed, and every number has a half.  A
difference that is below anything, taken of two doubles in order, was taken of ordinary ones:
an infinite one among them makes it positive infinity or undefined.
-/

open Float.Model Float.Model.UnpackedFloat

/-- Rounding gives a number with the sign that it was given. -/
theorem sign?_roundWithAccuracy
    (sign : Sign)
    (significand : Nat)
    (exponent : Int)
    (accuracy : Accuracy) :
    sign? (roundWithAccuracy .binary64 sign significand exponent accuracy) = some sign := by
  simp only [roundWithAccuracy]
  split <;> rfl

theorem sign?_normalize_isSome
    (significand exponent : Int)
    (zeroSign : Sign) :
    (sign? (UnpackedFloat.normalize .binary64 significand exponent zeroSign)).isSome = true := by
  unfold UnpackedFloat.normalize
  split
  case h_1 => rw [UnpackedFloat.round, sign?_roundWithAccuracy]; rfl
  case h_2 => rfl
  case h_3 => rw [UnpackedFloat.round, sign?_roundWithAccuracy]; rfl

variable {first second : Float}

/-- Ordinary doubles have a sum. -/
theorem isNumber_add
    (firstFinite : Scalar.isFinite first = true)
    (secondFinite : Scalar.isFinite second = true) :
    Scalar.isNumber (first + second) = true := by
  have firstUnpacked : first.toModel.unpack.isFinite = true := firstFinite
  have secondUnpacked : second.toModel.unpack.isFinite = true := secondFinite
  have sum :
      signOf? (first + second) =
        sign? (UnpackedFloat.add .binary64 first.toModel.unpack second.toModel.unpack) :=
    sign?_unpack_pack _
  rw [isNumber_iff, sum]
  cases firstKind : first.toModel.unpack with
  | notANumber | infinity _ => rw [firstKind] at firstUnpacked; cases firstUnpacked
  | zero sign =>
      cases secondKind : second.toModel.unpack with
      | notANumber | infinity _ => rw [secondKind] at secondUnpacked; cases secondUnpacked
      | zero other => cases sign <;> cases other <;> rfl
      | finite _ _ _ _ => rfl
  | finite _ _ _ _ =>
      cases secondKind : second.toModel.unpack with
      | notANumber | infinity _ => rw [secondKind] at secondUnpacked; cases secondUnpacked
      | zero _ => rfl
      | finite _ _ _ _ => exact sign?_normalize_isSome _ _ _

/-- Every number has a half. -/
theorem isNumber_half
    {value : Float}
    (number : Scalar.isNumber value = true) :
    Scalar.isNumber (value / 2) = true := by
  have half :
      signOf? (value / 2) =
        sign? (UnpackedFloat.div .binary64 value.toModel.unpack (2 : Float).toModel.unpack) :=
    sign?_unpack_pack _
  have two :
      (2 : Float).toModel.unpack = .finite .positive 4503599627370496 (-51) (by decide) := by
    rfl
  rw [isNumber_iff, signOf?] at number
  rw [isNumber_iff, half, two]
  cases kind : value.toModel.unpack with
  | notANumber => rw [kind] at number; cases number
  | infinity _ | zero _ => rfl
  | finite _ _ _ _ =>
      rw [UnpackedFloat.div, sign?_roundWithAccuracy]
      rfl

/-- The difference of two doubles in order is infinite or undefined if not both are ordinary. -/
theorem sub_of_not_finite
    {low high : UnpackedFloat}
    (inOrder : low.le high = true)
    (notFinite : ¬(low.isFinite = true ∧ high.isFinite = true)) :
    UnpackedFloat.sub .binary64 high low = .infinity .positive ∨
      UnpackedFloat.sub .binary64 high low = .notANumber := by
  cases low with
  | notANumber => cases inOrder
  | infinity sign =>
      cases sign with
      | negative =>
          cases high with
          | notANumber => cases inOrder
          | infinity other => cases other with
            | negative => exact .inr rfl
            | positive => exact .inl rfl
          | zero _ | finite _ _ _ _ => exact .inl rfl
      | positive =>
          cases high with
          | infinity other => cases other with
            | negative => cases inOrder
            | positive => exact .inr rfl
          | notANumber | zero _ | finite _ _ _ _ => cases inOrder
  | zero _ | finite _ _ _ _ =>
      cases high with
      | notANumber => cases inOrder
      | infinity other => cases other with
        | negative => cases inOrder
        | positive => exact .inl rfl
      | zero _ | finite _ _ _ _ => exact absurd ⟨rfl, rfl⟩ notFinite

/-- Positive infinity is below nothing. -/
theorem infinity_not_lt (unpacked : UnpackedFloat) :
    (UnpackedFloat.infinity .positive).lt unpacked = false := by
  cases unpacked with
  | infinity sign => cases sign <;> rfl
  | notANumber | zero _ | finite _ _ _ _ => rfl

/-- Doubles in order whose difference is below anything are ordinary. -/
theorem isFinite_of_sub_lt
    {low high bound : Float}
    (inOrder : low ≤ high)
    (below : high - low < bound) :
    Scalar.isFinite low = true ∧ Scalar.isFinite high = true := by
  have difference :
      (high - low).toModel.unpack =
        UnpackedFloat.unpack .binary64
          (UnpackedFloat.pack .binary64
            (UnpackedFloat.sub .binary64 high.toModel.unpack low.toModel.unpack)) :=
    rfl
  rw [lt_iff, difference] at below
  by_contra notFinite
  rcases sub_of_not_finite (le_iff.mp inOrder) notFinite with infinite | undefined
  · have kept :
        UnpackedFloat.unpack .binary64 (UnpackedFloat.pack .binary64 (.infinity .positive)) =
          .infinity .positive :=
      rfl
    rw [infinite, kept, infinity_not_lt] at below
    exact Bool.false_ne_true below
  · rw [undefined] at below
    exact Bool.false_ne_true below

end Electrostatics.Double
