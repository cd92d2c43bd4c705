import Electrostatics.Proofs.Number.DoubleValue

namespace Electrostatics.Double

/-!
# The line of doubles

Every double that is not undefined has a rank: an ordinary one that of its value, and an
infinite one lies at the end on its side.  Doubles compare as their ranks do, the two zeros
with each other, and an undefined double compares to nothing.
-/

open Float.Model Float.Model.UnpackedFloat

/-- The rank of the parts of a double; undefined parts have none. -/
def rankOf? : Binary64.Parts → Option (WithBot (WithTop ℚ))
  | .undefined => none
  | .infinite negative => some (if negative then ⊥ else ⊤)
  | .finite negative significand exponent =>
      some (dyadic negative significand exponent : WithTop ℚ)

/-- The rank of a double. -/
def rank? (value : Float) : Option (WithBot (WithTop ℚ)) :=
  rankOf? (Binary64.parts value)

/-- Ranks of values compare as the values do. -/
theorem compare_coe (left right : ℚ) :
    compare ((left : WithTop ℚ) : WithBot (WithTop ℚ)) (right : WithTop ℚ) =
      compare left right := by
  rw [← cmp_eq_compare, ← cmp_eq_compare]
  exact (WithBot.coe_strictMono.comp WithTop.coe_strictMono).cmp_map_eq left right

/-- An infinite double lies beyond all ordinary ones on its side. -/
theorem compare_end_coe
    (negative : Bool)
    (value : ℚ) :
    compare (if negative then ⊥ else ⊤ : WithBot (WithTop ℚ)) (value : WithTop ℚ) =
      if negative then .lt else .gt := by
  cases negative with
  | true => exact compare_lt_iff_lt.mpr (WithBot.bot_lt_coe _)
  | false => exact compare_gt_iff_gt.mpr (WithBot.coe_lt_coe.mpr (WithTop.coe_lt_top value))

theorem compare_infinity
    (sign : Sign)
    {second : UnpackedFloat}
    {right : WithBot (WithTop ℚ)}
    (secondRank : rankOf? (partsOf second) = some right) :
    (UnpackedFloat.infinity sign).compare second =
      some (compare (if isNegative sign then ⊥ else ⊤) right) := by
  cases second with
  | notANumber => cases secondRank
  | infinity other =>
      obtain rfl := Option.some.inj secondRank
      cases sign with
      | negative =>
          cases other with
          | negative => exact congrArg some (compare_eq_iff_eq.mpr rfl).symm
          | positive => exact congrArg some (compare_lt_iff_lt.mpr bot_lt_top).symm
      | positive =>
          cases other with
          | negative => exact congrArg some (compare_gt_iff_gt.mpr bot_lt_top).symm
          | positive => exact congrArg some (compare_eq_iff_eq.mpr rfl).symm
  | zero _ | finite _ _ _ _ =>
      obtain rfl := Option.some.inj secondRank
      rw [compare_end_coe]
      cases sign <;> rfl

variable
  {first second : Float}
  {left right : WithBot (WithTop ℚ)}

/-- Doubles with a rank compare as their ranks do. -/
theorem compare_rank
    (firstRank : rank? first = some left)
    (secondRank : rank? second = some right) :
    first.toModel.unpack.compare second.toModel.unpack = some (compare left right) := by
  rw [rank?, parts_eq] at firstRank secondRank
  cases firstKind : first.toModel.unpack with
  | notANumber => rw [firstKind] at firstRank; cases firstRank
  | infinity sign =>
      rw [firstKind] at firstRank
      obtain rfl := Option.some.inj firstRank
      exact compare_infinity sign secondRank
  | zero _ | finite _ _ _ _ =>
      cases secondKind : second.toModel.unpack with
      | notANumber => rw [secondKind] at secondRank; cases secondRank
      | infinity sign =>
          rw [secondKind] at secondRank
          obtain rfl := Option.some.inj secondRank
          rw [firstKind] at firstRank
          rw [compare_swap, compare_infinity sign firstRank, Option.map_some,
            ← Std.OrientedCmp.eq_swap]
      | zero _ | finite _ _ _ _ =>
          rw [← firstKind, ← secondKind]
          rw [firstKind] at firstRank
          rw [secondKind] at secondRank
          obtain rfl := Option.some.inj firstRank
          obtain rfl := Option.some.inj secondRank
          rw [compare_coe]
          exact compare_exactValue (by rw [exactValue?, parts_eq, firstKind]; rfl)
            (by rw [exactValue?, parts_eq, secondKind]; rfl)

/-- Only numbers compare. -/
theorem isNumber_of_compare
    {order : Ordering}
    (compared : first.toModel.unpack.compare second.toModel.unpack = some order) :
    Scalar.isNumber first = true ∧ Scalar.isNumber second = true := by
  rw [isNumber_iff, isNumber_iff, signOf?, signOf?]
  cases firstKind : first.toModel.unpack with
  | notANumber => rw [firstKind] at compared; cases compared
  | infinity _ | zero _ | finite _ _ _ _ =>
      cases secondKind : second.toModel.unpack with
      | notANumber => rw [firstKind, secondKind] at compared; cases compared
      | infinity _ | zero _ | finite _ _ _ _ => exact ⟨rfl, rfl⟩

/-- A number has a rank. -/
theorem exists_rank
    {value : Float}
    (number : Scalar.isNumber value = true) :
    ∃ rank, rank? value = some rank := by
  rw [isNumber_iff, signOf?] at number
  rw [rank?, parts_eq]
  cases kind : value.toModel.unpack with
  | notANumber => rw [kind] at number; cases number
  | infinity _ | zero _ | finite _ _ _ _ => exact ⟨_, rfl⟩

theorem le_iff_rank
    (firstRank : rank? first = some left)
    (secondRank : rank? second = some right) :
    first ≤ second ↔ left ≤ right := by
  rw [le_iff, UnpackedFloat.le, compare_rank firstRank secondRank, Option.any_some,
    Ordering.isLE_iff_ne_gt, compare_gt_iff_gt, not_lt]

theorem isNumber_of_le (atMost : first ≤ second) :
    Scalar.isNumber first = true ∧ Scalar.isNumber second = true := by
  obtain ⟨order, compared, -⟩ := (Option.any_eq_true _ _).mp (le_iff.mp atMost)
  exact isNumber_of_compare compared

/-- The doubles that are not undefined stand in one line. -/
instance linearNumbers : LinearNumbers Float where
  isNumber_of_lt less := isNumber_of_compare (beq_iff_eq.mp (lt_iff.mp less))
  le_of_lt less := by
    have compared := beq_iff_eq.mp (lt_iff.mp less)
    rw [le_iff, UnpackedFloat.le, compared]
    rfl
  le_trans := fun {first second third} atMost below => by
    obtain ⟨left, firstRank⟩ := exists_rank (isNumber_of_le atMost).1
    obtain ⟨middle, secondRank⟩ := exists_rank (isNumber_of_le atMost).2
    obtain ⟨right, thirdRank⟩ := exists_rank (isNumber_of_le below).2
    rw [le_iff_rank firstRank secondRank] at atMost
    rw [le_iff_rank secondRank thirdRank] at below
    exact (le_iff_rank firstRank thirdRank).mpr (atMost.trans below)

/-! ## The ends of the line -/

theorem rank?_unbounded : rank? (Scalar.unbounded : Float) = some ⊤ := by
  rfl

theorem rank?_neg_unbounded : rank? (-Scalar.unbounded : Float) = some ⊥ := by
  rfl

/-- No number is above positive infinity. -/
theorem le_unbounded
    {value : Float}
    (number : Scalar.isNumber value = true) :
    value ≤ Scalar.unbounded := by
  obtain ⟨rank, ranked⟩ := exists_rank number
  exact (le_iff_rank ranked rank?_unbounded).mpr le_top

/-- No number is below negative infinity. -/
theorem neg_unbounded_le
    {value : Float}
    (number : Scalar.isNumber value = true) :
    -Scalar.unbounded ≤ value := by
  obtain ⟨rank, ranked⟩ := exists_rank number
  exact (le_iff_rank rank?_neg_unbounded ranked).mpr bot_le

theorem not_unbounded_le_neg : ¬ (Scalar.unbounded : Float) ≤ -Scalar.unbounded := by
  rw [le_iff_rank rank?_unbounded rank?_neg_unbounded]
  exact not_le_of_gt bot_lt_top

end Electrostatics.Double
