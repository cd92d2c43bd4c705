import Mathlib.Data.Rat.Floor
import Electrostatics.Proofs.Number.Between
import Electrostatics.Proofs.Number.Exact
import Electrostatics.RootFinding

namespace Electrostatics.RootFinding

/-!
# Bisection

Bisection holds a bracket whose ends may stand in either order.  The signs of a function at the
two ends differ, and of the two halves it keeps one where they still do, so a sign change stays
enclosed whatever the function is.  It answers with a place of an interval that is a power of two
narrower, because the function is small there, the interval is, or no iteration is left.
-/

open scoped Exact

variable
  {K : Type}
  [Field K]
  [LinearOrder K]

/-- Two values are both positive or both negative. -/
def SameSign (atStart atEnd : K) : Prop :=
  0 < atStart ∧ 0 < atEnd ∨ atStart < 0 ∧ atEnd < 0

/--
An interval between two places, as narrow as after so many halvings, at whose ends a function
does not have the same sign.
-/
structure Encloses
    (f : K → K)
    (a b : K)
    (halvings : Nat)
    (low high : K) :
    Prop where
  low_mem : low ∈ Set.uIcc a b
  high_mem : high ∈ Set.uIcc a b
  width : high - low = |b - a| / ((2 : Nat) : K) ^ halvings
  signs : f low * f high ≤ 0

/--
A place of an enclosing interval where bisection may stop: at a root, at a value or in an interval
below the tolerance, or in the middle when the iterations are used up.
-/
def Located
    (f : K → K)
    (a b tolerance : K)
    (iterations : Nat)
    (x : K) :
    Prop :=
  ∃ low high halvings,
    Encloses f a b halvings low high ∧
      halvings ≤ iterations ∧
      x ∈ Set.Icc low high ∧
      (f x = 0 ∨
        |f x| < tolerance ∨
        high - low < tolerance ∨
        halvings = iterations ∧ x = (low + high) / (2 : Nat))

variable
  {f : K → K}
  {a b c d tolerance x : K}
  {iterations : Nat}

/-- What a half of a bracket encloses, the bracket encloses after one more halving. -/
theorem Encloses.of_half
    {halvings : Nat}
    {low high : K}
    (encloses : Encloses f c d halvings low high)
    (inside : Set.uIcc c d ⊆ Set.uIcc a b)
    (half : |d - c| = |b - a| / 2) :
    Encloses f a b (halvings + 1) low high where
  low_mem := inside encloses.low_mem
  high_mem := inside encloses.high_mem
  width := by
    rw [encloses.width, half, pow_succ', Nat.cast_ofNat, div_div]
  signs := encloses.signs

theorem Located.of_half
    (located : Located f c d tolerance iterations x)
    (inside : Set.uIcc c d ⊆ Set.uIcc a b)
    (half : |d - c| = |b - a| / 2) :
    Located f a b tolerance (iterations + 1) x := by
  obtain ⟨low, high, halvings, encloses, few, between, reason⟩ := located
  refine ⟨low, high, halvings + 1, encloses.of_half inside half, by omega, between, ?_⟩
  rcases reason with root | small | narrow | ⟨used, middle⟩
  · exact .inl root
  · exact .inr (.inl small)
  · exact .inr (.inr (.inl narrow))
  · exact .inr (.inr (.inr ⟨congrArg (· + 1) used, middle⟩))

/-- One iteration either answers with the middle or goes on in one of the halves. -/
theorem run_bisectM_succ
    [FloorRing K]
    (atStart : K) :
    Id.run (bisectM (fun x => pure (f x)) tolerance (iterations + 1) a b atStart) =
      if f ((a + b) / 2) = 0 ∨ |b - a| < tolerance ∨ |f ((a + b) / 2)| < tolerance then
        .ok ((a + b) / 2)
      else if atStart * f ((a + b) / 2) < 0 then
        Id.run (bisectM (fun x => pure (f x)) tolerance iterations a ((a + b) / 2) atStart)
      else
        Id.run
          (bisectM (fun x => pure (f x)) tolerance iterations ((a + b) / 2) b
            (f ((a + b) / 2))) := by
  have root : (f ((a + b) / 2) == 0) = true ↔ f ((a + b) / 2) = 0 := decide_eq_true_iff
  simp only [bisectM, pure_bind, Exact.numeral_ofNat, Exact.numeral_zero, root]
  rfl

/-- Before the first iteration bisection looks at the ends. -/
theorem bisection_eq
    [FloorRing K]
    (f : K → K)
    (a b tolerance : K)
    (iterations : Nat) :
    bisection f a b tolerance iterations =
      if 0 < f a * f b then
        .error (.noSignChange (f a) (f b))
      else if f a = 0 then
        .ok a
      else if f b = 0 then
        .ok b
      else
        Id.run (bisectM (fun x => pure (f x)) tolerance iterations a b (f a)) := by
  have startIsRoot : (f a == 0) = true ↔ f a = 0 := decide_eq_true_iff
  have endIsRoot : (f b == 0) = true ↔ f b = 0 := decide_eq_true_iff
  simp only [bisection, bisectionM, pure_bind, Exact.numeral_zero, startIsRoot, endIsRoot]
  rfl

variable
  [IsStrictOrderedRing K]

theorem sameSign_iff
    {atStart atEnd : K} :
    SameSign atStart atEnd ↔ 0 < atStart * atEnd :=
  mul_pos_iff.symm

/-- A bracket whose signs differ encloses itself. -/
theorem encloses_bracket (signs : f a * f b ≤ 0) :
    Encloses f a b 0 (min a b) (max a b) where
  low_mem := ⟨le_rfl, min_le_max⟩
  high_mem := ⟨min_le_max, le_rfl⟩
  width := by rw [max_sub_min_eq_abs, pow_zero, div_one]
  signs := by
    rcases le_total a b with upward | downward
    · rwa [min_eq_left upward, max_eq_right upward]
    · rwa [min_eq_right downward, max_eq_left downward, mul_comm]

/-- In a bracket whose signs differ, a place may be answered with as soon as there is a reason. -/
theorem located_in_bracket
    (signs : f a * f b ≤ 0)
    (between : x ∈ Set.uIcc a b)
    (reason : f x = 0 ∨ |f x| < tolerance ∨ |b - a| < tolerance) :
    Located f a b tolerance iterations x := by
  refine ⟨min a b, max a b, 0, encloses_bracket signs, Nat.zero_le _, between, ?_⟩
  rcases reason with root | small | narrow
  · exact .inl root
  · exact .inr (.inl small)
  · exact .inr (.inr (.inl (by rwa [max_sub_min_eq_abs])))

/-- Without any iteration left, the middle of the bracket is answered with. -/
theorem located_middle (signs : f a * f b ≤ 0) :
    Located f a b tolerance 0 ((a + b) / 2) := by
  refine ⟨min a b, max a b, 0, encloses_bracket signs, Nat.le_refl 0, middle_mem_uIcc a b, ?_⟩
  exact .inr (.inr (.inr ⟨rfl, by rw [min_add_max, Nat.cast_ofNat]⟩))

/-- Either half is half as wide as the bracket. -/
theorem half_widths (a b : K) :
    |(a + b) / 2 - a| = |b - a| / 2 ∧ |b - (a + b) / 2| = |b - a| / 2 := by
  have before : (a + b) / 2 - a = (b - a) / 2 := by ring
  have behind : b - (a + b) / 2 = (b - a) / 2 := by ring
  rw [before, behind, abs_div, abs_two]
  exact ⟨rfl, rfl⟩

/-- Where the sign does not change in the first half, it changes in the second. -/
theorem changes_behind
    (changes : f a * f b < 0)
    (keeps : ¬f a * f c < 0)
    (apart : f c ≠ 0) :
    f c * f b < 0 := by
  have nonzero : f a ≠ 0 := left_ne_zero_of_mul changes.ne
  have same : 0 < f a * f c := lt_of_le_of_ne (not_lt.mp keeps) (mul_ne_zero nonzero apart).symm
  have square : 0 < f a * f a := mul_self_pos.mpr nonzero
  have product : f a * f a * (f c * f b) < 0 := by
    calc
      f a * f a * (f c * f b) = f a * f b * (f a * f c) := by ring
      _ < 0 := mul_neg_of_neg_of_pos changes same
  exact neg_of_mul_neg_right product square.le

variable
  [FloorRing K]

/-- As long as the signs at the ends of the bracket differ, a place is found. -/
theorem exists_located_of_bisectM
    (tolerance : K)
    (iterations : Nat)
    (changes : f a * f b < 0) :
    ∃ x,
      Id.run (bisectM (fun x => pure (f x)) tolerance iterations a b (f a)) = .ok x ∧
        Located f a b tolerance iterations x := by
  -- The iterations left are counted; the bracket moves with its sign change.
  induction iterations generalizing a b with
  | zero => exact ⟨(a + b) / 2, rfl, located_middle changes.le⟩
  | succ iterations inductionHypothesis =>
      obtain ⟨before, behind⟩ := half_widths a b
      rw [run_bisectM_succ]
      split
      case isTrue stops =>
        refine ⟨_, rfl, located_in_bracket changes.le (middle_mem_uIcc a b) ?_⟩
        rcases stops with root | narrow | small
        · exact .inl root
        · exact .inr (.inr narrow)
        · exact .inr (.inl small)
      case isFalse further =>
        split
        case isTrue changesBefore =>
          obtain ⟨x, answer, located⟩ := inductionHypothesis changesBefore
          exact
            ⟨x, answer,
              located.of_half (Set.uIcc_subset_uIcc_left (middle_mem_uIcc a b)) before⟩
        case isFalse keeps =>
          have apart : f ((a + b) / 2) ≠ 0 := fun root => further (.inl root)
          obtain ⟨x, answer, located⟩ :=
            inductionHypothesis (changes_behind changes keeps apart)
          exact
            ⟨x, answer,
              located.of_half (Set.uIcc_subset_uIcc_right (middle_mem_uIcc a b)) behind⟩

/-- A bracket whose ends do not have the same sign is answered with a place. -/
theorem exists_located_of_bisection
    (tolerance : K)
    (iterations : Nat)
    (signs : f a * f b ≤ 0) :
    ∃ x,
      bisection f a b tolerance iterations = .ok x ∧
        Located f a b tolerance iterations x := by
  rw [bisection_eq, if_neg (not_lt.mpr signs)]
  split
  case isTrue startIsRoot =>
    exact ⟨a, rfl, located_in_bracket signs Set.left_mem_uIcc (.inl startIsRoot)⟩
  case isFalse startApart =>
    split
    case isTrue endIsRoot =>
      exact ⟨b, rfl, located_in_bracket signs Set.right_mem_uIcc (.inl endIsRoot)⟩
    case isFalse endApart =>
      exact
        exists_located_of_bisectM tolerance iterations
          (lt_of_le_of_ne signs (mul_ne_zero startApart endApart))

/--
Bisection keeps a sign change around its answer, for every function, two places in either order,
any tolerance and any number of iterations.  It fails exactly when the values at the two places
have the same sign, and names these values.  Otherwise it answers with a place of an interval
between the two that is a power of two narrower and at whose ends the function does not have the
same sign, and for a reason: the place is a root, its value or the interval is below the
tolerance, or the place is the middle and no iteration is left.
-/
theorem bisection_keeps_a_sign_change
    (f : K → K)
    (a b tolerance : K)
    (iterations : Nat) :
    (bisection f a b tolerance iterations = .error (.noSignChange (f a) (f b)) ↔
        SameSign (f a) (f b)) ∧
      (¬SameSign (f a) (f b) →
        ∃ x,
          bisection f a b tolerance iterations = .ok x ∧
            Located f a b tolerance iterations x) := by
  by_cases sameSign : SameSign (f a) (f b)
  · have failed :
        bisection f a b tolerance iterations = .error (.noSignChange (f a) (f b)) := by
      rw [bisection_eq, if_pos (sameSign_iff.mp sameSign)]
    exact ⟨iff_of_true failed sameSign, fun changes => absurd sameSign changes⟩
  · obtain ⟨x, answer, located⟩ :=
      exists_located_of_bisection tolerance iterations
        (not_lt.mp fun same => sameSign (sameSign_iff.mpr same))
    refine ⟨iff_of_false ?_ sameSign, fun _ => ⟨x, answer, located⟩⟩
    rw [answer]
    exact nofun

/--
A step at three, which is no value of a continuous function, is enclosed from five down to one in
three halvings; from four on there is no sign to change.
-/
theorem bisection_around_a_step :
    let step : ℚ → ℚ := fun x => if x < 3 then -1 else 2
    ¬SameSign (step 5) (step 1) ∧
      bisection step 5 1 (1 / 2) 3 = .ok (11 / 4) ∧
      Located step 5 1 (1 / 2) 3 (11 / 4) ∧
      bisection step 4 5 (1 / 2) 3 = .error (.noSignChange 2 2) := by
  intro step
  obtain ⟨-, found⟩ := bisection_keeps_a_sign_change step 5 1 (1 / 2) 3
  obtain ⟨failed, -⟩ := bisection_keeps_a_sign_change step 4 5 (1 / 2) 3
  have changes : ¬SameSign (step 5) (step 1) := by
    rw [sameSign_iff]
    decide +kernel
  have same : SameSign (step 4) (step 5) := by
    rw [sameSign_iff]
    decide +kernel
  have answer : bisection step 5 1 (1 / 2) 3 = .ok (11 / 4) := by decide +kernel
  obtain ⟨x, reached, located⟩ := found changes
  obtain rfl : x = 11 / 4 := Except.ok.inj (reached.symm.trans answer)
  exact ⟨changes, answer, located, failed.mpr same⟩

end Electrostatics.RootFinding
