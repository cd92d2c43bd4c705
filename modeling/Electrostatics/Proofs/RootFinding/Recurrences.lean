import Mathlib.Data.Rat.Floor
import Mathlib.Tactic.Positivity
import Electrostatics.Proofs.RootFinding.Paths

namespace Electrostatics.RootFinding

/-!
# The recurrences of Newton and of secants

Newton's iteration and that of secants go along the path of their recurrence, and they end where
the path does.  Newton's settles at a small value or after a short step, secants after a short
step only.  Neither goes on where it would divide by less than a quadrillionth, so what a quotient
by a smaller divisor is makes no difference to it.
-/

open scoped Exact

variable
  {K : Type}
  [Field K]

/-- Newton's next place: where the line along the slope meets zero. -/
def newtonStep (f derivative : K → K) (x : K) : K :=
  x - f x / derivative x

/-- The next place of secants: where the line through two places meets zero. -/
def secantStep (f : K → K) (x₀ x₁ : K) : K :=
  x₁ - f x₁ * (x₁ - x₀) / (f x₁ - f x₀)

/-- The places of Newton's recurrence. -/
def newtonPlace (f derivative : K → K) (start : K) : Nat → K
  | 0 => start
  | k + 1 => newtonStep f derivative (newtonPlace f derivative start k)

/-- The places of the recurrence of secants, the two starting points among them. -/
def secantPlace (f : K → K) (x₀ x₁ : K) : Nat → K
  | 0 => x₀
  | 1 => x₁
  | k + 2 => secantStep f (secantPlace f x₀ x₁ k) (secantPlace f x₀ x₁ (k + 1))

variable
  {f derivative : K → K}
  {x x₀ x₁ : K}

theorem newtonPlace_next (k : Nat) :
    newtonPlace f derivative (newtonStep f derivative x) k = newtonPlace f derivative x (k + 1) := by
  induction k with
  | zero => rfl
  | succ k inductionHypothesis => simp only [newtonPlace, inductionHypothesis]

theorem secantPlace_next (k : Nat) :
    secantPlace f x₁ (secantStep f x₀ x₁) k = secantPlace f x₀ x₁ (k + 1) := by
  induction k using Nat.twoStepInduction with
  | zero => rfl
  | one => rfl
  | more k before last => simp only [secantPlace, before, last]

variable
  [LinearOrder K]
  {tolerance : K}
  {iterations : Nat}

/-- Less than a quadrillionth, too little to divide by. -/
def Tiny (divisor : K) : Prop :=
  |divisor| < 1 / ((10 : Nat) : K) ^ 15

instance (divisor : K) : Decidable (Tiny divisor) :=
  inferInstanceAs (Decidable (|divisor| < 1 / ((10 : Nat) : K) ^ 15))

/-- Newton's path: a place with a value below the tolerance is good, one with a tiny slope flat. -/
def newtonPath (f derivative : K → K) (start tolerance : K) : Path K where
  place k := newtonPlace f derivative start k
  Good k := |f (newtonPlace f derivative start k)| < tolerance
  Flat k := Tiny (derivative (newtonPlace f derivative start k))

/--
The path of secants, which begins at the second of two places: no place is good as it stands, and
one whose value hardly differs from that of the place before is flat.
-/
def secantPath (f : K → K) (x₀ x₁ : K) : Path K where
  place k := secantPlace f x₀ x₁ (k + 1)
  Good _ := False
  Flat k := Tiny (f (secantPlace f x₀ x₁ (k + 1)) - f (secantPlace f x₀ x₁ k))

theorem newtonPath_next :
    newtonPath f derivative (newtonStep f derivative x) tolerance =
      (newtonPath f derivative x tolerance).next := by
  simp only [newtonPath, Path.next, newtonPlace_next]

theorem secantPath_next :
    secantPath f x₁ (secantStep f x₀ x₁) = (secantPath f x₀ x₁).next := by
  simp only [secantPath, Path.next, secantPlace_next]

/-- A rule for quotients that is that of the field unless the divisor is tiny. -/
def DividesBeyondTiny (quotient : K → K → K) : Prop :=
  ∀ dividend divisor, ¬Tiny divisor → quotient dividend divisor = dividend / divisor

variable
  [FloorRing K]
  {quotient : K → K → K}

/-- The arithmetic of a field with another rule for quotients. -/
@[reducible]
def dividingBy (quotient : K → K → K) : Scalar K :=
  { Exact.arithmetic with div := quotient }

variable
  [IsStrictOrderedRing K]

/-! ## One iteration -/

/-- What is divided by beforehand, to find the least divisor, is not tiny itself. -/
theorem not_tiny_power : ¬Tiny (((10 : Nat) : K) ^ 15) := by
  have large : (1 : K) ≤ ((10 : Nat) : K) ^ 15 := one_le_pow₀ (by norm_num)
  have positive : (0 : K) < ((10 : Nat) : K) ^ 15 := zero_lt_one.trans_le large
  rw [Tiny, abs_of_pos positive, not_lt]
  calc
    1 / ((10 : Nat) : K) ^ 15 ≤ 1 := (div_le_one positive).mpr large
    _ ≤ ((10 : Nat) : K) ^ 15 := large

theorem leastDivisor_dividingBy (divides : DividesBeyondTiny quotient) :
    @leastDivisor K (dividingBy quotient) = 1 / ((10 : Nat) : K) ^ 15 := by
  have rule :
      @leastDivisor K (dividingBy quotient) =
        quotient ((1 : Nat) : K) ((Decimal.powerOfTen 15 : Nat) : K) :=
    rfl
  have power : ((Decimal.powerOfTen 15 : Nat) : K) = ((10 : Nat) : K) ^ 15 :=
    Nat.cast_pow 10 15
  rw [rule, power, divides _ _ not_tiny_power, Nat.cast_one]

/-- One iteration of Newton's: a place may be good or flat, and the step to the next one short. -/
theorem newton_succ (divides : DividesBeyondTiny quotient) :
    @newton K (dividingBy quotient) f derivative x tolerance (iterations + 1) =
      if |f x| < tolerance then
        .ok x
      else if Tiny (derivative x) then
        .error (.zeroDerivative x)
      else if |newtonStep f derivative x - x| < tolerance then
        .ok (newtonStep f derivative x)
      else
        @newton K (dividingBy quotient) f derivative (newtonStep f derivative x) tolerance
          iterations := by
  have iteration :
      @newton K (dividingBy quotient) f derivative x tolerance (iterations + 1) =
        if |f x| < tolerance then
          .ok x
        else if |derivative x| < @leastDivisor K (dividingBy quotient) then
          .error (.zeroDerivative x)
        else if |x - quotient (f x) (derivative x) - x| < tolerance then
          .ok (x - quotient (f x) (derivative x))
        else
          @newton K (dividingBy quotient) f derivative (x - quotient (f x) (derivative x))
            tolerance iterations :=
    rfl
  rw [iteration, leastDivisor_dividingBy divides]
  refine ite_congr rfl (fun _ => rfl) fun _ => ite_congr rfl (fun _ => rfl) fun steep => ?_
  rw [divides _ _ steep, newtonStep]

/-- One iteration of secants: a place may be flat, and the step to the next one short. -/
theorem secant_succ (divides : DividesBeyondTiny quotient) :
    @secant K (dividingBy quotient) f x₀ x₁ tolerance (iterations + 1) =
      if Tiny (f x₁ - f x₀) then
        .error (.stalledSecant x₁)
      else if |secantStep f x₀ x₁ - x₁| < tolerance then
        .ok (secantStep f x₀ x₁)
      else
        @secant K (dividingBy quotient) f x₁ (secantStep f x₀ x₁) tolerance iterations := by
  have iteration :
      @secant K (dividingBy quotient) f x₀ x₁ tolerance (iterations + 1) =
        if |f x₁ - f x₀| < @leastDivisor K (dividingBy quotient) then
          .error (.stalledSecant x₁)
        else if |x₁ - quotient (f x₁ * (x₁ - x₀)) (f x₁ - f x₀) - x₁| < tolerance then
          .ok (x₁ - quotient (f x₁ * (x₁ - x₀)) (f x₁ - f x₀))
        else
          @secant K (dividingBy quotient) f x₁ (x₁ - quotient (f x₁ * (x₁ - x₀)) (f x₁ - f x₀))
            tolerance iterations :=
    rfl
  rw [iteration, leastDivisor_dividingBy divides]
  refine ite_congr rfl (fun _ => rfl) fun steep => ?_
  rw [divides _ _ steep, secantStep]

/-! ## Whole runs -/

/-- Newton's iteration ends where its path does, whatever a quotient by a tiny divisor is. -/
theorem newton_ends
    (divides : DividesBeyondTiny quotient)
    (f derivative : K → K)
    (x tolerance : K)
    (iterations : Nat) :
    (newtonPath f derivative x tolerance).Ends tolerance iterations .zeroDerivative
      (@newton K (dividingBy quotient) f derivative x tolerance iterations) := by
  -- The iterations left are counted; the path loses its first place with each of them.
  induction iterations generalizing x with
  | zero => exact Path.ends_of_exhausted
  | succ iterations inductionHypothesis =>
      have rest := inductionHypothesis (newtonStep f derivative x)
      rw [newtonPath_next] at rest
      rw [newton_succ divides]
      split
      case isTrue good => exact Path.ends_of_settled good
      case isFalse unsettled => exact Path.ends_of_unsettled unsettled rest

/-- The iteration of secants ends where its path does, whatever a quotient by a tiny divisor is. -/
theorem secant_ends
    (divides : DividesBeyondTiny quotient)
    (f : K → K)
    (x₀ x₁ tolerance : K)
    (iterations : Nat) :
    (secantPath f x₀ x₁).Ends tolerance iterations .stalledSecant
      (@secant K (dividingBy quotient) f x₀ x₁ tolerance iterations) := by
  induction iterations generalizing x₀ x₁ with
  | zero => exact Path.ends_of_exhausted
  | succ iterations inductionHypothesis =>
      have rest := inductionHypothesis x₁ (secantStep f x₀ x₁)
      rw [secantPath_next] at rest
      rw [secant_succ divides]
      exact Path.ends_of_unsettled not_false rest

omit [FloorRing K] [IsStrictOrderedRing K] in
theorem dividesBeyondTiny_div : DividesBeyondTiny fun dividend divisor : K => dividend / divisor :=
  fun _ _ _ => rfl

theorem newton_eq_iff
    {result : Except (RootError K) K} :
    newton f derivative x tolerance iterations = result ↔
      (newtonPath f derivative x tolerance).Ends tolerance iterations .zeroDerivative result := by
  have ends := newton_ends dividesBeyondTiny_div f derivative x tolerance iterations
  exact ⟨fun same => same ▸ ends, ends.unique⟩

theorem secant_eq_iff
    {result : Except (RootError K) K} :
    secant f x₀ x₁ tolerance iterations = result ↔
      (secantPath f x₀ x₁).Ends tolerance iterations .stalledSecant result := by
  have ends := secant_ends dividesBeyondTiny_div f x₀ x₁ tolerance iterations
  exact ⟨fun same => same ▸ ends, ends.unique⟩

/-! ## Straight lines -/

omit [FloorRing K] in
theorem tiny_zero : Tiny (0 : K) := by
  rw [Tiny, abs_zero]
  positivity

/-- On a line Newton's iteration stays where the value is small or finds the root in one step. -/
theorem exists_newton_eq_of_line
    {slope : K}
    (positive : 0 < tolerance)
    (steep : ¬Tiny slope)
    (height start : K)
    (iterations : Nat) :
    ∃ x,
      newton (fun x => slope * x + height) (fun _ => slope) start tolerance (iterations + 1) =
          .ok x ∧
        (slope * x + height = 0 ∨ x = start ∧ |slope * x + height| < tolerance) := by
  have nonzero : slope ≠ 0 := fun flat => steep (flat ▸ tiny_zero)
  let path := newtonPath (fun x => slope * x + height) (fun _ => slope) start tolerance
  have root : slope * path.place 1 + height = 0 := by
    change slope * (start - (slope * start + height) / slope) + height = 0
    rw [mul_sub, mul_div_cancel₀ _ nonzero]
    ring
  have good : path.Good 1 := by
    change |slope * path.place 1 + height| < tolerance
    rwa [root, abs_zero]
  by_cases small : |slope * start + height| < tolerance
  · exact ⟨start, newton_eq_iff.mpr (Path.ends_of_settled small), .inr ⟨rfl, small⟩⟩
  · refine ⟨path.place 1, newton_eq_iff.mpr ?_, .inl root⟩
    by_cases close : |path.place 1 - path.place 0| < tolerance
    · exact Path.ends_of_close small steep close
    · exact Path.ends_of_next small steep close (Path.ends_of_settled good)

/--
Newton's iteration and that of secants end where their paths do, and with nothing else, for all
functions, starting points, tolerances and numbers of iterations.  They answer with the first
place that settles them, Newton's with one where the value or the last step is below the
tolerance and that of secants with one where the last step is; they fail at the first flat place,
if they have to go on from it; and they answer with the place they have come to when the
iterations are used up.  What a quotient by a tiny divisor is makes no difference, so they never
divide by one.  On a line that is not flat Newton's iteration ends at the root or where it starts.
-/
theorem iterations_end_where_their_paths_do
    (f derivative : K → K)
    (x₀ x₁ tolerance : K)
    (iterations : Nat) :
    (∀ result,
        newton f derivative x₀ tolerance iterations = result ↔
          (newtonPath f derivative x₀ tolerance).Ends tolerance iterations .zeroDerivative
            result) ∧
      (∀ result,
        secant f x₀ x₁ tolerance iterations = result ↔
          (secantPath f x₀ x₁).Ends tolerance iterations .stalledSecant result) ∧
      (∀ quotient, DividesBeyondTiny quotient →
        @newton K (dividingBy quotient) f derivative x₀ tolerance iterations =
            newton f derivative x₀ tolerance iterations ∧
          @secant K (dividingBy quotient) f x₀ x₁ tolerance iterations =
            secant f x₀ x₁ tolerance iterations) ∧
      ∀ slope height, 0 < tolerance → 1 ≤ iterations → ¬Tiny slope →
        ∃ x,
          newton (fun x => slope * x + height) (fun _ => slope) x₀ tolerance iterations =
              .ok x ∧
            (slope * x + height = 0 ∨ x = x₀ ∧ |slope * x + height| < tolerance) := by
  refine ⟨fun _ => newton_eq_iff, fun _ => secant_eq_iff, fun quotient divides => ?_, ?_⟩
  · have byNewton := newton_ends divides f derivative x₀ tolerance iterations
    have bySecants := secant_ends divides f x₀ x₁ tolerance iterations
    exact ⟨(newton_eq_iff.mpr byNewton).symm, (secant_eq_iff.mpr bySecants).symm⟩
  · intro slope height positive some steep
    obtain ⟨further, rfl⟩ := Nat.exists_eq_add_of_le' some
    exact exists_newton_eq_of_line positive steep height x₀ further

/--
The square root of two to a hundredth, where a quotient by a tiny divisor is taken to be seven.
It is found from one on; there is no way on from zero, where the slope is zero, nor between one
and minus one, where the values are the same.
-/
theorem square_root_by_newton_and_secants :
    let f : ℚ → ℚ := fun x => x * x - 2
    let slope : ℚ → ℚ := fun x => 2 * x
    let quotient : ℚ → ℚ → ℚ := fun dividend divisor =>
      if Tiny divisor then 7 else dividend / divisor
    DividesBeyondTiny quotient ∧
      @newton ℚ (dividingBy quotient) f slope 1 (1 / 100) 2 = .ok (17 / 12) ∧
      (newtonPath f slope 1 (1 / 100)).Ends (1 / 100) 2 .zeroDerivative (.ok (17 / 12)) ∧
      (newtonPath f slope 0 (1 / 100)).Ends (1 / 100) 2 .zeroDerivative
        (.error (.zeroDerivative 0)) ∧
      @secant ℚ (dividingBy quotient) f 1 2 (1 / 100) 2 = .ok (7 / 5) ∧
      (secantPath f 1 2).Ends (1 / 100) 2 .stalledSecant (.ok (7 / 5)) ∧
      (secantPath f 1 (-1)).Ends (1 / 100) 2 .stalledSecant (.error (.stalledSecant (-1))) ∧
      (0 : ℚ) < 1 / 100 ∧
      ¬Tiny (2 : ℚ) ∧
      ∃ x,
        newton (fun x : ℚ => 2 * x + 3) (fun _ => 2) 1 (1 / 100) 2 = .ok x ∧
          (2 * x + 3 = 0 ∨ x = 1 ∧ |2 * x + 3| < 1 / 100) := by
  intro f slope quotient
  have divides : DividesBeyondTiny quotient := fun _ _ large => if_neg large
  have positive : (0 : ℚ) < 1 / 100 := by norm_num
  have steep : ¬Tiny (2 : ℚ) := by decide +kernel
  obtain ⟨newtonEnds, secantEnds, guarded, onLine⟩ :=
    iterations_end_where_their_paths_do f slope 1 2 (1 / 100) 2
  obtain ⟨newtonFails, -, -, -⟩ := iterations_end_where_their_paths_do f slope 0 2 (1 / 100) 2
  obtain ⟨-, secantFails, -, -⟩ := iterations_end_where_their_paths_do f slope 1 (-1) (1 / 100) 2
  obtain ⟨sameNewton, sameSecant⟩ := guarded quotient divides
  have byNewton : newton f slope 1 (1 / 100) 2 = .ok (17 / 12) := by decide +kernel
  have bySecants : secant f 1 2 (1 / 100) 2 = .ok (7 / 5) := by decide +kernel
  refine
    ⟨divides, sameNewton.trans byNewton, (newtonEnds _).mp byNewton, (newtonFails _).mp ?_,
      sameSecant.trans bySecants, (secantEnds _).mp bySecants, (secantFails _).mp ?_,
      positive, steep, onLine 2 3 positive one_le_two steep⟩
  · decide +kernel
  · decide +kernel

end Electrostatics.RootFinding
