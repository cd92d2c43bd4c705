import Electrostatics.Number.Double
import Electrostatics.Proofs.Samples.Polynomials
import Electrostatics.Proofs.Samples.Reads

namespace Electrostatics

/-!
# The running integral

In exact arithmetic the running integral of a polynomial up to degree three is its integral from
the third sample on, and at the second one up to degree two, or one where there is no third.
Whatever the numbers are, an entry looks at the samples up to its own index only, and only the
second entry at one more.
-/

namespace Samples

section AnyNumbers

open scoped Scalar

variable
  {α : Type}
  [Scalar α]

theorem integralTo_pair
    {samples : Samples α}
    (h : α)
    (pair : samples.size = 2) :
    samples.integralTo h 2 = h * (samples.get 1 + samples.get 2) / 2 := by
  simp [integralTo, pair]

end AnyNumbers

open scoped Exact

section Beginning

variable
  {K : Type}
  [Field K]
  [LinearOrder K]
  [FloorRing K]

/-- The running integral starts with zero. -/
theorem get_runningIntegral_one
    (samples : Samples K)
    (h : K) :
    (samples.runningIntegral h).get 1 = 0 := by
  by_cases inside : 1 ≤ samples.size
  · rw [get_runningIntegral h (Nat.le_refl 1) inside, integralTo_first]
  · rw [get_outside (.inr (by simpa using inside)), Exact.numeral_zero]

variable
  [CharZero K]
  {left right : Samples K}
  {h : K}

/-- Of two runs that begin alike, the second entries tell whether the third samples differ. -/
theorem integralTo_second_eq_iff
    (apart : h ≠ 0)
    (size : left.size = right.size)
    (longer : 3 ≤ left.size)
    (first : left.get 1 = right.get 1)
    (second : left.get 2 = right.get 2) :
    left.integralTo h 2 = right.integralTo h 2 ↔ left.get 3 = right.get 3 := by
  have rule (samples : Samples K) (reach : 3 ≤ samples.size) :
      samples.integralTo h 2 =
        h * (5 * samples.get 1 + 8 * samples.get 2 - samples.get 3) / 12 :=
    integralTo_second h reach
  rw [rule left longer, rule right (size ▸ longer), first, second]
  constructor
  · intro same
    have product : h * (left.get 3 - right.get 3) = 0 := by linear_combination -12 * same
    exact sub_eq_zero.mp ((mul_eq_zero.mp product).resolve_left apart)
  · intro third
    rw [third]

/-- Two samples on a line. -/
theorem LieOn.integralTo_pair
    {samples : Samples K}
    {curve : Cubic K}
    (lie : samples.LieOn samples.size h curve.eval)
    (pair : samples.size = 2)
    (straight : curve.square = 0 ∧ curve.cube = 0) :
    samples.integralTo h 2 = curve.primitive h := by
  have rise := Cubic.trapezoid_rise straight 0 h
  have first := lie 0 (by omega)
  have second := lie 1 (by omega)
  have rule : samples.integralTo h 2 = h * (samples.get 1 + samples.get 2) / 2 :=
    Samples.integralTo_pair h pair
  simp only [Nat.zero_add, Nat.cast_zero, zero_mul, Nat.cast_one, one_mul,
    Nat.reduceAdd] at first second
  rw [zero_add, Cubic.primitive_zero, sub_zero] at rise
  rw [rule, first, second]
  linear_combination rise

end Beginning

/-- Samples of a function at equal steps from zero on lie on it. -/
theorem lieOn_ofFn
    {K : Type}
    [Field K]
    [LinearOrder K]
    [FloorRing K]
    (curve : K → K)
    (size : Nat)
    (h : K) :
    (ofFn size fun index => curve (((index : K) - 1) * h)).LieOn size h curve := by
  intro steps inside
  rw [get_ofFn _ (Nat.le_add_left 1 steps) inside, Nat.cast_succ, add_sub_cancel_right]

namespace LieOn

variable
  {samples : Samples ℝ}
  {h : ℝ}
  {curve : Polynomial ℝ}

theorem ofPolynomial
    (lie : samples.LieOn samples.size h curve.eval)
    (low : curve.natDegree ≤ 3) :
    samples.LieOn samples.size h (Cubic.ofPolynomial curve).eval :=
  fun steps inside => (lie steps inside).trans (Cubic.eval_ofPolynomial low _).symm

/-- Of three samples or more, the integral up to each is that of their polynomial. -/
theorem integralTo_eq_integral
    (lie : samples.LieOn samples.size h curve.eval)
    (low : curve.natDegree ≤ 3)
    (longer : 3 ≤ samples.size)
    (steps : Nat)
    (inside : steps < samples.size)
    (parabolic : steps = 1 → curve.natDegree ≤ 2) :
    samples.integralTo h (steps + 1) = ∫ x in (0 : ℝ)..steps * h, curve.eval x := by
  rw [(lie.ofPolynomial low).integralTo_eq_primitive longer steps inside fun second =>
      Cubic.ofPolynomial_cube (parabolic second),
    Cubic.integral_ofPolynomial low, Cubic.primitive_zero, sub_zero]

/-- Of two samples, the integral up to the second is that of their line. -/
theorem integralTo_pair_eq_integral
    (lie : samples.LieOn samples.size h curve.eval)
    (low : curve.natDegree ≤ 1)
    (pair : samples.size = 2) :
    samples.integralTo h 2 = ∫ x in (0 : ℝ)..h, curve.eval x := by
  rw [(lie.ofPolynomial (by omega)).integralTo_pair pair
      ⟨Cubic.ofPolynomial_square low, Cubic.ofPolynomial_cube (by omega)⟩,
    Cubic.integral_ofPolynomial (by omega), Cubic.primitive_zero, sub_zero]

end LieOn

end Samples

open scoped Exact

open Samples (MayRead integralToM)

/--
The running integral is exact on cubics and never reads ahead.

Over samples of a polynomial it is as long as they are, starts with zero and is the integral at
every sample from the third on up to degree three, and at the second one up to degree two, or up
to degree one if there are only two samples.  Over any number type an entry is the same for all
runs that are the same at the places that it may read, however far they go on, and reading these
alone suffices: whatever happens where another place is asked for, it does not happen.  The
second entry does need the third sample where there is one.
-/
theorem running_integral_is_exact_and_never_reads_ahead :
    (∀ (curve : Polynomial ℝ) (size : Nat) (h : ℝ),
        let samples : Samples ℝ := .ofFn size fun index => curve.eval (((index : ℝ) - 1) * h)
        let integral := samples.runningIntegral h
        integral.size = size ∧
          integral.get 1 = 0 ∧
          (curve.natDegree ≤ 3 → ∀ index, 3 ≤ index → index ≤ size →
            integral.get index = ∫ x in (0 : ℝ)..((index : ℝ) - 1) * h, curve.eval x) ∧
          (curve.natDegree ≤ 2 → 3 ≤ size →
            integral.get 2 = ∫ x in (0 : ℝ)..h, curve.eval x) ∧
          (curve.natDegree ≤ 1 → size = 2 →
            integral.get 2 = ∫ x in (0 : ℝ)..h, curve.eval x)) ∧
      (∀ (α : Type) [Scalar α] (samples : Samples α) (h : α) (index : Nat),
        1 ≤ index → index ≤ samples.size →
        (∀ other : Samples α, index ≤ other.size →
            (index = 2 → (3 ≤ other.size ↔ 3 ≤ samples.size)) →
            (∀ place, MayRead samples.size index place →
              other.get place = samples.get place) →
            (other.runningIntegral h).get index = (samples.runningIntegral h).get index) ∧
          ∀ (m : Type → Type) [Monad m] [LawfulMonad m] (read : Nat → m α),
            (∀ place, MayRead samples.size index place →
              read place = pure (samples.get place)) →
            integralToM read samples.size h index =
              pure ((samples.runningIntegral h).get index)) ∧
      ∀ (left right : Samples ℝ) (h : ℝ), h ≠ 0 → left.size = right.size → 3 ≤ left.size →
        left.get 1 = right.get 1 → left.get 2 = right.get 2 →
        ((left.runningIntegral h).get 2 = (right.runningIntegral h).get 2 ↔
          left.get 3 = right.get 3) := by
  refine ⟨?_, ?_, ?_⟩
  · intro curve size h samples integral
    have sized : samples.size = size := Samples.size_ofFn _ _
    have lie : samples.LieOn samples.size h curve.eval := by
      rw [sized]
      exact Samples.lieOn_ofFn curve.eval size h
    refine ⟨(Samples.size_runningIntegral samples h).trans sized, ?_, ?_, ?_, ?_⟩
    · exact Samples.get_runningIntegral_one samples h
    · intro low index third last
      obtain ⟨steps, rfl⟩ : ∃ steps, index = steps + 1 := ⟨index - 1, by omega⟩
      rw [Samples.get_runningIntegral h (by omega) (by omega), Nat.cast_succ,
        add_sub_cancel_right]
      exact lie.integralTo_eq_integral low (by omega) steps (by omega) (by omega)
    · intro low longer
      have second := lie.integralTo_eq_integral (by omega) (by omega) 1 (by omega) fun _ => low
      rw [Nat.cast_one, one_mul] at second
      exact (Samples.get_runningIntegral h (by decide) (by omega)).trans second
    · intro low pair
      exact (Samples.get_runningIntegral h (by decide) (by omega)).trans
        (lie.integralTo_pair_eq_integral low (by omega))
  · intro α _ samples h index first last
    refine ⟨?_, ?_⟩
    · intro other reached third same
      rw [Samples.get_runningIntegral h first last,
        Samples.get_runningIntegral h first reached]
      refine (Samples.integralTo_congr (fun second => (third second).symm) ?_ h first last).symm
      exact fun place met => (same place met).symm
    · intro m _ _ read same
      rw [Samples.get_runningIntegral h first last, ← Samples.integralToM_pure]
      exact Samples.integralToM_congr same h first last
  · intro left right h apart size longer first second
    rw [Samples.get_runningIntegral h (by decide) (by omega),
      Samples.get_runningIntegral h (by decide) (by omega)]
    exact Samples.integralTo_second_eq_iff apart size longer first second

/--
The third power over five samples, the second over three and the first over two.  On doubles, the
fourth entry when the run goes on otherwise behind the fourth sample and when nothing behind it
may be read.  Two runs whose third samples differ have different second entries.
-/
theorem running_integrals_of_powers_and_of_two_runs :
    let power (exponent size : Nat) : Samples ℝ :=
      .ofFn size fun index =>
        (Polynomial.X ^ exponent : Polynomial ℝ).eval (((index : ℝ) - 1) * 2)
    let weak : Samples Float := .ofList [1, 2, 3, 4, 5]
    let strong : Samples Float := .ofList [1, 2, 3, 4, -500, 7]
    let guarded (place : Nat) : Option Float :=
      if place ≤ 4 then some (weak.get place) else none
    let low : Samples ℝ := .ofFn 3 fun index => if index = 3 then 1 else 0
    let high : Samples ℝ := .ofFn 3 fun index => if index = 3 then 2 else 0
    ((power 3 5).runningIntegral 2).get 5 = 1024 ∧
      ((power 2 3).runningIntegral 2).get 2 = 8 / 3 ∧
      ((power 1 2).runningIntegral 2).get 2 = 2 ∧
      (strong.runningIntegral 1).get 4 = (weak.runningIntegral 1).get 4 ∧
      integralToM guarded 5 1 4 = some ((weak.runningIntegral 1).get 4) ∧
      (low.runningIntegral 1).get 2 ≠ (high.runningIntegral 1).get 2 := by
  intro power weak strong guarded low high
  obtain ⟨integrals, reads, looksAhead⟩ := running_integral_is_exact_and_never_reads_ahead
  obtain ⟨-, -, ofCube, -, -⟩ := integrals (Polynomial.X ^ 3) 5 2
  obtain ⟨-, -, -, ofSquare, -⟩ := integrals (Polynomial.X ^ 2) 3 2
  obtain ⟨-, -, -, -, ofLine⟩ := integrals (Polynomial.X ^ 1) 2 2
  obtain ⟨alike, guards⟩ := reads Float weak 1 4 (by decide) (by decide)
  refine ⟨?_, ?_, ?_, ?_, ?_, ?_⟩
  · refine (ofCube (Polynomial.natDegree_X_pow 3).le 5 (by decide) (by decide)).trans ?_
    simp only [Polynomial.eval_pow, Polynomial.eval_X, integral_pow]
    norm_num
  · refine (ofSquare (Polynomial.natDegree_X_pow 2).le (by decide)).trans ?_
    simp only [Polynomial.eval_pow, Polynomial.eval_X, integral_pow]
    norm_num
  · refine (ofLine (Polynomial.natDegree_X_pow 1).le rfl).trans ?_
    simp only [Polynomial.eval_pow, Polynomial.eval_X, integral_pow]
    norm_num
  · refine alike strong (by decide) (by decide) ?_
    rintro place ⟨first, -, last | ⟨second, -⟩⟩
    · interval_cases place <;> rfl
    · exact absurd second (by decide)
  · refine guards Option guarded ?_
    rintro place ⟨-, -, last | ⟨second, -⟩⟩
    · exact if_pos last
    · exact absurd second (by decide)
  · have lowThird : low.get 3 = 1 := Samples.get_ofFn _ (by decide) (by decide)
    have highThird : high.get 3 = 2 := Samples.get_ofFn _ (by decide) (by decide)
    have told := looksAhead low high 1 one_ne_zero rfl (by decide) rfl rfl
    rw [lowThird, highThird] at told
    exact fun same => absurd (told.mp same) (by norm_num)

end Electrostatics
