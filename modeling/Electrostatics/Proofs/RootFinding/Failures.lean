import Electrostatics.Proofs.RootFinding.Bisection
import Electrostatics.Proofs.RootFinding.Recurrences

namespace Electrostatics.RootFinding

/-!
# Giving up

Bisection looks for a root at both ends before it gives up, and Newton's iteration looks at the
value before the slope.  The iteration of secants compares two values first: it gives up on a root
as well, if it comes there from a value that is tiny.
-/

open scoped Exact

variable
  {K : Type}
  [Field K]
  [LinearOrder K]
  [FloorRing K]
  [IsStrictOrderedRing K]
  {f derivative : K → K}
  {a b tolerance x : K}
  {iterations : Nat}
  {error : RootError K}

/-- Bisection gives up only on two values that are not zero. -/
theorem bisection_error (failed : bisection f a b tolerance iterations = .error error) :
    error = .noSignChange (f a) (f b) ∧ f a ≠ 0 ∧ f b ≠ 0 := by
  by_cases same : 0 < f a * f b
  · rw [bisection_eq, if_pos same] at failed
    exact
      ⟨(Except.error.inj failed).symm, left_ne_zero_of_mul same.ne',
        right_ne_zero_of_mul same.ne'⟩
  · obtain ⟨x, answer, -⟩ := exists_located_of_bisection tolerance iterations (not_lt.mp same)
    cases failed.symm.trans answer

/-- Newton's iteration gives up only at a value that is not below the tolerance. -/
theorem newton_error (failed : newton f derivative a tolerance iterations = .error error) :
    ∃ x, error = .zeroDerivative x ∧ tolerance ≤ |f x| := by
  obtain ⟨k, -, -, unsettled, -, named⟩ := Path.ends_error_iff.mp (newton_eq_iff.mp failed)
  exact ⟨_, named, not_lt.mp fun small => unsettled (Path.settled_of_good small)⟩

/-- Secants give up at a place whose value hardly differs from that of the place before. -/
theorem secant_error_iff :
    secant f a b tolerance iterations = .error error ↔
      ∃ k < iterations,
        (secantPath f a b).Reaches tolerance k ∧
          ¬(secantPath f a b).Settled tolerance k ∧
          Tiny (f (secantPlace f a b (k + 1)) - f (secantPlace f a b k)) ∧
          error = .stalledSecant (secantPlace f a b (k + 1)) :=
  secant_eq_iff.trans Path.ends_error_iff

omit [FloorRing K] [IsStrictOrderedRing K] in
theorem tiny_zero_sub_iff
    [IsOrderedAddMonoid K]
    {value : K} :
    Tiny (0 - value) ↔ Tiny value := by
  rw [Tiny, zero_sub, abs_neg, Tiny]

/--
Bisection and Newton's iteration never give up on a root, and secants do where they come to it
from a tiny value.  For all functions, starting points, positive tolerances and numbers of
iterations, the one error of bisection names two values that are not zero, and the one of Newton's
iteration a place that is no root.  The one of secants names a place whose value hardly differs
from that of the place before; this place is a root exactly when one is reached before the
iteration settles, while the value at the place before it is tiny.
-/
theorem only_secants_give_up_on_a_root
    (positive : 0 < tolerance)
    (f derivative : K → K)
    (a b : K)
    (iterations : Nat) :
    (∀ error, bisection f a b tolerance iterations = .error error →
        error = .noSignChange (f a) (f b) ∧ f a ≠ 0 ∧ f b ≠ 0) ∧
      (∀ error, newton f derivative a tolerance iterations = .error error →
        ∃ x, error = .zeroDerivative x ∧ f x ≠ 0) ∧
      (∀ error, secant f a b tolerance iterations = .error error →
        ∃ k < iterations,
          error = .stalledSecant (secantPlace f a b (k + 1)) ∧
            Tiny (f (secantPlace f a b (k + 1)) - f (secantPlace f a b k))) ∧
      ∀ x,
        secant f a b tolerance iterations = .error (.stalledSecant x) ∧ f x = 0 ↔
          ∃ k < iterations,
            (secantPath f a b).Reaches tolerance k ∧
              ¬(secantPath f a b).Settled tolerance k ∧
              secantPlace f a b (k + 1) = x ∧
              f x = 0 ∧
              Tiny (f (secantPlace f a b k)) := by
  refine ⟨fun error => bisection_error, fun error failed => ?_, fun error failed => ?_, fun x => ?_⟩
  · obtain ⟨x, named, large⟩ := newton_error failed
    exact ⟨x, named, abs_pos.mp (positive.trans_le large)⟩
  · obtain ⟨k, left, -, -, tiny, named⟩ := secant_error_iff.mp failed
    exact ⟨k, left, named, tiny⟩
  · constructor
    · rintro ⟨failed, root⟩
      obtain ⟨k, left, reaches, unsettled, tiny, named⟩ := secant_error_iff.mp failed
      obtain rfl := RootError.stalledSecant.inj named
      rw [root, tiny_zero_sub_iff] at tiny
      exact ⟨k, left, reaches, unsettled, rfl, root, tiny⟩
    · rintro ⟨k, left, reaches, unsettled, rfl, root, tiny⟩
      refine ⟨secant_error_iff.mpr ⟨k, left, reaches, unsettled, ?_, rfl⟩, root⟩
      rwa [root, tiny_zero_sub_iff]

/--
On a line that rises by less than a quadrillionth, secants from sixty-four and one find the root
in one step and then give up on it.
-/
theorem secants_give_up_on_a_faint_line :
    let line : ℚ → ℚ := fun x => x / 2 ^ 53
    let parabola : ℚ → ℚ := fun x => x * x + 1
    let slope : ℚ → ℚ := fun x => 2 * x
    (0 : ℚ) < 1 / 10 ^ 12 ∧
      (bisection parabola 0 1 (1 / 10 ^ 12) 9 = .error (.noSignChange 1 2) ∧
        parabola 0 ≠ 0 ∧ parabola 1 ≠ 0) ∧
      (newton parabola slope 0 (1 / 10 ^ 12) 9 = .error (.zeroDerivative 0) ∧
        parabola 0 ≠ 0) ∧
      secant line 64 1 (1 / 10 ^ 12) 9 = .error (.stalledSecant 0) ∧
      ∃ k < 9,
        (secantPath line 64 1).Reaches (1 / 10 ^ 12) k ∧
          ¬(secantPath line 64 1).Settled (1 / 10 ^ 12) k ∧
          secantPlace line 64 1 (k + 1) = 0 ∧
          line 0 = 0 ∧
          Tiny (line (secantPlace line 64 1 k)) := by
  intro line parabola slope
  have positive : (0 : ℚ) < 1 / 10 ^ 12 := by norm_num
  obtain ⟨byBisection, byNewton, -, -⟩ :=
    only_secants_give_up_on_a_root positive parabola slope 0 1 9
  obtain ⟨-, -, -, onRoots⟩ := only_secants_give_up_on_a_root positive line slope 64 1 9
  have sameSign : bisection parabola 0 1 (1 / 10 ^ 12) 9 = .error (.noSignChange 1 2) := by
    decide +kernel
  have flat : newton parabola slope 0 (1 / 10 ^ 12) 9 = .error (.zeroDerivative 0) := by
    decide +kernel
  have stalled : secant line 64 1 (1 / 10 ^ 12) 9 = .error (.stalledSecant 0) := by
    decide +kernel
  obtain ⟨x, named, apart⟩ := byNewton _ flat
  obtain rfl := RootError.zeroDerivative.inj named
  exact
    ⟨positive, ⟨sameSign, (byBisection _ sameSign).2⟩, ⟨flat, apart⟩, stalled,
      (onRoots 0).mp ⟨stalled, by decide +kernel⟩⟩

/-- Between two roots secants give up on the second, which the other two iterations answer with. -/
theorem secants_give_up_on_the_second_root :
    let f : ℚ → ℚ := fun x => (x - 1) * (x - 2)
    let derivative : ℚ → ℚ := fun x => 2 * x - 3
    (0 : ℚ) < 1 / 10 ^ 12 ∧
      secant f 1 2 (1 / 10 ^ 12) 50 = .error (.stalledSecant 2) ∧
      f 2 = 0 ∧
      newton f derivative 2 (1 / 10 ^ 12) 50 = .ok 2 ∧
      bisection f 2 1 (1 / 10 ^ 12) 50 = .ok 2 := by
  decide +kernel

end Electrostatics.RootFinding
