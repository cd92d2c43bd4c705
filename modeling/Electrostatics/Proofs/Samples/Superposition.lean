import Electrostatics.Proofs.Number.Exact
import Electrostatics.Proofs.Samples.Access

namespace Electrostatics.Samples

/-!
# Runs that are put together

In exact arithmetic the operations on samples are linear.  Of a run that is put together of
two others they give what is put together, in the same proportion, of what they give of
these.  The places may be further apart by a factor at the same time: an integral grows by
it, and a difference shrinks by it.
-/

open scoped Exact

variable {K : Type} [Field K] [LinearOrder K] [FloorRing K]

/-- Every sample of a run is `a` times that of one run and `b` times that of another. -/
structure Combines (a b : K) (one other whole : Samples K) : Prop where
  oneSize : one.size = whole.size
  otherSize : other.size = whole.size
  get : ∀ index, whole.get index = a * one.get index + b * other.get index

variable
  {a b : K}
  {one other whole : Samples K}

namespace Combines

/-- It is enough that the samples inside are put together: outside zero is read. -/
theorem ofInside
    (oneSize : one.size = whole.size)
    (otherSize : other.size = whole.size)
    (inside :
      ∀ index, 1 ≤ index → index ≤ whole.size →
        whole.get index = a * one.get index + b * other.get index) :
    Combines a b one other whole where
  oneSize := oneSize
  otherSize := otherSize
  get index := by
    by_cases within : 1 ≤ index ∧ index ≤ whole.size
    · exact inside index within.1 within.2
    · have outside : index = 0 ∨ whole.size < index := by omega
      rw [get_outside outside, get_outside (oneSize.symm ▸ outside),
        get_outside (otherSize.symm ▸ outside), Exact.numeral_zero]
      ring

/-- The proportions may be written in another way. -/
theorem congr
    {a' b' : K}
    (combines : Combines a b one other whole)
    (first : a = a')
    (second : b = b') :
    Combines a' b' one other whole :=
  first ▸ second ▸ combines

theorem ofFn
    {size : Nat}
    {left right total : Nat → K}
    (same : ∀ index, total index = a * left index + b * right index) :
    Combines a b (Samples.ofFn size left) (Samples.ofFn size right)
      (Samples.ofFn size total) := by
  refine ofInside (by simp) (by simp) fun index first last => ?_
  have inside : index ≤ size := by simpa using last
  rw [get_ofFn _ first inside, get_ofFn _ first inside, get_ofFn _ first inside, same]

theorem map
    {left right total : K → K}
    (combines : Combines a b one other whole)
    (same : ∀ x y, total (a * x + b * y) = a * left x + b * right y) :
    Combines a b (one.map left) (other.map right) (whole.map total) := by
  refine ofInside (by simpa using combines.oneSize) (by simpa using combines.otherSize)
    fun index first last => ?_
  have inside : index ≤ whole.size := by simpa using last
  rw [get_map _ first inside, get_map _ first (combines.oneSize ▸ inside),
    get_map _ first (combines.otherSize ▸ inside), combines.get, same]

theorem set
    {left right total : K}
    {index : Nat}
    (combines : Combines a b one other whole)
    (positive : 1 ≤ index)
    (same : total = a * left + b * right) :
    Combines a b (one.set index left) (other.set index right) (whole.set index total) := by
  refine ofInside (by simpa using combines.oneSize) (by simpa using combines.otherSize)
    fun place first last => ?_
  have inside : place ≤ whole.size := by simpa using last
  by_cases here : index = place
  · subst here
    rw [get_set _ first inside, get_set _ first (combines.oneSize ▸ inside),
      get_set _ first (combines.otherSize ▸ inside), same]
  · rw [get_set_of_ne _ _ here positive, get_set_of_ne _ _ here positive,
      get_set_of_ne _ _ here positive, combines.get]

/-! ## Integrals and differences -/

theorem addAlternating_eq
    (combines : Combines a b one other whole)
    (start steps offset : Nat)
    (left right : K) :
    whole.addAlternating start steps offset (a * left + b * right) =
      a * one.addAlternating start steps offset left +
        b * other.addAlternating start steps offset right := by
  induction steps generalizing offset left right with
  | zero => rfl
  | succ steps inductionHypothesis =>
      rw [addAlternating, addAlternating, addAlternating, ← inductionHypothesis, combines.get]
      congr 1
      ring

theorem simpson_eq
    (combines : Combines a b one other whole)
    (first last : Nat) :
    whole.simpson first last = a * one.simpson first last + b * other.simpson first last := by
  simp only [simpson]
  split
  · rw [Exact.numeral_zero]
    ring
  · have sum := combines.addAlternating_eq first (evenAtLeast (last - first) - 1) 1
      (one.get first + one.get (first + evenAtLeast (last - first)))
      (other.get first + other.get (first + evenAtLeast (last - first)))
    rw [combines.get, combines.get, Exact.numeral_ofNat, mul_div_assoc', mul_div_assoc',
      ← add_div, ← sum]
    congr 2
    ring

/-- An integral over places that are `scale` times as far apart. -/
theorem integralTo_eq
    (combines : Combines a b one other whole)
    (scale h : K)
    (index : Nat) :
    whole.integralTo (scale * h) index =
      scale * a * one.integralTo h index + scale * b * other.integralTo h index := by
  simp only [integralTo, combines.oneSize, combines.otherSize, combines.simpson_eq,
    combines.get, Exact.numeral_zero, Exact.numeral_ofNat]
  split_ifs <;> ring

/-- A difference over places that are `scale` times as far apart. -/
theorem difference_eq
    (combines : Combines a b one other whole)
    (scale h : K)
    (index : Nat) :
    whole.difference index (scale * h) =
      a / scale * one.difference index h + b / scale * other.difference index h := by
  simp only [difference, combines.oneSize, combines.otherSize, combines.get,
    Exact.numeral_zero, Exact.numeral_ofNat]
  split_ifs <;> ring

theorem runningIntegral
    (combines : Combines a b one other whole)
    (scale h : K) :
    Combines (scale * a) (scale * b) (one.runningIntegral h) (other.runningIntegral h)
      (whole.runningIntegral (scale * h)) := by
  have integrals :
      Combines (scale * a) (scale * b)
        (Samples.ofFn whole.size (one.integralTo h))
        (Samples.ofFn whole.size (other.integralTo h))
        (Samples.ofFn whole.size (whole.integralTo (scale * h))) :=
    ofFn (combines.integralTo_eq scale h)
  rw [Samples.runningIntegral, Samples.runningIntegral, Samples.runningIntegral, combines.oneSize,
    combines.otherSize]
  exact integrals

end Combines

end Electrostatics.Samples
