import Electrostatics.Proofs.Samples.Panels

namespace Electrostatics

/-!
# Samples of polynomials

In exact arithmetic the running integral of a polynomial is its primitive, for degree
three from the third sample on and for degree two everywhere.  Simpson's rule is built of
panels, two intervals each: every panel adds what the primitive rises over it, and so do
the three intervals of the three-eighths rule.
-/

open scoped Exact

namespace Samples

variable {K : Type} [Field K]

theorem place_add
    (steps further : Nat)
    (h : K) :
    ((steps + further : Nat) : K) * h = steps * h + further * h := by
  push_cast
  ring

variable [LinearOrder K] [FloorRing K]

/-- The first samples of a run, `count` of them, lie on a curve over places `h` apart. -/
def LieOn
    (samples : Samples K)
    (count : Nat)
    (h : K)
    (curve : K → K) :
    Prop :=
  ∀ steps, steps < count → samples.get (steps + 1) = curve (steps * h)

namespace LieOn

variable
  {samples : Samples K}
  {count : Nat}
  {h : K}
  {line : K → K}

/-- The neighbour before a sample. -/
theorem get_before
    (lie : samples.LieOn count h line)
    {steps : Nat}
    (away : 1 ≤ steps)
    (inside : steps ≤ count) :
    samples.get steps = line (steps * h - h) := by
  obtain ⟨earlier, rfl⟩ := Nat.exists_eq_add_of_le' away
  rw [lie earlier inside]
  congr 1
  push_cast
  ring

/-- The neighbour behind a sample. -/
theorem get_behind
    (lie : samples.LieOn count h line)
    {steps : Nat}
    (inside : steps + 1 < count) :
    samples.get (steps + 2) = line (steps * h + h) := by
  rw [lie (steps + 1) inside]
  congr 1
  push_cast
  ring

theorem map
    (lie : samples.LieOn count h line)
    (inside : count ≤ samples.size)
    (change : K → K) :
    (samples.map change).LieOn count h fun x => change (line x) := by
  intro steps below
  rw [get_map change (Nat.le_add_left 1 steps) (by omega), lie steps below]

end LieOn

variable
  {samples : Samples K}
  {h : K}
  {curve : Cubic K}

namespace LieOn

theorem threeEighths_rise
    (lie : samples.LieOn samples.size h curve.eval)
    (steps : Nat)
    (inside : steps + 4 ≤ samples.size) :
    3 * h / 8 *
        (samples.get (steps + 1) + 3 * samples.get (steps + 2) +
          3 * samples.get (steps + 3) + samples.get (steps + 4)) =
      curve.primitive ((steps + 3 : Nat) * h) - curve.primitive (steps * h) := by
  have rise := curve.threeEighths_rise (steps * h) h
  rw [lie steps (by omega), lie (steps + 1) (by omega), lie (steps + 2) (by omega),
    lie (steps + 3) (by omega)]
  simpa only [place_add, Nat.cast_one, one_mul, Nat.cast_ofNat] using rise

/-- Up to an odd sample every panel adds the rise of the primitive over it. -/
theorem integralTo_odd
    (lie : samples.LieOn samples.size h curve.eval)
    (panels : Nat)
    (inside : 2 * panels + 1 ≤ samples.size) :
    samples.integralTo h (2 * panels + 1) = curve.primitive ((2 * panels : Nat) * h) := by
  have rise := Quadrature.panelSum_rise curve 0 h panels
  have onCurve (index : Nat) (within : index ≤ 2 * panels) :
      samples.get (1 + index) = Quadrature.valuesAt curve.eval 0 h index := by
    rw [Nat.add_comm, lie index (by omega), Quadrature.valuesAt, zero_add]
  rw [Samples.integralTo_odd, Nat.add_comm _ 1, simpson_eq_panelSum,
    Quadrature.panelSum_congr onCurve]
  rw [zero_add, Cubic.primitive_zero, sub_zero] at rise
  linear_combination rise

/--
The running integral of a polynomial is its primitive.  At the second sample the rule is
a parabola only.
-/
theorem integralTo_eq_primitive
    (lie : samples.LieOn samples.size h curve.eval)
    (longer : 3 ≤ samples.size)
    (steps : Nat)
    (inside : steps < samples.size)
    (parabolic : steps = 1 → curve.cube = 0) :
    samples.integralTo h (steps + 1) = curve.primitive (steps * h) := by
  rcases index_kinds (Nat.le_add_left 1 steps) with second | ⟨panels, odd⟩ | ⟨panels, even⟩
  · obtain rfl : steps = 1 := by omega
    have rule :
        samples.integralTo h 2 =
          h * (5 * samples.get 1 + 8 * samples.get 2 - samples.get 3) / 12 :=
      integralTo_second h longer
    have rise := Cubic.first_rise (parabolic rfl) h
    have first := lie 0 (by omega)
    have middle := lie 1 (by omega)
    have last := lie 2 (by omega)
    simp only [Nat.zero_add, Nat.cast_zero, zero_mul, Nat.cast_one, one_mul, Nat.cast_ofNat,
      Nat.reduceAdd] at first middle last
    rw [Nat.cast_one, one_mul, ← rise, ← first, ← middle, ← last]
    exact rule
  · obtain rfl : steps = 2 * panels := by omega
    exact lie.integralTo_odd panels (by omega)
  · obtain rfl : steps = 2 * panels + 3 := by omega
    have grown := samples.integralTo_even h panels
    have tail := lie.threeEighths_rise (2 * panels) (by omega)
    have body := lie.integralTo_odd panels (by omega)
    linear_combination grown + body + tail

/-- The running integral of samples on a parabola lies on the primitive. -/
theorem runningIntegral
    (lie : samples.LieOn samples.size h curve.eval)
    (longer : 3 ≤ samples.size)
    (parabolic : curve.cube = 0) :
    (samples.runningIntegral h).LieOn samples.size h curve.primitive := by
  intro steps inside
  rw [get_runningIntegral h (Nat.le_add_left 1 steps) inside]
  exact lie.integralTo_eq_primitive longer steps inside fun _ => parabolic

end LieOn

end Samples

end Electrostatics
