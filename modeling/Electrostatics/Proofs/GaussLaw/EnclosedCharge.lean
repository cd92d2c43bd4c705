import Electrostatics.Proofs.GaussLaw.Parabolas

namespace Electrostatics.GaussLaw

/-!
# The field of an enclosed charge

Gauss's law gives the field at a place by the charge that is enclosed there.  Where the
charge times the area lies on a polynomial of degree three at most, the field is exact from
the third sample on, and for degree two at the second sample as well.
-/

open scoped Exact

variable {K : Type} [Field K] [LinearOrder K]

/--
The field at a place, by the charge enclosed up to every place of an axis of that extent.
At a point or an axis of symmetry the field vanishes; a slab is centred.
-/
def fieldOfEnclosed (symmetry : Symmetry) (enclosed : K → K) (extent place : K) : K :=
  match symmetry with
  | .planar => enclosed place - enclosed extent / (2 : Nat)
  | _ => if place = 0 then 0 else enclosed place / place ^ symmetry.areaPower

theorem fieldOfEnclosed_planar
    (enclosed : K → K)
    (extent place : K) :
    fieldOfEnclosed .planar enclosed extent place = enclosed place - enclosed extent / 2 :=
  rfl

theorem fieldOfEnclosed_curved
    {symmetry : Symmetry}
    (curved : symmetry ≠ .planar)
    {place : K}
    (away : place ≠ 0)
    (enclosed : K → K)
    (extent : K) :
    fieldOfEnclosed symmetry enclosed extent place =
      enclosed place / place ^ symmetry.areaPower := by
  cases symmetry with
  | planar => exact (curved rfl).elim
  | spherical | cylindrical => exact if_neg away

theorem fieldOfEnclosed_origin
    {symmetry : Symmetry}
    (curved : symmetry ≠ .planar)
    (enclosed : K → K)
    (extent : K) :
    fieldOfEnclosed symmetry enclosed extent 0 = 0 := by
  cases symmetry with
  | planar => exact (curved rfl).elim
  | spherical | cylindrical => exact if_pos rfl

variable [FloorRing K]

variable
  {symmetry : Symmetry}
  {charge axis : Samples K}
  {weighted : Cubic K}
  {density : K → K}
  {h : K}
  {steps : Nat}

/-- The enclosed charge is the primitive of the charge times the area. -/
theorem enclosed_get
    (weighs : ∀ x, weighted.eval x = density x * x ^ symmetry.areaPower)
    (enough : 3 ≤ charge.size)
    (axisLies : axis.LieOn charge.size h id)
    (lie : charge.LieOn charge.size h density)
    (inside : steps < charge.size)
    (parabolic : steps = 1 → weighted.cube = 0) :
    ((timesArea symmetry.areaPower axis charge).runningIntegral h).get (steps + 1) =
      weighted.primitive (steps * h) := by
  have size := size_timesArea symmetry.areaPower axis charge
  have lies :
      (timesArea symmetry.areaPower axis charge).LieOn charge.size h weighted.eval := by
    intro steps inside
    rw [timesArea_lieOn axisLies le_rfl lie _ steps inside, weighs]
  rw [← size] at enough lies inside
  rw [Samples.get_runningIntegral h (Nat.le_add_left 1 steps) inside]
  exact lies.integralTo_eq_primitive enough steps inside parabolic

/-- The field of a slab is the integral up to a place, centred by half of the whole. -/
theorem fieldOfCharge_planar_eq
    {index : Nat}
    (first : 1 ≤ index)
    (last : index ≤ charge.size) :
    (fieldOfCharge .planar charge axis h).get index =
      charge.integralTo h index - charge.integralTo h charge.size / 2 := by
  rw [fieldOfCharge, Samples.addScalar, Samples.get_map _ first (by simpa),
    Samples.size_runningIntegral, Samples.get_runningIntegral h first last,
    Samples.get_runningIntegral h (first.trans last) le_rfl, Exact.numeral_ofNat]
  ring

/-- The field of a slab. -/
theorem fieldOfCharge_planar_get
    (weighs : ∀ x, weighted.eval x = density x)
    (enough : 3 ≤ charge.size)
    (lie : charge.LieOn charge.size h density)
    (inside : steps < charge.size)
    (parabolic : steps = 1 → weighted.cube = 0) :
    (fieldOfCharge .planar charge axis h).get (steps + 1) =
      fieldOfEnclosed .planar weighted.primitive ((charge.size - 1 : Nat) * h) (steps * h) := by
  have lies : charge.LieOn charge.size h weighted.eval := by
    intro steps inside
    rw [lie steps inside, weighs]
  have here : charge.integralTo h (steps + 1) = weighted.primitive (steps * h) :=
    lies.integralTo_eq_primitive enough steps inside parabolic
  have whole :
      charge.integralTo h charge.size = weighted.primitive ((charge.size - 1 : Nat) * h) := by
    have last : charge.size - 1 + 1 = charge.size := by omega
    have notSecond : charge.size - 1 ≠ 1 := by omega
    have total := lies.integralTo_eq_primitive enough (charge.size - 1) (by omega)
      fun second => (notSecond second).elim
    rwa [last] at total
  rw [fieldOfCharge_planar_eq (Nat.le_add_left 1 steps) inside, here, whole,
    fieldOfEnclosed_planar]

/-- The field around a point or an axis, away from the origin. -/
theorem fieldOfCharge_curved_get
    (curved : symmetry ≠ .planar)
    (apart : h ≠ 0)
    (weighs : ∀ x, weighted.eval x = density x * x ^ symmetry.areaPower)
    (enough : 3 ≤ charge.size)
    (axisLies : axis.LieOn charge.size h id)
    (lie : charge.LieOn charge.size h density)
    (away : 1 ≤ steps)
    (inside : steps < charge.size)
    (parabolic : steps = 1 → weighted.cube = 0)
    (extent : K) :
    (fieldOfCharge symmetry charge axis h).get (steps + 1) =
      fieldOfEnclosed symmetry weighted.primitive extent (steps * h) := by
  have place : (steps * h : K) ≠ 0 := mul_ne_zero (Nat.cast_ne_zero.mpr (by omega)) apart
  have enclosed := enclosed_get weighs enough axisLies lie inside parabolic
  rw [fieldOfCharge_of_curved curved, overArea_get axisLies _ _ away inside, enclosed,
    fieldOfEnclosed_curved curved place]

/--
The field of a charge is that of the charge it encloses: in planar symmetry everywhere, else
away from the origin.  At the second sample the charge times the area has to be a parabola.
-/
theorem fieldOfCharge_get
    (symmetry : Symmetry)
    (apart : h ≠ 0)
    (weighs : ∀ x, weighted.eval x = density x * x ^ symmetry.areaPower)
    (enough : 3 ≤ charge.size)
    (axisLies : axis.LieOn charge.size h id)
    (lie : charge.LieOn charge.size h density)
    (away : symmetry = .planar ∨ 1 ≤ steps)
    (inside : steps < charge.size)
    (parabolic : steps = 1 → weighted.cube = 0) :
    (fieldOfCharge symmetry charge axis h).get (steps + 1) =
      fieldOfEnclosed symmetry weighted.primitive ((charge.size - 1 : Nat) * h) (steps * h) := by
  by_cases planar : symmetry = .planar
  · subst planar
    have unweighted (x : K) : weighted.eval x = density x := by
      rw [weighs, Symmetry.areaPower, zpow_zero, mul_one]
    exact fieldOfCharge_planar_get unweighted enough lie inside parabolic
  · exact fieldOfCharge_curved_get planar apart weighs enough axisLies lie
      (away.resolve_left planar) inside parabolic _

namespace Solver

/-- The spacing divides the axis. -/
theorem intervals_mul_spacing (solver : Solver K) :
    ((solver.settings.points - 1 : Nat) : K) * solver.spacing = solver.settings.extent := by
  have least : 5 ≤ solver.settings.points := solver.points_enough
  have intervals : ((solver.settings.points - 1 : Nat) : K) ≠ 0 :=
    Nat.cast_ne_zero.mpr (by omega)
  exact mul_div_cancel₀ _ intervals

variable [IsStrictOrderedRing K]

/-- The field that a transform finds for a charge within the bound. -/
theorem fieldOfCharge_clamped_get
    {solver : Solver K}
    (symmetry : Symmetry)
    (weighs : ∀ x, weighted.eval x = density x * x ^ symmetry.areaPower)
    (sized : charge.size = solver.settings.points)
    (within :
      ∀ index, 1 ≤ index → index ≤ solver.settings.points →
        |charge.get index| ≤ solver.settings.clamp)
    (lie : charge.LieOn solver.settings.points solver.spacing density)
    (away : symmetry = .planar ∨ 1 ≤ steps)
    (inside : steps < solver.settings.points)
    (parabolic : steps = 1 → weighted.cube = 0) :
    (fieldOfCharge symmetry (solver.clamped charge) solver.axis solver.spacing).get
        (steps + 1) =
      fieldOfEnclosed symmetry weighted.primitive solver.settings.extent
        (steps * solver.spacing) := by
  have least : 5 ≤ solver.settings.points := solver.points_enough
  have inputSize : (solver.clamped charge).size = solver.settings.points :=
    (solver.size_clamped charge).trans sized
  have input := clamped_lieOn sized.ge within lie
  have field := fieldOfCharge_get symmetry solver.spacing_pos.ne' weighs (by omega)
    (inputSize.symm ▸ solver.axis_lieOn) (inputSize.symm ▸ input) away (by omega) parabolic
  rwa [inputSize, intervals_mul_spacing] at field

end Solver

end Electrostatics.GaussLaw
