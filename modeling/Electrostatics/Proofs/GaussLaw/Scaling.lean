import Electrostatics.Proofs.GaussLaw.Superposition

namespace Electrostatics.GaussLaw

/-!
# Axes of another length

In exact arithmetic a solver whose axis is longer by a factor gives the same samples the
same curves, up to powers of the factor: one power for every integration on the way from
what is known, and one less for every slope.
-/

open scoped Exact

variable {K : Type} [Field K] [LinearOrder K] [FloorRing K]

namespace Solver

/-- A solver is another one with an axis that is `scale` times as long. -/
structure Stretches (scale : K) (near far : Solver K) : Prop where
  points : far.settings.points = near.settings.points
  extent : far.settings.extent = scale * near.settings.extent
  clamp : far.settings.clamp = near.settings.clamp

namespace Stretches

variable
  {scale : K}
  {near far : Solver K}

theorem spacing (stretches : Stretches scale near far) :
    far.spacing = scale * near.spacing := by
  rw [Solver.spacing, Solver.spacing, stretches.points, stretches.extent, mul_div_assoc]

theorem axis (stretches : Stretches scale near far) (index : Nat) :
    far.axis.get index = scale * near.axis.get index := by
  by_cases inside : 1 ≤ index ∧ index ≤ near.settings.points
  · obtain ⟨first, last⟩ := inside
    rw [Solver.axis, Solver.axis, Samples.get_ofFn _ first last,
      Samples.get_ofFn _ first (stretches.points ▸ last), place, place, stretches.spacing]
    ring
  · have outside : index = 0 ∨ near.settings.points < index := by omega
    have nearOutside : index = 0 ∨ near.axis.size < index := by
      simpa [Solver.axis] using outside
    have farOutside : index = 0 ∨ far.axis.size < index := by
      simpa [Solver.axis, stretches.points] using outside
    rw [Samples.get_outside nearOutside, Samples.get_outside farOutside, Exact.numeral_zero,
      mul_zero]

/-- Both solvers take the same input, which is once itself and no part of a second run. -/
theorem inputs (stretches : Stretches scale near far) (samples : Samples K) :
    Samples.Combines 1 0 (near.clamped samples) (near.clamped samples)
      (far.clamped samples) := by
  rw [Solver.clamped, Solver.clamped, stretches.clamp]
  exact ⟨rfl, rfl, fun index => by ring⟩

end Stretches

variable [IsStrictOrderedRing K]

/--
Dimensional scaling, for all settings that a solver is accepted with: over an axis `scale`
times as long the field of a charge is multiplied by `scale` and its potential by
`scale ^ 2`, the field of a potential is divided by `scale` and its charge by `scale ^ 2`,
and the potential of a field is multiplied by `scale` and its charge divided by it.
-/
theorem curves_scale_with_the_axis
    {points : Nat}
    {extent scale clamp : K}
    (enough : 5 ≤ points)
    (positive : 0 < extent)
    (scaling : 0 < scale)
    (bounded : 0 < clamp)
    (symmetry : Symmetry)
    {samples : Samples K}
    (sized : samples.size = points) :
    ∃ near far,
      ofSettings { extent := extent, points := points, clamp := clamp } = .ok near ∧
      ofSettings { extent := scale * extent, points := points, clamp := clamp } = .ok far ∧
      (∃ first second,
        near.transform symmetry .charge samples = .ok first ∧
        far.transform symmetry .charge samples = .ok second ∧
        ∀ index,
          second.field.get index = scale * first.field.get index ∧
          second.potential.get index = scale ^ 2 * first.potential.get index) ∧
      (∃ first second,
        near.transform symmetry .potential samples = .ok first ∧
        far.transform symmetry .potential samples = .ok second ∧
        ∀ index,
          second.field.get index = first.field.get index / scale ∧
          second.charge.get index = first.charge.get index / scale ^ 2) ∧
      (∃ first second,
        near.transform symmetry .field samples = .ok first ∧
        far.transform symmetry .field samples = .ok second ∧
        ∀ index,
          second.potential.get index = scale * first.potential.get index ∧
          second.charge.get index = first.charge.get index / scale) := by
  let near : Solver K :=
    { settings := { extent := extent, points := points, clamp := clamp }
      points_enough := enough
      extent_positive := ⟨rfl, by simpa using positive⟩
      clamp_positive := by simpa using bounded }
  let far : Solver K :=
    { settings := { extent := scale * extent, points := points, clamp := clamp }
      points_enough := enough
      extent_positive := ⟨rfl, by simpa using mul_pos scaling positive⟩
      clamp_positive := by simpa using bounded }
  have stretches : Stretches scale near far := ⟨rfl, rfl, rfl⟩
  have apart : scale ≠ 0 := scaling.ne'
  have inputs := stretches.inputs samples
  refine ⟨near, far, ofSettings_eq_ok_iff.mpr rfl, ofSettings_eq_ok_iff.mpr rfl, ?_, ?_, ?_⟩
  · have fields := inputs.fieldOfCharge apart stretches.axis symmetry near.spacing
    have potentials := fields.potentialOfField scale near.spacing
    rw [← stretches.spacing] at fields potentials
    refine ⟨_, _, transform_charge sized, transform_charge sized, fun index => ⟨?_, ?_⟩⟩
    · exact (fields.get index).trans (by ring)
    · exact (potentials.get index).trans (by ring)
  · have fields := inputs.fieldOfPotential scale near.spacing
    have charges := fields.chargeOfField apart stretches.axis symmetry near.spacing
    rw [← stretches.spacing] at fields charges
    refine ⟨_, _, transform_potential sized, transform_potential sized,
      fun index => ⟨?_, ?_⟩⟩
    · exact (fields.get index).trans (by ring)
    · exact (charges.get index).trans (by ring)
  · have potentials := inputs.potentialOfField scale near.spacing
    have charges := inputs.chargeOfField apart stretches.axis symmetry near.spacing
    rw [← stretches.spacing] at potentials charges
    refine ⟨_, _, transform_field sized, transform_field sized, fun index => ⟨?_, ?_⟩⟩
    · exact (potentials.get index).trans (by ring)
    · exact (charges.get index).trans (by ring)

/--
A charge around a point, beyond the bound at the last of five samples: three times the axis
has three times the field at the origin and nine times the potential at the last sample.
-/
theorem curves_scale_with_three_times_the_axis :
    let short : Settings ℚ := { extent := 4, points := 5, clamp := 1000 }
    let long : Settings ℚ := { extent := 3 * 4, points := 5, clamp := 1000 }
    let charge : Samples ℚ := .ofList [1, 2, 3, 4, 5000]
    ∃ near far first second,
      ofSettings short = .ok near ∧
      ofSettings long = .ok far ∧
      near.transform .spherical .charge charge = .ok first ∧
      far.transform .spherical .charge charge = .ok second ∧
      second.field.get 1 = 3 * first.field.get 1 ∧
      second.potential.get 5 = 3 ^ 2 * first.potential.get 5 := by
  intro short long charge
  have positive : (0 : ℚ) < 4 ∧ (0 : ℚ) < 3 ∧ (0 : ℚ) < 1000 := by decide
  obtain ⟨extent, scaling, bounded⟩ := positive
  have sized : charge.size = 5 := rfl
  obtain ⟨near, far, nearAccepted, farAccepted, charges, -, -⟩ :=
    curves_scale_with_the_axis Nat.le.refl extent scaling bounded .spherical sized
  obtain ⟨first, second, transformed, other, scaled⟩ := charges
  exact ⟨near, far, first, second, nearAccepted, farAccepted, transformed, other,
    (scaled 1).1, (scaled 5).2⟩

end Solver

end Electrostatics.GaussLaw
