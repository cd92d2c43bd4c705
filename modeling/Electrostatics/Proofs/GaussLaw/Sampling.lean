import Electrostatics.GaussLaw.Sampling
import Electrostatics.Proofs.Formula.SoftEvaluation
import Electrostatics.Proofs.GaussLaw.Solver

namespace Electrostatics.GaussLaw

/-!
# What a sampling depends on

A pass over the axis reads the error that the formula remembers, to find out whether the
origin has a value, and it leaves an error behind wherever a sample fails.  Since the error
of an earlier pass is dropped first, the samples and the warnings of a pass are determined
by the outcomes of the formula at the places of the axis.
-/

open scoped Scalar

variable {α : Type} [Scalar α] [Elementary α]

/-- A use of a formula that has been read: a call on it, or a pass over the axis of a solver. -/
inductive Use (α : Type) [Scalar α] where
  | call (made : Formula.Call α)
  | sample (solver : Solver α) (known : Quantity)

/-- A formula after one more use. -/
def Use.apply (formula : Formula) : Use α → Formula
  | .call made => (formula.respond made).2
  | .sample solver known => (solver.sample formula known).formula

/-- A formula after a history of uses. -/
def afterUses (formula : Formula) (history : List (Use α)) : Formula :=
  history.foldl Use.apply formula

namespace Solver

/-- The outcome of a formula at an index of the axis. -/
def outcome (solver : Solver α) (formula : Formula) (index : Nat) : Except EvaluationError α :=
  let place := solver.place index
  formula.tryEvaluate { x := place, y := 0, z := 0, r := place }

/-- The value of a formula at an index of the axis, held within the bound of the solver. -/
def heldValue (solver : Solver α) (formula : Formula) (index : Nat) : α :=
  Scalar.clamp solver.settings.clamp (Formula.softened (solver.outcome formula index))

/-- The origin has no usable value: none at all, or one whose magnitude is beyond the bound. -/
def OriginIsBad (solver : Solver α) (formula : Formula) : Prop :=
  (∃ fault, solver.outcome formula 1 = .error fault) ∨
    ∃ value,
      solver.outcome formula 1 = .ok value ∧
      solver.settings.clamp < Scalar.magnitude value

/-- The origin of a sampled charge is continued from its neighbours. -/
def Repairs (solver : Solver α) (formula : Formula) (known : Quantity) : Prop :=
  known = .charge ∧ solver.OriginIsBad formula

variable
  {solver : Solver α}
  {formula : Formula}
  {known : Quantity}

/-! ## One step of a pass, and a whole pass -/

/-- A step holds the value of the formula and records its outcome. -/
theorem run_sampleAt
    (solver : Solver α)
    (index : Nat)
    (pass : Pass) :
    ((solver.sampleAt index).run pass).1 = solver.heldValue pass.formula index ∧
      ((solver.sampleAt index).run pass).2.formula =
        pass.formula.record [solver.outcome pass.formula index] :=
  ⟨rfl, rfl⟩

/-- A step away from the origin says nothing about the origin. -/
theorem originIsBad_sampleAt_of_ne
    {index : Nat}
    (away : index ≠ 1)
    (pass : Pass) :
    ((solver.sampleAt index).run pass).2.originIsBad = pass.originIsBad :=
  if_neg away

/-- At the origin a formula that remembers no error yet shows whether the value is usable. -/
theorem originIsBad_sampleAt_one
    {pass : Pass}
    (fresh : pass.formula.lastError = none) :
    ((solver.sampleAt 1).run pass).2.originIsBad = true ↔
      solver.OriginIsBad pass.formula := by
  have isBad :
      ((solver.sampleAt 1).run pass).2.originIsBad =
        (decide (solver.settings.clamp <
            Scalar.magnitude (Formula.softened (solver.outcome pass.formula 1))) ||
          (pass.formula.record [solver.outcome pass.formula 1]).lastError.isSome) := by
    rfl
  rw [isBad, OriginIsBad]
  cases evaluated : solver.outcome pass.formula 1 with
  | ok value =>
      simp only [Formula.record, Formula.lastErrorOf, Formula.softened, fresh, Option.or_none,
        Option.isSome_none, Bool.or_false, Except.ok.injEq, reduceCtorEq, exists_false, false_or,
        exists_eq_left']
      exact decide_eq_true_iff
  | error fault => simp [Formula.record, Formula.lastErrorOf]

theorem run_cons
    (solver : Solver α)
    (index : Nat)
    (later : List Nat)
    (pass : Pass) :
    ((index :: later).mapM solver.sampleAt).run pass =
      let step := (solver.sampleAt index).run pass
      let rest := (later.mapM solver.sampleAt).run step.2
      (step.1 :: rest.1, rest.2) := by
  rw [List.mapM_cons]
  rfl

/--
A pass holds the values of the formula at its indices, one after the other, and records
their outcomes.  Without the origin it says nothing about the origin.
-/
theorem run_indices
    (solver : Solver α)
    (indices : List Nat)
    (pass : Pass) :
    ((indices.mapM solver.sampleAt).run pass).1 =
        indices.map (solver.heldValue pass.formula) ∧
      ((indices.mapM solver.sampleAt).run pass).2.formula =
        pass.formula.record (indices.map (solver.outcome pass.formula)) ∧
      (1 ∉ indices →
        ((indices.mapM solver.sampleAt).run pass).2.originIsBad = pass.originIsBad) := by
  -- A step changes nothing about the formula but its error, so later steps see the same outcomes.
  induction indices generalizing pass with
  | nil => exact ⟨rfl, rfl, fun _ => rfl⟩
  | cons index later inductionHypothesis =>
      obtain ⟨held, recordedFirst⟩ := run_sampleAt solver index pass
      obtain ⟨values, recorded, unchanged⟩ :=
        inductionHypothesis ((solver.sampleAt index).run pass).2
      rw [run_cons]
      refine ⟨?_, ?_, fun away => ?_⟩
      · exact congrArg₂ List.cons held values
      · rw [recordedFirst] at recorded
        exact recorded.trans (pass.formula.record_append [_] _).symm
      · rw [List.mem_cons, not_or] at away
        exact (unchanged away.2).trans (originIsBad_sampleAt_of_ne (Ne.symm away.1) pass)

/-! ## The samples of a pass -/

/-- The values of a formula along the axis, held within the bound of the solver. -/
def heldValues (solver : Solver α) (formula : Formula) : Samples α :=
  Samples.ofFn solver.settings.points (solver.heldValue formula)

@[simp]
theorem size_heldValues
    (solver : Solver α)
    (formula : Formula) :
    (solver.heldValues formula).size = solver.settings.points :=
  Samples.size_ofFn _ _

theorem get_heldValues
    {index : Nat}
    (formula : Formula)
    (first : 1 ≤ index)
    (last : index ≤ solver.settings.points) :
    (solver.heldValues formula).get index = solver.heldValue formula index :=
  Samples.get_ofFn _ first last

/-- The pass over the whole axis, after the error of an earlier pass was dropped. -/
def wholePass (solver : Solver α) (formula : Formula) : List α × Pass :=
  ((List.range' 1 solver.settings.points).mapM solver.sampleAt).run
    { formula := formula.cleared, originIsBad := false }

theorem values_wholePass (solver : Solver α) (formula : Formula) :
    Samples.ofList (solver.wholePass formula).1 = solver.heldValues formula := by
  rw [wholePass, (run_indices solver _ _).1, Samples.ofList_map_range']
  rfl

theorem formula_wholePass (solver : Solver α) (formula : Formula) :
    (solver.wholePass formula).2.formula =
      formula.cleared.record
        ((List.range' 1 solver.settings.points).map (solver.outcome formula)) :=
  (run_indices solver _ _).2.1

theorem originIsBad_wholePass (solver : Solver α) (formula : Formula) :
    (solver.wholePass formula).2.originIsBad = true ↔ solver.OriginIsBad formula := by
  have enough : 5 ≤ solver.settings.points := solver.points_enough
  obtain ⟨later, points⟩ :=
    Nat.exists_eq_add_of_le' (show 1 ≤ solver.settings.points by omega)
  have away : 1 ∉ List.range' (1 + 1) later := by simp
  have atOrigin :
      ((solver.sampleAt 1).run ⟨formula.cleared, false⟩).2.originIsBad = true ↔
        solver.OriginIsBad formula :=
    originIsBad_sampleAt_one rfl
  rw [wholePass, points, List.range'_succ, run_cons]
  exact (Eq.congr_left ((run_indices solver _ _).2.2 away)).trans atOrigin

/-! ## What a sampling gives -/

theorem values_of_repairs
    (repairs : solver.Repairs formula known) :
    (solver.sample formula known).values = continueToOrigin (solver.heldValues formula) := by
  have isBad := (originIsBad_wholePass solver formula).mpr repairs.2
  rw [← values_wholePass]
  exact if_pos ⟨repairs.1, isBad⟩

theorem values_of_not_repairs
    (keeps : ¬ solver.Repairs formula known) :
    (solver.sample formula known).values = solver.heldValues formula := by
  rw [← values_wholePass]
  refine if_neg fun repaired => keeps ⟨repaired.1, ?_⟩
  exact (originIsBad_wholePass solver formula).mp repaired.2

/-- A sampling warns of the last error of its pass. -/
theorem warnings_sample
    (solver : Solver α)
    (formula : Formula)
    (known : Quantity) :
    (solver.sample formula known).warnings =
      ((Formula.lastErrorOf
          ((List.range' 1 solver.settings.points).map (solver.outcome formula))).map
        fun fault => ⟨formula.source, fault⟩).toList := by
  have reported :
      (solver.sample formula known).warnings =
        (solver.wholePass formula).2.formula.reportError.1 :=
    rfl
  rw [reported, formula_wholePass, Formula.reportError_fst]
  simp [Formula.record, Formula.cleared]

/-- A sampling changes nothing about a formula but the error that it takes. -/
theorem formula_sample
    (solver : Solver α)
    (formula : Formula)
    (known : Quantity) :
    (solver.sample formula known).formula = formula.cleared := by
  have reported :
      (solver.sample formula known).formula =
        (solver.wholePass formula).2.formula.reportError.2 :=
    rfl
  rw [reported, formula_wholePass, Formula.reportError_snd]
  rfl

/-- Every sample but that at the origin is the value held within the bound. -/
theorem get_sample
    {index : Nat}
    (away : index = 1 → ¬ solver.Repairs formula known)
    (first : 1 ≤ index)
    (last : index ≤ solver.settings.points) :
    (solver.sample formula known).values.get index = solver.heldValue formula index := by
  by_cases repairs : solver.Repairs formula known
  · have notOrigin : index ≠ 1 := fun isOrigin => away isOrigin repairs
    rw [values_of_repairs repairs, get_continueToOrigin_of_ne _ notOrigin,
      get_heldValues formula first last]
  · rw [values_of_not_repairs repairs, get_heldValues formula first last]

/-- A repaired origin is continued from the three samples next to it. -/
theorem get_sample_one
    (repairs : solver.Repairs formula known) :
    (solver.sample formula known).values.get 1 =
      3 * solver.heldValue formula 2 - 3 * solver.heldValue formula 3 +
        solver.heldValue formula 4 := by
  have enough : 5 ≤ solver.settings.points := solver.points_enough
  rw [values_of_repairs repairs, get_continueToOrigin (by rw [size_heldValues]; omega),
    get_heldValues formula (by omega) (by omega), get_heldValues formula (by omega) (by omega),
    get_heldValues formula (by omega) (by omega)]

/-! ## Any history -/

/-- A use of a formula changes nothing about it but the error that it remembers. -/
theorem cleared_apply
    (formula : Formula)
    (use : Use α) :
    (use.apply formula).cleared = formula.cleared := by
  cases use with
  | call made => cases made <;> rfl
  | sample solver known => rw [Use.apply, formula_sample]; rfl

theorem cleared_afterUses
    (formula : Formula)
    (history : List (Use α)) :
    (afterUses formula history).cleared = formula.cleared := by
  induction history generalizing formula with
  | nil => rfl
  | cons use later inductionHypothesis =>
      exact (inductionHypothesis (use.apply formula)).trans (cleared_apply formula use)

/-- A sampling after a history is the sampling before it. -/
theorem sample_afterUses
    (solver : Solver α)
    (formula : Formula)
    (history : List (Use α))
    (known : Quantity) :
    solver.sample (afterUses formula history) known = solver.sample formula known := by
  have dropped (formula : Formula) :
      solver.sample formula known = solver.sample formula.cleared known :=
    rfl
  rw [dropped, cleared_afterUses, ← dropped]

/--
Sampling forgets the past of a formula.  After every history of calls and of passes over
any axes a sampling has the values and the warnings that it has with the formula just read.
It warns at most once, and does so exactly when a sample of its own pass failed, of the
error of the last one that did; then no error is left.  The origin is continued from its
neighbours exactly where a charge is known and the origin failed in this pass or was beyond
the bound.
-/
theorem sampling_forgets_the_past
    {settings : Settings α}
    {solver : Solver α}
    (accepted : ofSettings settings = .ok solver)
    {bound : List Coordinate}
    {source : String}
    {fresh : Formula}
    (read : Formula.compile bound source = .ok fresh)
    (history : List (Use α))
    (known : Quantity) :
    let sampled := solver.sample (afterUses fresh history) known
    sampled.values = (solver.sample fresh known).values ∧
    sampled.warnings = (solver.sample fresh known).warnings ∧
    sampled.formula.lastError = none ∧
    sampled.warnings.length ≤ 1 ∧
    (sampled.warnings = [] ↔
      ∀ index, 1 ≤ index → index ≤ settings.points →
        ∃ value, solver.outcome fresh index = .ok value) ∧
    (∀ warning ∈ sampled.warnings,
      warning.source = source ∧
      ∃ index,
        1 ≤ index ∧
        index ≤ settings.points ∧
        solver.outcome fresh index = .error warning.error ∧
        ∀ later, index < later → later ≤ settings.points →
          ∃ value, solver.outcome fresh later = .ok value) ∧
    (∀ index, 2 ≤ index → index ≤ settings.points →
      sampled.values.get index = solver.heldValue fresh index) ∧
    (known = .charge ∧ solver.OriginIsBad fresh →
      sampled.values.get 1 =
        3 * sampled.values.get 2 - 3 * sampled.values.get 3 + sampled.values.get 4) ∧
    (¬ (known = .charge ∧ solver.OriginIsBad fresh) →
      sampled.values.get 1 = solver.heldValue fresh 1) := by
  obtain rfl := ofSettings_eq_ok_iff.mp accepted
  obtain ⟨tree, rfl⟩ := Formula.exists_tree_of_compile read
  have enough : 5 ≤ solver.settings.points := solver.points_enough
  intro sampled
  have same : sampled = solver.sample _ known := sample_afterUses solver _ history known
  have behind (index : Nat) (away : 2 ≤ index) (inside : index ≤ solver.settings.points) :
      sampled.values.get index = solver.heldValue _ index :=
    same ▸ get_sample (by omega) (by omega) inside
  refine
    ⟨congrArg _ same, congrArg _ same, ?_, ?_, ?_, ?_, behind, fun repairs => ?_,
      fun keeps => ?_⟩
  · rw [same, formula_sample]
    rfl
  · rw [same, warnings_sample]
    exact Option.length_toList_le
  · rw [same, warnings_sample, Option.toList_eq_nil_iff, Option.map_eq_none_iff,
      Formula.lastErrorOf_range'_eq_none_iff]
  · intro warning warned
    rw [same, warnings_sample, Option.mem_toList, Option.map_eq_some_iff] at warned
    obtain ⟨fault, remembered, rfl⟩ := warned
    exact ⟨rfl, Formula.exists_of_lastErrorOf_range' remembered⟩
  · rw [behind 2 (by omega) (by omega), behind 3 (by omega) (by omega),
      behind 4 (by omega) (by omega), same]
    exact get_sample_one repairs
  · rw [same]
    exact get_sample (fun _ => keeps) le_rfl (by omega)

/--
At the pole of `1/(r-0.5)` the third of five samples fails, as a call did before and a pass
of an earlier sampling.  The charge at the origin is the value of the formula there.
-/
theorem sampling_forgets_an_earlier_pole :
    let settings : Settings Float := { extent := 1, points := 5, clamp := 1000 }
    let half : Expr := .number ⟨5, -1⟩
    let tree : Expr :=
      .operation .div (.number ⟨1, 0⟩) (.operation .sub (.coordinate .r) half)
    let fresh : Formula := ⟨"1/(r-0.5)", tree, none⟩
    let pole : Point Float := { x := 0.5, y := 0, z := 0, r := 0.5 }
    ∃ solver,
      ofSettings settings = .ok solver ∧
      Formula.compile [.r, .x] "1/(r-0.5)" = .ok fresh ∧
      let history : List (Use Float) :=
        [.sample solver .charge, .call (.evaluate pole), .call .lastError]
      let sampled := solver.sample (afterUses fresh history) .charge
      sampled.values.get 1 = -2 ∧
      sampled.warnings = [{ source := "1/(r-0.5)", error := .divisionByZero }] ∧
      sampled.formula.lastError = none := by
  intro settings half tree fresh pole
  let solver : Solver Float :=
    { settings := settings
      points_enough := by decide
      extent_positive := by decide +kernel
      clamp_positive := by decide +kernel }
  have accepted : ofSettings settings = .ok solver := ofSettings_eq_ok_iff.mpr rfl
  have read : Formula.compile [.r, .x] "1/(r-0.5)" = .ok fresh := by rfl
  have first : solver.outcome fresh 1 = .ok (-2) := by decide +kernel
  have third : solver.outcome fresh 3 = .error .divisionByZero := by decide +kernel
  have onlyPoles :
      ∀ index ∈ List.range' 1 5,
        solver.outcome fresh index = .error .divisionByZero ∨
          (solver.outcome fresh index).isOk = true := by
    decide +kernel
  have usable : ¬ solver.OriginIsBad fresh := by
    rintro (⟨fault, failed⟩ | ⟨value, evaluated, beyond⟩)
    · rw [first] at failed
      cases failed
    · obtain rfl := Except.ok.inj (first.symm.trans evaluated)
      revert beyond
      decide +kernel
  let history : List (Use Float) :=
    [.sample solver .charge, .call (.evaluate pole), .call .lastError]
  obtain ⟨-, -, cleared, single, silent, reported, -, -, kept⟩ :=
    sampling_forgets_the_past accepted read history .charge
  have origin : solver.heldValue fresh 1 = -2 := by decide +kernel
  have warns : (solver.sample (afterUses fresh history) .charge).warnings ≠ [] := by
    intro none
    obtain ⟨value, evaluated⟩ := silent.mp none 3 (by decide) (by decide)
    cases third.symm.trans evaluated
  obtain ⟨warning, isSingle⟩ :=
    List.length_eq_one_iff.mp (le_antisymm single (List.length_pos_iff.mpr warns))
  obtain ⟨named, index, low, high, failed, -⟩ :=
    reported warning (isSingle ▸ List.mem_singleton.mpr rfl)
  have error : warning.error = .divisionByZero := by
    rcases onlyPoles index (List.mem_range'_1.mpr ⟨low, Nat.lt_succ_of_le high⟩) with pole | value
    · exact Except.error.inj (failed.symm.trans pole)
    · rw [failed] at value
      cases value
  obtain ⟨text, fault⟩ := warning
  subst named error
  exact
    ⟨solver, accepted, read, (kept fun repairs => usable repairs.2).trans origin, isSingle,
      cleared⟩

end Solver

end Electrostatics.GaussLaw
