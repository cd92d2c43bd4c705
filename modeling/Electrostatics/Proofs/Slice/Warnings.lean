import Electrostatics.Number.Double
import Electrostatics.Proofs.Grid.Access
import Electrostatics.Proofs.Slice.ScalarSessions
import Electrostatics.Proofs.Slice.VectorSessions

namespace Electrostatics

/-!
# What a session warns of

A sampling evaluates a formula offset by offset along the normal, and each time row by row.
All that it leaves behind in the formula is the last error, which is reported when the
samples are shown.  A session therefore warns at most once of a formula, of the last
evaluation that failed, and it never warns of what an earlier call met.
-/

open scoped Scalar

variable {α : Type}

/--
The warnings that evaluations give rise to: one if any of them failed, which carries the
error of the last one that did.
-/
structure Announced
    (source : String)
    (outcomes : List (Except EvaluationError α))
    (warnings : List SamplingWarning) :
    Prop where
  given : warnings ≠ [] ↔ ∃ fault, .error fault ∈ outcomes
  last :
    ∀ earlier fault later,
      outcomes = earlier ++ .error fault :: later →
      (∀ other, .error other ∉ later) →
      warnings = [{ source := source, error := fault }]

/-- Of the evaluations that failed one is the last. -/
theorem exists_last_failure
    {outcomes : List (Except EvaluationError α)}
    {fault : EvaluationError}
    (failed : .error fault ∈ outcomes) :
    ∃ earlier last later,
      outcomes = earlier ++ .error last :: later ∧ ∀ other, .error other ∉ later := by
  induction outcomes generalizing fault with
  | nil => cases failed
  | cons outcome rest inductionHypothesis =>
      by_cases more : ∃ other, .error other ∈ rest
      · obtain ⟨other, failedLater⟩ := more
        obtain ⟨earlier, last, later, rfl, noLater⟩ := inductionHypothesis failedLater
        exact ⟨outcome :: earlier, last, later, rfl, noLater⟩
      · rw [not_exists] at more
        have first : .error fault = outcome :=
          (List.mem_cons.mp failed).resolve_right (more fault)
        exact ⟨[], fault, rest, by rw [first, List.nil_append], more⟩

namespace Announced

variable
  {source : String}
  {outcomes : List (Except EvaluationError α)}
  {warnings : List SamplingWarning}

theorem of_none_failed
    (announced : Announced source outcomes warnings)
    (noneFailed : ∀ fault, .error fault ∉ outcomes) :
    warnings = [] := by
  by_contra warned
  obtain ⟨fault, failed⟩ := announced.given.mp warned
  exact noneFailed fault failed

/-- Where evaluations failed, all with one error, that error is the last one. -/
theorem of_failed_alike
    {fault : EvaluationError}
    (announced : Announced source outcomes warnings)
    (failed : .error fault ∈ outcomes)
    (alike : ∀ other, .error other ∈ outcomes → other = fault) :
    warnings = [{ source := source, error := fault }] := by
  obtain ⟨earlier, last, later, cut, noLater⟩ := exists_last_failure failed
  have same : last = fault := alike last (by simp [cut])
  rw [announced.last earlier last later cut noLater, same]

end Announced

/-- A formula that remembered nothing before reports the last error of its evaluations. -/
theorem announced_reportError
    {formula : Formula}
    (clean : formula.lastError = none)
    (outcomes : List (Except EvaluationError α)) :
    Announced formula.source outcomes (formula.record outcomes).reportError.1 := by
  have remembered : (formula.record outcomes).lastError = Formula.lastErrorOf outcomes := by
    rw [Formula.record, clean, Option.or_none]
  have reported := Formula.reportError_fst (formula.record outcomes)
  rw [remembered] at reported
  refine { given := ?_, last := ?_ }
  · have silent := Formula.lastErrorOf_eq_none_iff outcomes
    rw [reported, ne_eq, Option.toList_eq_nil_iff, Option.map_eq_none_iff, silent]
    simp only [not_forall, not_not]
  · rintro earlier fault later rfl noLater
    rw [reported, Formula.lastErrorOf_of_last fault noLater]
    rfl

namespace Viewpoint

variable [Scalar α]

/-- The offsets along the normal at which a formula is sampled, in their order. -/
def offsets (viewpoint : Viewpoint α) : List α :=
  let h := viewpoint.settings.normalStep
  [0, -2 * h, -h, h, 2 * h]

/-- The offsets at which a component is sampled; only that along the normal leaves the plane. -/
def componentOffsets (viewpoint : Viewpoint α) (axis : Axis) : List α :=
  if axis = viewpoint.plane.normalAxis then viewpoint.offsets else [0]

variable [Elementary α]

/-- The evaluations of a formula over the slice, offset by offset and each time row by row. -/
def evaluations
    (viewpoint : Viewpoint α)
    (formula : Formula)
    (offsets : List α) :
    List (Except EvaluationError α) :=
  offsets.flatMap fun offset =>
    (Grid.indices 1 viewpoint.settings.side).flatMap fun (row : Nat) =>
      (Grid.indices 1 viewpoint.settings.side).map fun (col : Nat) =>
        outcomeAt formula (viewpoint.worldPoint (row : α) (col : α) offset)

theorem mem_evaluations
    {viewpoint : Viewpoint α}
    {formula : Formula}
    {offsets : List α}
    {outcome : Except EvaluationError α} :
    outcome ∈ viewpoint.evaluations formula offsets ↔
      ∃ offset ∈ offsets, ∃ row ∈ Grid.indices 1 viewpoint.settings.side,
        ∃ col ∈ Grid.indices 1 viewpoint.settings.side,
          outcomeAt formula (viewpoint.worldPoint (row : α) (col : α) offset) = outcome := by
  simp only [evaluations, List.mem_flatMap, List.mem_map]

theorem length_evaluations
    (viewpoint : Viewpoint α)
    (formula : Formula)
    (offsets : List α) :
    (viewpoint.evaluations formula offsets).length =
      offsets.length * (viewpoint.settings.side * viewpoint.settings.side) := by
  simp [evaluations, Grid.indices, List.length_flatMap]

/-- An action on a formula that does nothing to it but evaluate it at offsets, in order. -/
def Evaluates
    {β : Type}
    (viewpoint : Viewpoint α)
    (action : StateM Formula β)
    (offsets : List α) : Prop :=
  ∀ formula, (action.run formula).2 = formula.record (viewpoint.evaluations formula offsets)

namespace Evaluates

variable
  {β γ : Type}
  {viewpoint : Viewpoint α}

theorem pure (value : β) : viewpoint.Evaluates (Pure.pure value) [] :=
  fun _ => rfl

theorem bind
    {action : StateM Formula β}
    {next : β → StateM Formula γ}
    {first second : List α}
    (evaluates : viewpoint.Evaluates action first)
    (nextEvaluates : ∀ value, viewpoint.Evaluates (next value) second) :
    viewpoint.Evaluates (action >>= next) (first ++ second) := by
  intro formula
  have after : ((action >>= next).run formula).2 = _ := nextEvaluates _ _
  have before : (action formula).2 = _ := evaluates formula
  have appended :
      viewpoint.evaluations formula (first ++ second) =
        viewpoint.evaluations formula first ++ viewpoint.evaluations formula second := by
    simp only [evaluations, List.flatMap_append]
  rw [after, before, appended, Formula.record_append]
  -- The remembered error plays no part in an evaluation.
  rfl

theorem sample (viewpoint : Viewpoint α) (offset : α) :
    viewpoint.Evaluates (viewpoint.sample offset) [offset] := by
  intro formula
  have cells := Grid.toList_build viewpoint.settings.side viewpoint.settings.side
    fun row col => outcomeAt formula (viewpoint.worldPoint (row : α) (col : α) offset)
  simp only [evaluations, List.flatMap_singleton, ← cells]
  rfl

theorem sampleOffPlane (viewpoint : Viewpoint α) :
    viewpoint.Evaluates viewpoint.sampleOffPlane viewpoint.offsets.tail :=
  (sample viewpoint _).bind fun _ =>
    (sample viewpoint _).bind fun _ =>
      (sample viewpoint _).bind fun _ =>
        (sample viewpoint _).bind fun _ => pure _

theorem scalarField (viewpoint : Viewpoint α) :
    viewpoint.Evaluates (ScalarField.sample viewpoint) viewpoint.offsets :=
  (sample viewpoint 0).bind fun _ =>
    (sampleOffPlane viewpoint).bind fun _ => pure _

theorem component
    (viewpoint : Viewpoint α)
    (axis : Axis) :
    viewpoint.Evaluates (SampledComponent.sample viewpoint axis)
      (viewpoint.componentOffsets axis) := by
  unfold componentOffsets SampledComponent.sample
  by_cases across : axis = viewpoint.plane.normalAxis
  · simp only [if_pos across]
    exact (sample viewpoint 0).bind fun _ =>
      (sampleOffPlane viewpoint).bind fun _ => pure _
  · simp only [if_neg across]
    exact (sample viewpoint 0).bind fun _ => pure _

end Evaluates

end Viewpoint

variable [Scalar α] [Elementary α]

namespace ScalarSession

/--
A call that showed a formula announced the failures of its evaluations, at all five offsets,
and left no error in the formula.  Where there is no formula nothing is announced.
-/
structure Announces
    (outcome : ScalarSession α × List SamplingWarning) :
    Prop where
  warnings :
    ∀ formula ∈ outcome.1.formula,
      Announced formula.source
        (outcome.1.viewpoint.evaluations formula outcome.1.viewpoint.offsets) outcome.2
  silent : outcome.1.formula = none → outcome.2 = []
  forgotten : ∀ formula ∈ outcome.1.formula, formula.lastError = none

theorem announces_display
    (viewpoint : Viewpoint α)
    {formula : Formula}
    (clean : formula.lastError = none) :
    Announces (display viewpoint formula) := by
  have shown := display_formula viewpoint formula
  refine { warnings := ?_, silent := ?_, forgotten := ?_ }
  · intro other isShown
    obtain rfl := Option.some.inj (shown.symm.trans isShown)
    have reported :
        (display viewpoint formula).2 =
          (formula.record
            (viewpoint.evaluations formula viewpoint.offsets)).reportError.1 :=
      congrArg (fun after => after.reportError.1)
        (Viewpoint.Evaluates.scalarField viewpoint formula)
    rw [reported]
    exact announced_reportError clean _
  · intro hidden
    cases shown.symm.trans hidden
  · intro other isShown
    obtain rfl := Option.some.inj (shown.symm.trans isShown)
    rfl

theorem announces_moveTo
    {session : ScalarSession α}
    (clean : ∀ formula ∈ session.formula, formula.lastError = none)
    (viewpoint : Viewpoint α) :
    Announces (session.moveTo viewpoint) := by
  obtain ⟨earlier, formula, field⟩ := session
  cases formula with
  | none => exact { warnings := nofun, silent := fun _ => rfl, forgotten := nofun }
  | some formula => exact announces_display viewpoint (clean formula rfl)

/-- After every history the formula of a session remembers no error. -/
theorem lastError_after
    (settings : SliceSettings α)
    (history : List (Call String α)) :
    ∀ formula ∈ (after settings history).formula, formula.lastError = none := by
  intro formula shown
  have recent := (reflects_after settings history).formula.symm.trans shown
  rw [← Recent.cleared_of_formula? recent]
  rfl

end ScalarSession

namespace VectorSession

/--
A call that showed formulas announced, in the order of the axes, the failures of the
evaluations of each component, of which only that along the normal was also evaluated off the
plane, and left no error in any formula.  A blank component has nothing to announce.
-/
structure Announces
    (outcome : VectorSession α × List SamplingWarning)
    (each : PerAxis (List SamplingWarning)) :
    Prop where
  ordered : outcome.2 = each.toList.flatten
  warnings :
    ∀ axis, ∀ formula ∈ outcome.1.formulas.get axis,
      Announced formula.source
        (outcome.1.viewpoint.evaluations formula
          (outcome.1.viewpoint.componentOffsets axis))
        (each.get axis)
  silent : ∀ axis, outcome.1.formulas.get axis = none → each.get axis = []
  forgotten : ∀ axis, ∀ formula ∈ outcome.1.formulas.get axis, formula.lastError = none

/-- The warnings of a component are those of its sampling. -/
theorem announced_ofFormula?
    (viewpoint : Viewpoint α)
    (axis : Axis)
    {formula : Formula}
    (clean : formula.lastError = none) :
    Announced formula.source
      (viewpoint.evaluations formula (viewpoint.componentOffsets axis))
      (SampledComponent.ofFormula? viewpoint axis (some formula)).2.1 := by
  have reported :
      (SampledComponent.ofFormula? viewpoint axis (some formula)).2.1 =
        (formula.record
          (viewpoint.evaluations formula
            (viewpoint.componentOffsets axis))).reportError.1 :=
    congrArg (fun after => after.reportError.1)
      (Viewpoint.Evaluates.component viewpoint axis formula)
  rw [reported]
  exact announced_reportError clean _

/-- A display puts the warnings of the components one behind the other. -/
theorem display_warnings
    (viewpoint : Viewpoint α)
    (formulas : PerAxis (Option Formula)) :
    (display viewpoint formulas).2 =
      (PerAxis.ofFn fun axis =>
        (SampledComponent.ofFormula? viewpoint axis
          (formulas.get axis)).2.1).toList.flatten := by
  unfold display
  split
  case isTrue isBlank =>
    have blank := (PerAxis.all_toList formulas _).mp isBlank
    simp only [Option.isNone_iff_eq_none] at blank
    simp [blank, PerAxis.toList, PerAxis.ofFn, SampledComponent.ofFormula?]
  case isFalse => rfl

theorem announces_display
    (viewpoint : Viewpoint α)
    {formulas : PerAxis (Option Formula)}
    (clean : ∀ axis, ∀ formula ∈ formulas.get axis, formula.lastError = none) :
    ∃ each, Announces (display viewpoint formulas) each := by
  have shown :
      ∀ axis,
        (display viewpoint formulas).1.formulas.get axis =
          (formulas.get axis).map Formula.cleared := by
    intro axis
    rw [display_formulas, PerAxis.get_map]
  refine ⟨_, ⟨display_warnings viewpoint formulas, ?_, ?_, ?_⟩⟩
  · intro axis other isShown
    rw [shown] at isShown
    obtain ⟨formula, given, rfl⟩ := Option.map_eq_some_iff.mp isShown
    rw [display_viewpoint, PerAxis.get_ofFn, given]
    exact announced_ofFormula? viewpoint axis (clean axis formula given)
  · intro axis hidden
    rw [shown, Option.map_eq_none_iff] at hidden
    rw [PerAxis.get_ofFn, hidden]
    rfl
  · intro axis other isShown
    rw [shown] at isShown
    obtain ⟨formula, _, rfl⟩ := Option.map_eq_some_iff.mp isShown
    rfl

/-- Formulas that were just read remember no error. -/
theorem lastError_of_componentOf?
    (sources : PerAxis String) :
    ∀ axis, ∀ formula ∈ (sources.map componentOf?).get axis, formula.lastError = none := by
  intro axis formula shown
  rw [PerAxis.get_map] at shown
  rw [← cleared_of_componentOf? shown]
  rfl

/-- After every history no formula of a session remembers an error. -/
theorem lastError_after
    (settings : SliceSettings α)
    (history : List (Call (PerAxis String) α)) :
    ∀ axis, ∀ formula ∈ (after settings history).formulas.get axis,
      formula.lastError = none := by
  intro axis formula shown
  have recent := (reflects_after settings history).formulas
  rw [recent, ← Recent.formulas_cleared, PerAxis.get_map] at shown
  obtain ⟨other, _, rfl⟩ := Option.map_eq_some_iff.mp shown
  rfl

end VectorSession

/--
Failures are announced once.  After any history, a call that shows a formula warns of it
exactly if one of its evaluations failed, once, and of the last that did: of five on every
cell of the slice, or, for a component of a vector field that does not point across it, of
one.  The components are warned of in the order of the axes, and afterwards no formula
remembers an error, so that no warning tells of an earlier call.
-/
theorem failures_are_announced_once (settings : SliceSettings α) :
    (∀ history : List (Call String α),
      let session := ScalarSession.after settings history
      (∀ source outcome,
        session.setFormula source = .ok outcome → ScalarSession.Announces outcome) ∧
      (∀ side, ScalarSession.Announces (session.resize side)) ∧
      (∀ plane value, ScalarSession.Announces (session.definePlane plane value))) ∧
    (∀ history : List (Call (PerAxis String) α),
      let session := VectorSession.after settings history
      (∀ sources outcome,
        session.setFormulas sources = .ok outcome →
        ∃ each, VectorSession.Announces outcome each) ∧
      (∀ side, ∃ each, VectorSession.Announces (session.resize side) each) ∧
      (∀ plane value,
        ∃ each, VectorSession.Announces (session.definePlane plane value) each)) ∧
    (∀ (viewpoint : Viewpoint α) formula,
      (viewpoint.evaluations formula viewpoint.offsets).length =
        5 * (viewpoint.settings.side * viewpoint.settings.side)) := by
  refine ⟨fun history => ⟨?_, ?_, ?_⟩, fun history => ⟨?_, ?_, ?_⟩, ?_⟩
  · intro source outcome shown
    unfold ScalarSession.setFormula at shown
    cases parsed : Formula.parse source with
    | error fault => simp [parsed] at shown
    | ok formula =>
        obtain rfl : ScalarSession.display _ formula = outcome := by simpa [parsed] using shown
        obtain ⟨tree, rfl⟩ := Formula.exists_tree_of_compile parsed
        exact ScalarSession.announces_display _ rfl
  · intro side
    exact ScalarSession.announces_moveTo (ScalarSession.lastError_after settings history) _
  · intro plane value
    exact ScalarSession.announces_moveTo (ScalarSession.lastError_after settings history) _
  · intro sources outcome shown
    by_cases accepted : VectorSession.accepts sources = true
    · rw [VectorSession.setFormulas_of_accepts accepted] at shown
      obtain rfl := Except.ok.inj shown
      exact VectorSession.announces_display _ (VectorSession.lastError_of_componentOf? sources)
    · obtain ⟨fault, failed⟩ :=
        VectorSession.setFormulas_of_rejects (by simpa using accepted)
          (VectorSession.after settings history)
      cases failed.symm.trans shown
  · intro side
    exact VectorSession.announces_display _ (VectorSession.lastError_after settings history)
  · intro plane value
    exact VectorSession.announces_display _ (VectorSession.lastError_after settings history)
  · intro viewpoint formula
    exact viewpoint.length_evaluations formula viewpoint.offsets

section Pole

/-- The quotient `1/x`, whose pole is the plane `x = 0`. -/
def Formula.pole : Formula :=
  ⟨"1/x", .operation .div (.number ⟨1, 0⟩) (.coordinate .x), none⟩

/-- The plane of the pole in the standard box. -/
def Viewpoint.throughPole : Viewpoint Float :=
  (start SliceSettings.standard).definePlane .yz 0

/-- On its plane the quotient fails in every cell, and off the plane in none. -/
theorem Announced.of_pole
    {viewpoint : Viewpoint Float}
    {offsets : List Float}
    {warnings : List SamplingWarning}
    (announced : Announced "1/x" (viewpoint.evaluations .pole offsets) warnings)
    (same : SameView viewpoint .throughPole)
    (onPlane : 0 ∈ offsets)
    (noOther : offsets ⊆ Viewpoint.throughPole.offsets) :
    warnings = [{ source := "1/x", error := .divisionByZero }] := by
  have onAxis :
      ∀ row col offset,
        Viewpoint.outcomeAt .pole (viewpoint.worldPoint row col offset) =
          Viewpoint.outcomeAt .pole ⟨0 + offset, 0, 0⟩ := by
    intro row col offset
    rw [same.worldPoint_eq]
    rfl
  have outcomes :
      ∀ offset ∈ Viewpoint.throughPole.offsets,
        Viewpoint.outcomeAt .pole ⟨0 + offset, 0, 0⟩ = .error .divisionByZero ∨
          (Viewpoint.outcomeAt .pole ⟨0 + offset, 0, 0⟩).isOk = true := by
    decide +kernel
  have side : viewpoint.settings.side = 30 := congrArg SliceSettings.side same.settings
  refine announced.of_failed_alike ?_ ?_
  · refine Viewpoint.mem_evaluations.mpr ⟨0, onPlane, 1, ?_, 1, ?_, ?_⟩
    · rw [side]; decide
    · rw [side]; decide
    · rw [onAxis]
      decide +kernel
  · intro other failed
    obtain ⟨offset, member, row, -, col, -, evaluated⟩ := Viewpoint.mem_evaluations.mp failed
    rw [onAxis] at evaluated
    rcases outcomes offset (noOther member) with pole | value
    · exact (Except.error.inj (pole.symm.trans evaluated)).symm
    · rw [evaluated] at value
      cases value

/-- The display of the quotient through its pole warns of it once. -/
theorem ScalarSession.Announces.of_pole
    {viewpoint : Viewpoint Float}
    (announces : Announces (display viewpoint .pole))
    (same : SameView viewpoint .throughPole) :
    (display viewpoint .pole).2 = [{ source := "1/x", error := .divisionByZero }] := by
  have within : viewpoint.offsets ⊆ Viewpoint.throughPole.offsets := by
    rw [Viewpoint.offsets, same.settings]
    exact List.Subset.refl _
  have once := announces.warnings .pole (display_formula viewpoint .pole)
  exact once.of_pole same List.mem_cons_self within

/-- The quotient, whose component points across the plane, beside a constant and a logarithm. -/
def VectorSession.acrossPole : PerAxis (Option Formula) :=
  ⟨some .pole, some ⟨"2", .number ⟨2, 0⟩, none⟩, some ⟨"ln(0)", .call .ln (.number ⟨0, 0⟩), none⟩⟩

theorem VectorSession.Announces.of_pole
    {viewpoint : Viewpoint Float}
    {each : PerAxis (List SamplingWarning)}
    (announces : Announces (display viewpoint acrossPole) each)
    (same : SameView viewpoint .throughPole) :
    (display viewpoint acrossPole).2 =
      [{ source := "1/x", error := .divisionByZero },
        { source := "ln(0)", error := .outsideDomain .ln }] := by
  have shown := display_formulas viewpoint acrossPole
  have offsets :
      ∀ axis,
        viewpoint.componentOffsets axis = Viewpoint.throughPole.componentOffsets axis := by
    intro axis
    simp only [Viewpoint.componentOffsets, Viewpoint.offsets, same.settings, same.plane]
  have side : viewpoint.settings.side = 30 := congrArg SliceSettings.side same.settings
  have inTurn :
      ∀ axis, ∀ formula ∈ (acrossPole.map (Option.map Formula.cleared)).get axis,
        Announced formula.source
          (viewpoint.evaluations formula (Viewpoint.throughPole.componentOffsets axis))
          (each.get axis) := by
    intro axis formula member
    rw [← shown] at member
    have announced := announces.warnings axis formula member
    rwa [display_viewpoint, offsets] at announced
  have quotient : each.x = [{ source := "1/x", error := .divisionByZero }] :=
    (inTurn .x .pole rfl).of_pole same List.mem_cons_self (List.Subset.refl _)
  have constant : each.y = [] := by
    refine (inTurn .y _ rfl).of_none_failed fun fault failed => ?_
    obtain ⟨offset, -, row, -, col, -, evaluated⟩ := Viewpoint.mem_evaluations.mp failed
    cases evaluated
  have logarithm : each.z = [{ source := "ln(0)", error := .outsideDomain .ln }] := by
    refine (inTurn .z _ rfl).of_failed_alike ?_ fun fault failed => ?_
    · refine Viewpoint.mem_evaluations.mpr ⟨0, List.mem_cons_self, 1, ?_, 1, ?_, rfl⟩
      · rw [side]; decide
      · rw [side]; decide
    · obtain ⟨offset, -, row, -, col, -, evaluated⟩ := Viewpoint.mem_evaluations.mp failed
      exact (Except.error.inj evaluated).symm
  rw [announces.ordered, PerAxis.toList, quotient, constant, logarithm]
  rfl

/--
On the plane `x = 0` the quotient `1/x` is warned of, and the constant and the logarithm
that are shown with it as they deserve.  The formula that was shown before is not.
-/
theorem poles_on_the_plane_are_announced :
    let settings : SliceSettings Float := SliceSettings.standard
    let pole : SamplingWarning := { source := "1/x", error := .divisionByZero }
    let outside : SamplingWarning := { source := "ln(0)", error := .outsideDomain .ln }
    (∃ outcome,
      (ScalarSession.after settings [.setFormula "1/0", .definePlane .yz 0]).setFormula "1/x" =
        .ok outcome ∧
      outcome.2 = [pole]) ∧
    (∃ outcome,
      (VectorSession.after settings
          [.setFormula ⟨"1/0", "", ""⟩, .definePlane .yz 0]).setFormulas ⟨"1/x", "2", "ln(0)"⟩ =
        .ok outcome ∧
      outcome.2 = [pole, outside]) := by
  intro settings pole outside
  obtain ⟨scalar, vector, -⟩ := failures_are_announced_once settings
  constructor
  · let history : List (Call String Float) := [.setFormula "1/0", .definePlane .yz 0]
    have view := (ScalarSession.reflects_after settings history).view
    have read : Formula.parse "1/x" = .ok .pole := by rfl
    have shows :
        (ScalarSession.after settings history).setFormula "1/x" =
          .ok (ScalarSession.display (ScalarSession.after settings history).viewpoint .pole) := by
      simp only [ScalarSession.setFormula, read]
    exact ⟨_, shows, ((scalar history).1 _ _ shows).of_pole view⟩
  · let history : List (Call (PerAxis String) Float) :=
      [.setFormula ⟨"1/0", "", ""⟩, .definePlane .yz 0]
    have view := (VectorSession.reflects_after settings history).view
    have accepted : VectorSession.accepts ⟨"1/x", "2", "ln(0)"⟩ = true := by rfl
    have read :
        (PerAxis.mk "1/x" "2" "ln(0)").map VectorSession.componentOf? =
          VectorSession.acrossPole := by
      rfl
    have shows :=
      VectorSession.setFormulas_of_accepts accepted (VectorSession.after settings history)
    rw [read] at shows
    obtain ⟨each, announces⟩ := (vector history).1 _ _ shows
    exact ⟨_, shows, announces.of_pole view⟩

end Pole

end Electrostatics
