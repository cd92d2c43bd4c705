import Electrostatics.Proofs.Slice.History

namespace Electrostatics

/-!
# Sessions on a scalar field

A session shows what it would show had it only received its recent calls.  Its grids are
always those of its current formula at its current viewpoint, so nothing of an earlier
slice is left in them, and no call that fails leaves a trace.
-/

variable {α : Type}

/-- The formula of the recent request. -/
def Recent.formula? (recent : Recent String α) : Option Formula :=
  recent.request.bind (fun source => (Formula.parse source).toOption)

/-- A formula that was just read remembers no error. -/
theorem Recent.cleared_of_formula?
    {recent : Recent String α}
    {formula : Formula}
    (shown : recent.formula? = some formula) :
    formula.cleared = formula := by
  obtain ⟨source, _, read⟩ := Option.bind_eq_some_iff.mp shown
  cases parsed : Formula.parse source with
  | error fault => simp [parsed, Except.toOption] at read
  | ok other =>
      simp only [parsed, Except.toOption, Option.some.injEq] at read
      subst read
      exact Formula.cleared_of_parse parsed

variable [Scalar α]

namespace ScalarSession

variable [Elementary α]

/-- Whether a formula is accepted. -/
def accepts (source : String) : Bool :=
  (Formula.parse source).isOk

/-- The session after a call; one that fails leaves it as it is. -/
def apply (session : ScalarSession α) : Call String α → ScalarSession α
  | .setFormula source =>
      match session.setFormula source with
      | .ok shown => shown.1
      | .error _ => session
  | .resize side => (session.resize side).1
  | .definePlane plane value => (session.definePlane plane value).1

/-- A fresh session after a history of calls. -/
def after
    (settings : SliceSettings α)
    (history : List (Call String α)) :
    ScalarSession α :=
  history.foldl apply (start settings)

/-- Two sessions that cannot be told apart by reading them. -/
structure Agrees (first second : ScalarSession α) : Prop where
  field : first.field = second.field
  formula : first.formula = second.formula
  settings : first.viewpoint.settings = second.viewpoint.settings
  plane : first.viewpoint.plane = second.viewpoint.plane
  probe : ∀ row col, first.probe row col = second.probe row col

/-- The field of a formula at a viewpoint. -/
def fieldAt
    (viewpoint : Viewpoint α)
    (formula : Formula) :
    ScalarField α :=
  ((ScalarField.sample viewpoint).run formula).1

/--
A session shows what is recent: it looks where it was last told to, its formula is the
recent one, and its field is that of its formula where it looks now.
-/
structure Reflects
    (settings : SliceSettings α)
    (recent : Recent String α)
    (session : ScalarSession α) :
    Prop where
  view : SameView session.viewpoint (recent.viewpoint settings)
  formula : session.formula = recent.formula?
  field : session.field = session.formula.map (fieldAt session.viewpoint)

variable
  {settings : SliceSettings α}
  {recent : Recent String α}
  {session : ScalarSession α}
  {viewpoint : Viewpoint α}
  {formula : Formula}

/-- A display takes the error of its sampling out of the formula. -/
theorem display_formula
    (viewpoint : Viewpoint α)
    (formula : Formula) :
    (display viewpoint formula).1.formula = some formula.cleared := by
  have kept := KeepsFormula.scalarField viewpoint formula
  rw [← Formula.reportError_snd] at kept
  exact congrArg some kept

theorem moveTo_viewpoint
    (session : ScalarSession α)
    (viewpoint : Viewpoint α) :
    (session.moveTo viewpoint).1.viewpoint = viewpoint := by
  unfold moveTo
  split <;> rfl

/-- A move takes the error of its sampling out of the formula, if there is one. -/
theorem moveTo_formula
    (session : ScalarSession α)
    (viewpoint : Viewpoint α) :
    (session.moveTo viewpoint).1.formula = session.formula.map Formula.cleared := by
  unfold moveTo
  split
  case h_1 blank => rw [blank]; rfl
  case h_2 formula shown => rw [display_formula, shown]; rfl

theorem reflects_display
    (view : SameView viewpoint (recent.viewpoint settings))
    (shown : recent.formula? = some formula) :
    Reflects settings recent (display viewpoint formula).1 := by
  have displayed := display_formula viewpoint formula
  rw [Recent.cleared_of_formula? shown] at displayed
  exact {
    view := view
    formula := displayed.trans shown.symm
    field := by rw [displayed]; rfl
  }

/-- A move keeps the formula and samples it anew. -/
theorem Reflects.moveTo
    {next : Recent String α}
    (reflects : Reflects settings recent session)
    (view : SameView viewpoint (next.viewpoint settings))
    (sameRequest : next.request = recent.request) :
    Reflects settings next (session.moveTo viewpoint).1 := by
  have sameFormula : next.formula? = recent.formula? := by
    rw [Recent.formula?, sameRequest]
    rfl
  have shown := reflects.formula.trans sameFormula.symm
  have field := reflects.field
  obtain ⟨earlier, formula, shownField⟩ := session
  cases formula with
  | none => exact { view := view, formula := shown, field := field }
  | some formula => exact reflects_display view shown.symm

theorem exists_parse_of_accepts
    {source : String}
    (accepted : accepts source = true) :
    ∃ formula, Formula.parse source = .ok formula := by
  unfold accepts at accepted
  cases parsed : Formula.parse source with
  | error fault => rw [parsed] at accepted; cases accepted
  | ok formula => exact ⟨formula, rfl⟩

theorem apply_rejected
    (session : ScalarSession α)
    (call : Call String α)
    (rejected : call.isAccepted accepts = false) :
    session.apply call = session := by
  cases call with
  | setFormula source =>
      cases parsed : Formula.parse source with
      | error fault => simp only [apply, setFormula, parsed]
      | ok formula =>
          rw [Call.isAccepted, accepts, parsed] at rejected
          cases rejected
  | resize _ => cases rejected
  | definePlane _ _ => cases rejected

/-- Every call keeps a session at what is then recent. -/
theorem Reflects.apply
    (reflects : Reflects settings recent session)
    (call : Call String α) :
    Reflects settings (recent.record accepts call) (session.apply call) := by
  by_cases accepted : call.isAccepted accepts = true
  · cases call with
    | setFormula source =>
        obtain ⟨formula, parsed⟩ := exists_parse_of_accepts accepted
        have view := reflects.view.record_setFormula accepts source
        have shown :
            (recent.record accepts (.setFormula source)).formula? = some formula := by
          rw [Call.isAccepted] at accepted
          simp [Recent.record, accepted, Recent.formula?, parsed, Except.toOption]
        simpa [ScalarSession.apply, ScalarSession.setFormula, parsed] using
          reflects_display view shown
    | resize side => exact reflects.moveTo (reflects.view.record_resize accepts side) rfl
    | definePlane plane value =>
        exact reflects.moveTo (reflects.view.record_definePlane accepts plane value) rfl
  · rw [Bool.not_eq_true] at accepted
    rw [Recent.record_of_rejected accepted, apply_rejected session call accepted]
    exact reflects

/-- After every history a session reflects what is recent in it. -/
theorem reflects_after
    (settings : SliceSettings α)
    (history : List (Call String α)) :
    Reflects settings (Recent.ofCalls accepts history) (after settings history) :=
  Recent.reflected_by_run
    ⟨SameView.refl _, rfl, rfl⟩
    (fun _ _ call reflects => reflects.apply call)
    history

/-- What is recent determines all that can be read from a session. -/
theorem Reflects.agrees
    {first second : ScalarSession α}
    (firstReflects : Reflects settings recent first)
    (secondReflects : Reflects settings recent second) :
    Agrees first second := by
  have same := firstReflects.view.trans secondReflects.view.symm
  have formula := firstReflects.formula.trans secondReflects.formula.symm
  have field : first.field = second.field := by
    have sameField : fieldAt first.viewpoint = fieldAt second.viewpoint := by
      funext formula
      rw [fieldAt, same.scalarField_eq]
      rfl
    rw [firstReflects.field, secondReflects.field, formula, sameField]
  refine ⟨field, formula, same.settings, same.plane, fun row col => ?_⟩
  simp only [probe, field, same.worldPoint_eq]

end ScalarSession

end Electrostatics
