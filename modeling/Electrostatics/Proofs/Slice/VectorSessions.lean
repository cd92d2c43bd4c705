import Electrostatics.Proofs.Slice.History

namespace Electrostatics

/-!
# Sessions on a vector field

As for a scalar field, a session shows what it would show had it only received its
recent calls.  A call names three formulas at once and is accepted if each of them can be
read; a session whose formulas are all blank shows nothing.
-/

variable {α : Type}

namespace VectorSession

/-- Whether the formulas of all components are accepted. -/
def accepts (sources : PerAxis String) : Bool :=
  sources.toList.all (fun source => (readComponent source).isOk)

/-- The formula of a component that is accepted; a blank one has none. -/
def componentOf? (source : String) : Option Formula :=
  (readComponent source).toOption.join

theorem cleared_of_componentOf?
    {source : String}
    {formula : Formula}
    (shown : componentOf? source = some formula) :
    formula.cleared = formula := by
  have read : readComponent source = .ok (some formula) := by
    unfold componentOf? at shown
    cases reading : readComponent source with
    | error fault => simp [reading, Except.toOption] at shown
    | ok formula? =>
        simp only [reading, Except.toOption, Option.join_some] at shown
        rw [shown]
  unfold readComponent at read
  simp only at read
  split at read
  case isTrue => cases read
  case isFalse =>
    split at read
    case h_1 => cases read
    case h_2 parsed =>
      cases read
      exact Formula.cleared_of_parse parsed

end VectorSession

/-- The formulas of the recent request; before the first one all are blank. -/
def Recent.formulas (recent : Recent (PerAxis String) α) : PerAxis (Option Formula) :=
  recent.request.elim { x := none, y := none, z := none }
    (fun sources => sources.map VectorSession.componentOf?)

/-- Formulas that were just read remember no error. -/
theorem Recent.formulas_cleared (recent : Recent (PerAxis String) α) :
    recent.formulas.map (Option.map Formula.cleared) = recent.formulas := by
  refine PerAxis.ext_get (fun axis => ?_)
  rw [PerAxis.get_map]
  cases shown : recent.formulas.get axis with
  | none => rfl
  | some formula =>
      unfold Recent.formulas at shown
      cases request : recent.request with
      | none =>
          rw [request] at shown
          cases axis <;> cases shown
      | some sources =>
          rw [request] at shown
          simp only [Option.elim_some, PerAxis.get_map] at shown
          rw [Option.map_some, VectorSession.cleared_of_componentOf? shown]

variable [Scalar α]

namespace VectorSession

variable [Elementary α]

/-- The session after a call; one that fails leaves it as it is. -/
def apply (session : VectorSession α) : Call (PerAxis String) α → VectorSession α
  | .setFormula sources =>
      match session.setFormulas sources with
      | .ok shown => shown.1
      | .error _ => session
  | .resize side => (session.resize side).1
  | .definePlane plane value => (session.definePlane plane value).1

/-- A fresh session after a history of calls. -/
def after
    (settings : SliceSettings α)
    (history : List (Call (PerAxis String) α)) :
    VectorSession α :=
  history.foldl apply (start settings)

/-- Two sessions that cannot be told apart by reading them. -/
structure Agrees (first second : VectorSession α) : Prop where
  field : first.field = second.field
  formulas : first.formulas = second.formulas
  settings : first.viewpoint.settings = second.viewpoint.settings
  plane : first.viewpoint.plane = second.viewpoint.plane

/-- The field of formulas at a viewpoint; there is none if all are blank. -/
def fieldAt
    (viewpoint : Viewpoint α)
    (formulas : PerAxis (Option Formula)) :
    Option (VectorField α) :=
  (display viewpoint formulas).1.field

/--
A session shows what is recent: it looks where it was last told to, its formulas are the
recent ones, and its field is that of its formulas where it looks now.
-/
structure Reflects
    (settings : SliceSettings α)
    (recent : Recent (PerAxis String) α)
    (session : VectorSession α) :
    Prop where
  view : SameView session.viewpoint (recent.viewpoint settings)
  formulas : session.formulas = recent.formulas
  field : session.field = fieldAt session.viewpoint session.formulas

variable
  {settings : SliceSettings α}
  {recent : Recent (PerAxis String) α}
  {session : VectorSession α}
  {viewpoint : Viewpoint α}
  {formulas : PerAxis (Option Formula)}

/-- Where a component has a formula, the field is made of the samples of the components. -/
theorem fieldAt_of_shown
    {formulas : PerAxis (Option Formula)}
    (viewpoint : Viewpoint α)
    (shown : allBlank formulas = false) :
    fieldAt viewpoint formulas =
      some (VectorField.ofSamples viewpoint (PerAxis.ofFn fun axis =>
        (SampledComponent.ofFormula? viewpoint axis (formulas.get axis)).1)) := by
  simp only [fieldAt, display, shown, Bool.false_eq_true, if_false]
  rfl

theorem display_viewpoint
    (viewpoint : Viewpoint α)
    (formulas : PerAxis (Option Formula)) :
    (display viewpoint formulas).1.viewpoint = viewpoint := by
  unfold display
  split <;> rfl

theorem ofFormula?_formula
    (viewpoint : Viewpoint α)
    (axis : Axis)
    (formula? : Option Formula) :
    (SampledComponent.ofFormula? viewpoint axis formula?).2.2 =
      formula?.map Formula.cleared := by
  cases formula? with
  | none => rfl
  | some formula =>
      have kept := KeepsFormula.component viewpoint axis formula
      rw [← Formula.reportError_snd] at kept
      exact congrArg some kept

/-- A display takes the errors of its sampling out of the formulas. -/
theorem display_formulas
    (viewpoint : Viewpoint α)
    (formulas : PerAxis (Option Formula)) :
    (display viewpoint formulas).1.formulas = formulas.map (Option.map Formula.cleared) := by
  refine PerAxis.ext_get (fun axis => ?_)
  unfold display
  split
  case isTrue isBlank =>
    have blank := (PerAxis.all_toList formulas _).mp isBlank axis
    rw [Option.isNone_iff_eq_none] at blank
    simp [blank]
  case isFalse => simp only [PerAxis.get_map, PerAxis.get_ofFn, ofFormula?_formula]

theorem reflects_display
    (view : SameView viewpoint (recent.viewpoint settings)) :
    Reflects settings recent (display viewpoint recent.formulas).1 := by
  have displayed := display_formulas viewpoint recent.formulas
  rw [recent.formulas_cleared] at displayed
  exact {
    view := by rw [display_viewpoint]; exact view
    formulas := displayed
    field := by rw [displayed, display_viewpoint]; rfl
  }

/-- Formulas are accepted together and are then displayed. -/
theorem setFormulas_of_accepts
    {sources : PerAxis String}
    (accepted : accepts sources = true)
    (session : VectorSession α) :
    session.setFormulas sources =
      .ok (display session.viewpoint (sources.map componentOf?)) := by
  have each := (PerAxis.all_toList sources _).mp accepted
  have read :
      ∀ axis, readComponent (sources.get axis) = .ok (componentOf? (sources.get axis)) := by
    intro axis
    have isOk := each axis
    unfold componentOf?
    cases reading : readComponent (sources.get axis) with
    | error fault => rw [reading] at isOk; cases isOk
    | ok formula? => simp [Except.toOption]
  have x := read .x
  have y := read .y
  have z := read .z
  simp only [PerAxis.get] at x y z
  simp only [setFormulas, x, y, z]
  rfl

/-- One formula that cannot be read is enough for a request to fail. -/
theorem setFormulas_of_rejects
    {sources : PerAxis String}
    (rejected : accepts sources = false)
    (session : VectorSession α) :
    ∃ fault, session.setFormulas sources = .error fault := by
  unfold setFormulas
  unfold accepts PerAxis.toList at rejected
  cases x : readComponent sources.x with
  | error fault => exact ⟨fault, rfl⟩
  | ok first =>
      cases y : readComponent sources.y with
      | error fault => exact ⟨fault, rfl⟩
      | ok second =>
          cases z : readComponent sources.z with
          | error fault => exact ⟨fault, rfl⟩
          | ok third => simp [x, y, z, Except.isOk, Except.toBool] at rejected

theorem apply_rejected
    (session : VectorSession α)
    (call : Call (PerAxis String) α)
    (rejected : call.isAccepted accepts = false) :
    session.apply call = session := by
  cases call with
  | setFormula sources =>
      obtain ⟨fault, failed⟩ := setFormulas_of_rejects rejected session
      simp only [apply, failed]
  | resize _ => cases rejected
  | definePlane _ _ => cases rejected

/-- Every call keeps a session at what is then recent. -/
theorem Reflects.apply
    (reflects : Reflects settings recent session)
    (call : Call (PerAxis String) α) :
    Reflects settings (recent.record accepts call) (session.apply call) := by
  by_cases accepted : call.isAccepted accepts = true
  · cases call with
    | setFormula sources =>
        have view := reflects.view.record_setFormula accepts sources
        have shown :
            (recent.record accepts (.setFormula sources)).formulas =
              sources.map componentOf? := by
          rw [Call.isAccepted] at accepted
          simp [Recent.record, accepted, Recent.formulas]
        rw [VectorSession.apply, setFormulas_of_accepts accepted, ← shown]
        exact reflects_display view
    | resize side =>
        have view := reflects.view.record_resize accepts side
        simp only [VectorSession.apply, VectorSession.resize, reflects.formulas]
        exact reflects_display view
    | definePlane plane value =>
        have view := reflects.view.record_definePlane accepts plane value
        simp only [VectorSession.apply, VectorSession.definePlane, reflects.formulas]
        exact reflects_display view
  · rw [Bool.not_eq_true] at accepted
    rw [Recent.record_of_rejected accepted, apply_rejected session call accepted]
    exact reflects

/-- After every history a session reflects what is recent in it. -/
theorem reflects_after
    (settings : SliceSettings α)
    (history : List (Call (PerAxis String) α)) :
    Reflects settings (Recent.ofCalls accepts history) (after settings history) :=
  Recent.reflected_by_run
    ⟨SameView.refl _, rfl, rfl⟩
    (fun _ _ call reflects => reflects.apply call)
    history

/-- What is recent determines all that can be read from a session. -/
theorem Reflects.agrees
    {first second : VectorSession α}
    (firstReflects : Reflects settings recent first)
    (secondReflects : Reflects settings recent second) :
    Agrees first second := by
  have same := firstReflects.view.trans secondReflects.view.symm
  have formulas := firstReflects.formulas.trans secondReflects.formulas.symm
  have field : first.field = second.field := by
    rw [firstReflects.field, secondReflects.field, formulas]
    unfold fieldAt display
    rw [same.component_eq, same.vectorField_eq]
    split <;> rfl
  exact ⟨field, formulas, same.settings, same.plane⟩

end VectorSession

end Electrostatics
