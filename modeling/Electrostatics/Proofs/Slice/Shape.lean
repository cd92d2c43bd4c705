import Electrostatics.Proofs.Slice.ScalarSessions
import Electrostatics.Proofs.Slice.VectorSessions

namespace Electrostatics

/-!
# The shape of what a session shows

However a session is used, the number of samples along a side of its slice stays between the
two bounds, all grids of its field have that many rows and columns, and there is a field
exactly when there is something to show.
-/

variable {α : Type}

/-- A grid with as many rows and as many columns as a slice has samples along a side. -/
structure Grid.IsSquare (grid : Grid α) (side : Nat) : Prop where
  rows : grid.rows = side
  cols : grid.cols = side

namespace Grid.IsSquare

variable {grid : Grid α} {side : Nat}

/-- A grid that is built in the size of another one has its shape. -/
theorem build
    {β : Type}
    (square : grid.IsSquare side)
    (value : Nat → Nat → β) :
    (Grid.build grid.rows grid.cols value).IsSquare side :=
  ⟨square.rows, square.cols⟩

theorem map
    {β : Type}
    (square : grid.IsSquare side)
    (change : α → β) :
    (grid.map change).IsSquare side :=
  ⟨square.rows, square.cols⟩

theorem gradient
    [Scalar α]
    (square : grid.IsSquare side)
    (columnStep rowStep : α) :
    (grid.gradient columnStep rowStep).1.IsSquare side ∧
      (grid.gradient columnStep rowStep).2.IsSquare side :=
  ⟨⟨square.rows, square.cols⟩, ⟨square.rows, square.cols⟩⟩

theorem flatten
    [Scalar α]
    (square : grid.IsSquare side)
    (epsilon : α) :
    (grid.flatten epsilon).IsSquare side := by
  unfold Grid.flatten
  split
  · exact square.map _
  · exact square

end Grid.IsSquare

/-- What holds of all values that are put at the axes of a plane holds at every axis. -/
theorem Plane.forall_get_place
    (plane : Plane)
    (holds : α → Prop)
    {column row normal : α}
    (atColumn : holds column)
    (atRow : holds row)
    (atNormal : holds normal)
    (axis : Axis) :
    holds ((plane.place column row normal).get axis) := by
  simp only [Plane.place, PerAxis.get_ofFn]
  split
  · exact atColumn
  · split
    · exact atRow
    · exact atNormal

/-- No axis of space is left out by a plane, and none is used twice. -/
theorem Plane.axes_perm (plane : Plane) :
    [plane.columnAxis, plane.rowAxis, plane.normalAxis].Perm [.x, .y, .z] := by
  cases plane <;> decide

/-- A viewpoint whose number of samples lies between the bounds, so that there are steps. -/
structure Viewpoint.InRange (viewpoint : Viewpoint α) : Prop where
  least : 10 ≤ viewpoint.settings.side
  greatest : viewpoint.settings.side ≤ 80
  /-- The steps along a side are one fewer than the samples, and no difference is cut off. -/
  steps : viewpoint.settings.side - 1 + 1 = viewpoint.settings.side

/-- The number of samples that stands for a requested one is in range. -/
theorem Viewpoint.inRange_of_clampSide
    {viewpoint : Viewpoint α}
    {side : Nat}
    (clamped : viewpoint.settings.side = clampSide side) :
    viewpoint.InRange := by
  simp only [clampSide, leastSide, greatestSide] at clamped
  exact ⟨by omega, by omega, by omega⟩

/-- All grids of a scalar field have a number of rows and columns. -/
structure ScalarField.Fills (field : ScalarField α) (side : Nat) : Prop where
  value : field.value.IsSquare side
  gradient : ∀ axis, (field.gradient.get axis).IsSquare side
  magnitude : field.magnitude.IsSquare side
  laplacian : field.laplacian.IsSquare side

/-- All grids of a vector field have a number of rows and columns. -/
structure VectorField.Fills (field : VectorField α) (side : Nat) : Prop where
  components : ∀ axis, (field.components.get axis).IsSquare side
  divergence : field.divergence.IsSquare side
  curl : ∀ axis, (field.curl.get axis).IsSquare side

variable [Scalar α]

/-- The length of a vector has the shape of its first component. -/
theorem vectorLength_isSquare
    [Elementary α]
    {components : PerAxis (Grid α)}
    {side : Nat}
    (square : components.x.IsSquare side) :
    (vectorLength components).IsSquare side :=
  ⟨square.rows, square.cols⟩

/-- What is derived from samples over a whole slice fills the slice. -/
theorem ScalarField.ofSamples_fills
    [Elementary α]
    {viewpoint : Viewpoint α}
    {value : Grid α}
    (square : value.IsSquare viewpoint.settings.side)
    (off : Viewpoint.OffPlane α) :
    (ofSamples viewpoint value off).Fills viewpoint.settings.side := by
  have inPlane := square.gradient viewpoint.columnStep viewpoint.rowStep
  have across :
      (normalDerivative viewpoint.settings.side off viewpoint.settings.normalStep).IsSquare
        viewpoint.settings.side :=
    ⟨rfl, rfl⟩
  have slopes :
      ∀ axis,
        ((ofSamples viewpoint value off).gradient.get axis).IsSquare
          viewpoint.settings.side := by
    intro axis
    simp only [ofSamples, PerAxis.get_map]
    refine Grid.IsSquare.flatten ?_ _
    exact viewpoint.plane.forall_get_place (Grid.IsSquare · viewpoint.settings.side)
      inPlane.1 inPlane.2 across axis
  exact {
    value := square
    gradient := slopes
    magnitude := vectorLength_isSquare (slopes .x)
    laplacian := by
      refine Grid.IsSquare.flatten ?_ _
      exact ⟨rfl, rfl⟩
  }

theorem VectorField.ofSamples_fills
    {viewpoint : Viewpoint α}
    {sampled : PerAxis (SampledComponent α)}
    (square : ∀ axis, (sampled.get axis).on.IsSquare viewpoint.settings.side) :
    (ofSamples viewpoint sampled).Fills viewpoint.settings.side := by
  have first := square viewpoint.plane.columnAxis
  refine { components := fun axis => ?_, divergence := ?_, curl := fun axis => ?_ }
  · simp only [ofSamples, PerAxis.get_map]
    exact square axis
  · refine Grid.IsSquare.flatten ?_ _
    split
    · exact first.build _
    · exact ⟨first.rows, first.cols⟩
  · simp only [ofSamples, PerAxis.get_map]
    refine Grid.IsSquare.flatten ?_ _
    exact viewpoint.plane.forall_get_place (Grid.IsSquare · viewpoint.settings.side)
      (first.build _) (first.build _) (first.build _) axis

variable [Elementary α]

/-- A component covers the slice, whether it is sampled or blank. -/
theorem SampledComponent.ofFormula?_isSquare
    (viewpoint : Viewpoint α)
    (axis : Axis)
    (formula? : Option Formula) :
    (ofFormula? viewpoint axis formula?).1.on.IsSquare viewpoint.settings.side := by
  cases formula? with
  | none => exact ⟨rfl, rfl⟩
  | some formula =>
      by_cases across : axis = viewpoint.plane.normalAxis
      · simp only [ofFormula?, SampledComponent.sample, if_pos across]
        exact ⟨rfl, rfl⟩
      · simp only [ofFormula?, SampledComponent.sample, if_neg across]
        exact ⟨rfl, rfl⟩

namespace ScalarSession

/--
A session in shape: its slice has a number of samples in range, its field fills the slice,
and there is a field exactly when there is a formula.
-/
structure InShape (session : ScalarSession α) : Prop where
  range : session.viewpoint.InRange
  fills : ∀ field ∈ session.field, field.Fills session.viewpoint.settings.side
  shown : session.field.isSome = session.formula.isSome

omit [Elementary α] in
theorem inShape_start (settings : SliceSettings α) : (start settings).InShape where
  range := Viewpoint.inRange_of_clampSide rfl
  fills := nofun
  shown := rfl

theorem inShape_display
    {viewpoint : Viewpoint α}
    (range : viewpoint.InRange)
    (formula : Formula) :
    (display viewpoint formula).1.InShape where
  range := range
  fills := by
    rintro field ⟨rfl⟩
    exact ScalarField.ofSamples_fills ⟨rfl, rfl⟩ _
  shown := rfl

/-- A session without a formula has no field that could be left from another slice. -/
theorem InShape.moveTo
    {session : ScalarSession α}
    {viewpoint : Viewpoint α}
    (inShape : session.InShape)
    (range : viewpoint.InRange) :
    (session.moveTo viewpoint).1.InShape := by
  obtain ⟨earlier, formula, field⟩ := session
  cases formula with
  | some formula => exact inShape_display range formula
  | none =>
      have noField : field = none := by simpa using inShape.shown
      subst noField
      exact { range := range, fills := nofun, shown := rfl }

/-- Every call keeps a session in shape. -/
theorem InShape.apply
    {session : ScalarSession α}
    (inShape : session.InShape)
    (call : Call String α) :
    (session.apply call).InShape := by
  cases call with
  | setFormula source =>
      cases parsed : Formula.parse source with
      | error fault =>
          simp only [ScalarSession.apply, setFormula, parsed]
          exact inShape
      | ok formula =>
          simp only [ScalarSession.apply, setFormula, parsed]
          exact inShape_display inShape.range formula
  | resize side => exact inShape.moveTo (Viewpoint.inRange_of_clampSide rfl)
  | definePlane plane value =>
      obtain ⟨least, greatest, steps⟩ := inShape.range
      exact inShape.moveTo ⟨least, greatest, steps⟩

theorem inShape_after
    (settings : SliceSettings α)
    (history : List (Call String α)) :
    (after settings history).InShape :=
  List.foldlRecOn history ScalarSession.apply (inShape_start settings)
    fun _ inShape call _ => inShape.apply call

/-- A session reports the number of samples that stands for the requested one. -/
theorem resize_side
    (session : ScalarSession α)
    (side : Nat) :
    (session.resize side).1.viewpoint.settings.side = max 10 (min 80 side) := by
  rw [resize, moveTo_viewpoint]
  rfl

end ScalarSession

namespace VectorSession

/--
A session in shape: its slice has a number of samples in range, its field fills the slice,
and there is a field exactly when a component has a formula.
-/
structure InShape (session : VectorSession α) : Prop where
  range : session.viewpoint.InRange
  fills : ∀ field ∈ session.field, field.Fills session.viewpoint.settings.side
  shown : session.field.isSome = true ↔ ∃ axis, (session.formulas.get axis).isSome = true

theorem allBlank_eq_false_iff {formulas : PerAxis (Option Formula)} :
    allBlank formulas = false ↔ ∃ axis, (formulas.get axis).isSome = true := by
  rw [← Bool.not_eq_true, allBlank, PerAxis.all_toList, not_forall]
  simp only [Bool.not_eq_true, Option.isNone_eq_false_iff]

omit [Elementary α] in
theorem inShape_start (settings : SliceSettings α) : (start settings).InShape where
  range := Viewpoint.inRange_of_clampSide rfl
  fills := nofun
  shown := ⟨nofun, fun ⟨axis, shown⟩ => by cases axis <;> cases shown⟩

/-- A display has a field exactly where some component is shown. -/
theorem isSome_field_display
    (viewpoint : Viewpoint α)
    (formulas : PerAxis (Option Formula)) :
    (display viewpoint formulas).1.field.isSome = !allBlank formulas := by
  unfold display
  split
  case isTrue isBlank => simp [isBlank]
  case isFalse notBlank => simp [notBlank]

theorem inShape_display
    {viewpoint : Viewpoint α}
    (range : viewpoint.InRange)
    (formulas : PerAxis (Option Formula)) :
    (display viewpoint formulas).1.InShape where
  range := by
    rw [display_viewpoint]
    exact range
  fills := by
    unfold display
    split
    · exact nofun
    · rintro field ⟨rfl⟩
      refine VectorField.ofSamples_fills fun axis => ?_
      simp only [PerAxis.get_map, PerAxis.get_ofFn]
      exact SampledComponent.ofFormula?_isSquare viewpoint axis (formulas.get axis)
  shown := by
    simp only [isSome_field_display, Bool.not_eq_true', allBlank_eq_false_iff,
      display_formulas, PerAxis.get_map, Option.isSome_map]

/-- Every call keeps a session in shape. -/
theorem InShape.apply
    {session : VectorSession α}
    (inShape : session.InShape)
    (call : Call (PerAxis String) α) :
    (session.apply call).InShape := by
  cases call with
  | setFormula sources =>
      by_cases accepted : accepts sources = true
      · rw [VectorSession.apply, setFormulas_of_accepts accepted]
        exact inShape_display inShape.range _
      · rw [apply_rejected session _ (by simpa [Call.isAccepted] using accepted)]
        exact inShape
  | resize side => exact inShape_display (Viewpoint.inRange_of_clampSide rfl) session.formulas
  | definePlane plane value =>
      obtain ⟨least, greatest, steps⟩ := inShape.range
      have range : (session.viewpoint.definePlane plane value).InRange :=
        ⟨least, greatest, steps⟩
      exact inShape_display range session.formulas

theorem inShape_after
    (settings : SliceSettings α)
    (history : List (Call (PerAxis String) α)) :
    (after settings history).InShape :=
  List.foldlRecOn history VectorSession.apply (inShape_start settings)
    fun _ inShape call _ => inShape.apply call

theorem resize_side
    (session : VectorSession α)
    (side : Nat) :
    (session.resize side).1.viewpoint.settings.side = max 10 (min 80 side) := by
  rw [resize, display_viewpoint]
  rfl

end VectorSession

/--
Sessions keep their shape.  Whatever settings a session of either kind starts from and
whatever is called, afterwards its slice has between ten and eighty samples along a side,
all grids of its field have that many rows and columns, and it has a field exactly when it
has a formula.  A resizing ends with the number of samples that was asked for, held within
the bounds.  A plane gives every axis of space one of its three grids.
-/
theorem sessions_keep_their_shape (settings : SliceSettings α) :
    (∀ plane : Plane,
      [plane.columnAxis, plane.rowAxis, plane.normalAxis].Perm [.x, .y, .z]) ∧
    (∀ history : List (Call String α),
      (ScalarSession.after settings history).InShape ∧
        ∀ side,
          ((ScalarSession.after settings history).resize side).1.viewpoint.settings.side =
            max 10 (min 80 side)) ∧
    (∀ history : List (Call (PerAxis String) α),
      (VectorSession.after settings history).InShape ∧
        ∀ side,
          ((VectorSession.after settings history).resize side).1.viewpoint.settings.side =
            max 10 (min 80 side)) := by
  refine ⟨Plane.axes_perm, fun history => ⟨?_, ?_⟩, fun history => ⟨?_, ?_⟩⟩
  · exact ScalarSession.inShape_after settings history
  · exact (ScalarSession.after settings history).resize_side
  · exact VectorSession.inShape_after settings history
  · exact (VectorSession.after settings history).resize_side

end Electrostatics
