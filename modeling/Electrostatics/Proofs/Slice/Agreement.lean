import Electrostatics.Proofs.Formula.Margins
import Electrostatics.Proofs.Slice.Independence
import Electrostatics.Proofs.Slice.ScalarDerivatives
import Electrostatics.Proofs.Slice.Shape
import Electrostatics.Proofs.Slice.VectorDerivatives

namespace Electrostatics

/-!
# Agreement of the two kinds of sessions

A vector field whose only component is a formula along an axis has the derivative of that
formula along the axis for its divergence.  In exact arithmetic the vector session shows
exactly the grid that a scalar session shows as that component of the gradient, at the edges
and where samples fail too.
-/

open scoped Exact

/--
A call on a vector session that does along one axis what another call does on a scalar
session: it asks for the same formula there and for blank ones elsewhere, for the same
number of samples or for the same plane.
-/
inductive Call.Mirrors
    {α : Type}
    (axis : Axis) :
    Call String α →
    Call (PerAxis String) α →
    Prop where
  | setFormula
      {source : String}
      {sources : PerAxis String}
      {formula : Formula} :
      Formula.parse source = .ok formula →
      sources.get axis = source →
      (∀ other, other ≠ axis → IsBlankText (sources.get other).toList) →
      Mirrors axis (.setFormula source) (.setFormula sources)
  | resize (side : Nat) : Mirrors axis (.resize side) (.resize side)
  | definePlane (plane : Plane) (value : α) :
      Mirrors axis (.definePlane plane value) (.definePlane plane value)

theorem Call.Mirrors.isAccepted
    {α : Type}
    {axis : Axis}
    {call : Call String α}
    {vectorCall : Call (PerAxis String) α}
    (mirrors : Call.Mirrors axis call vectorCall) :
    call.isAccepted ScalarSession.accepts = true := by
  cases mirrors with
  | setFormula parsed _ _ => rw [Call.isAccepted, ScalarSession.accepts, parsed]; rfl
  | resize _ => rfl
  | definePlane _ _ => rfl

/-- Formulas of which the one along an axis has the tree of another and the others are blank. -/
def ShownAlong
    (axis : Axis)
    (formula? : Option Formula)
    (formulas : PerAxis (Option Formula)) :
    Prop :=
  ∀ other,
    (formulas.get other).map Formula.tree =
      if other = axis then formula?.map Formula.tree else none

namespace VectorSession

/-- The margins of a component play no part in how it is read. -/
theorem readComponent_of_parse
    {source : String}
    {formula : Formula}
    (parsed : Formula.parse source = .ok formula) :
    readComponent source =
      .ok (some { source := trimmed source, tree := formula.tree, lastError := none }) :=
  readComponent_of_parse_trimmed (Formula.compilesTo_trimmed parsed)

/-- A formula along one axis beside blank components is accepted and shown along the axis. -/
theorem shownAlong_of_parse
    {axis : Axis}
    {sources : PerAxis String}
    {formula : Formula}
    (parsed : Formula.parse (sources.get axis) = .ok formula)
    (blank : ∀ other, other ≠ axis → IsBlankText (sources.get other).toList) :
    accepts sources = true ∧
      ShownAlong axis (some formula) (sources.map componentOf?) := by
  have along := readComponent_of_parse parsed
  have across :
      ∀ other, other ≠ axis → readComponent (sources.get other) = .ok none :=
    fun other differs => readComponent_of_whiteSpace (blank other differs)
  refine ⟨(PerAxis.all_toList sources _).mpr fun other => ?_, fun other => ?_⟩
  · by_cases same : other = axis
    · rw [same, along]
      rfl
    · rw [across other same]
      rfl
  · rw [PerAxis.get_map, componentOf?]
    by_cases same : other = axis
    · rw [if_pos same, same, along]
      rfl
    · rw [if_neg same, across other same]
      rfl

end VectorSession

/-- To forget an error does not change a tree. -/
theorem Formula.map_tree_map_cleared (formula? : Option Formula) :
    (formula?.map cleared).map tree = formula?.map tree := by
  rw [Option.map_map]
  rfl

theorem ShownAlong.cleared
    {axis : Axis}
    {formula? : Option Formula}
    {formulas : PerAxis (Option Formula)}
    (shown : ShownAlong axis formula? formulas) :
    ShownAlong axis (formula?.map Formula.cleared)
      (formulas.map (Option.map Formula.cleared)) := by
  intro other
  rw [PerAxis.get_map, Formula.map_tree_map_cleared, Formula.map_tree_map_cleared]
  exact shown other

section Sessions

variable {α : Type} [Scalar α] [Elementary α]

/-- An accepted request leaves a session with a formula. -/
theorem ScalarSession.exists_formula_after
    {history : List (Call String α)}
    {source : String}
    (settings : SliceSettings α)
    (asked : .setFormula source ∈ history)
    (accepted : accepts source = true) :
    ∃ formula, (after settings history).formula = some formula := by
  have member :
      source ∈ history.filterMap (Call.accepted? accepts) :=
    List.mem_filterMap.mpr ⟨_, asked, if_pos accepted⟩
  cases recent : (Recent.ofCalls accepts history).request with
  | none =>
      rw [Recent.ofCalls, List.getLast?_eq_none_iff] at recent
      rw [recent] at member
      cases member
  | some last =>
      obtain ⟨formula, parsed⟩ := exists_parse_of_accepts (Recent.accepts_of_request recent)
      refine ⟨formula, (reflects_after settings history).formula.trans ?_⟩
      rw [Recent.formula?, recent, Option.bind_some, parsed]
      rfl

/-- A vector session that looks where a scalar session does and shows its formula along an axis. -/
structure VectorSession.Mirrors
    (axis : Axis)
    (scalar : ScalarSession α)
    (vector : VectorSession α) :
    Prop where
  viewpoint : vector.viewpoint = scalar.viewpoint
  formulas : ShownAlong axis scalar.formula vector.formulas

namespace VectorSession.Mirrors

variable
  {axis : Axis}
  {scalar : ScalarSession α}
  {vector : VectorSession α}

omit [Elementary α] in
theorem start (axis : Axis) (settings : SliceSettings α) :
    Mirrors axis (ScalarSession.start settings) (VectorSession.start settings) where
  viewpoint := rfl
  formulas := by
    intro other
    cases other <;> exact (ite_self none).symm

/-- Displays of a formula and of components that show it along an axis. -/
theorem display
    (viewpoint : Viewpoint α)
    {formula : Formula}
    {formulas : PerAxis (Option Formula)}
    (shown : ShownAlong axis (some formula) formulas) :
    Mirrors axis (ScalarSession.display viewpoint formula).1
      (VectorSession.display viewpoint formulas).1 where
  viewpoint := display_viewpoint viewpoint formulas
  formulas := by
    rw [ScalarSession.display_formula, display_formulas]
    exact shown.cleared

/-- Moves to one viewpoint keep what is shown. -/
theorem moveTo
    (mirrors : Mirrors axis scalar vector)
    (viewpoint : Viewpoint α) :
    Mirrors axis (scalar.moveTo viewpoint).1
      (VectorSession.display viewpoint vector.formulas).1 where
  viewpoint := by rw [display_viewpoint, ScalarSession.moveTo_viewpoint]
  formulas := by
    rw [ScalarSession.moveTo_formula, display_formulas]
    exact mirrors.formulas.cleared

/-- Calls that mirror each other keep sessions that mirror each other so. -/
theorem apply
    {call : Call String α}
    {vectorCall : Call (PerAxis String) α}
    (mirrors : Mirrors axis scalar vector)
    (calls : Call.Mirrors axis call vectorCall) :
    Mirrors axis (scalar.apply call) (vector.apply vectorCall) := by
  cases calls with
  | setFormula parsed same blank =>
      subst same
      obtain ⟨accepted, shown⟩ := shownAlong_of_parse parsed blank
      simp only [ScalarSession.apply, ScalarSession.setFormula, parsed, VectorSession.apply,
        setFormulas_of_accepts accepted, mirrors.viewpoint]
      exact display scalar.viewpoint shown
  | resize side =>
      simp only [ScalarSession.apply, ScalarSession.resize, VectorSession.apply,
        VectorSession.resize, mirrors.viewpoint]
      exact mirrors.moveTo _
  | definePlane plane value =>
      simp only [ScalarSession.apply, ScalarSession.definePlane, VectorSession.apply,
        VectorSession.definePlane, mirrors.viewpoint]
      exact mirrors.moveTo _

theorem after
    {history : List (Call String α)}
    {vectorHistory : List (Call (PerAxis String) α)}
    (settings : SliceSettings α)
    (mirrored : List.Forall₂ (Call.Mirrors axis) history vectorHistory) :
    Mirrors axis (ScalarSession.after settings history)
      (VectorSession.after settings vectorHistory) :=
  List.rel_foldl (fun _ _ mirrors _ _ calls => mirrors.apply calls) (start axis settings)
    mirrored

end VectorSession.Mirrors

namespace Viewpoint

variable {first second : Formula}

/-- Samples depend on the tree of a formula only. -/
theorem sample_of_tree
    (viewpoint : Viewpoint α)
    (same : first.tree = second.tree)
    (offset : α) :
    ((viewpoint.sample offset).run first).1 = ((viewpoint.sample offset).run second).1 := by
  have outcomes : viewpoint.outcomes first offset = viewpoint.outcomes second offset := by
    simp only [Viewpoint.outcomes, outcomeAt, Formula.tryEvaluate, same]
  exact congrArg (Grid.map Formula.softened) outcomes

theorem sampleOffPlane_of_tree
    (viewpoint : Viewpoint α)
    (same : first.tree = second.tree) :
    (viewpoint.sampleOffPlane.run first).1 = (viewpoint.sampleOffPlane.run second).1 := by
  simp only [sampleOffPlane_fst, viewpoint.sample_of_tree same]

end Viewpoint

end Sessions

variable {K : Type} [Field K] [LinearOrder K] [FloorRing K]

namespace Grid

theorem columnDifference_zeros (rows cols row col : Nat) (h : K) :
    (zeros rows cols).columnDifference row col h = 0 := by
  simp [columnDifference, get_zeros]

theorem rowDifference_zeros (rows cols row col : Nat) (h : K) :
    (zeros rows cols).rowDifference row col h = 0 := by
  simp [rowDifference, get_zeros]

variable (grid : Grid K) (columnStep rowStep : K)

/-- A field along the columns has the derivative along them for its divergence. -/
theorem divergence_zeros_right (rows cols : Nat) :
    divergence grid (zeros rows cols) columnStep rowStep = grid.alongFirst columnStep := by
  simp [divergence, alongFirst, rowDifference_zeros]

/-- A field along the rows has the derivative along them, which run backwards. -/
theorem divergence_zeros_left :
    divergence (zeros grid.rows grid.cols) grid columnStep rowStep =
      grid.alongSecond rowStep := by
  simp only [divergence, columnDifference_zeros, zero_sub]
  rfl

/-- Nothing in the plane adds nothing to what was built across it. -/
theorem divergence_zeros_add (side : Nat) (across : Nat → Nat → K) :
    (divergence (zeros side side) (zeros side side) columnStep rowStep).add
        (build side side across) =
      build side side across := by
  have added :
      (divergence (zeros side side) (zeros side side) columnStep rowStep).add
          (build side side across) =
        build side side fun row col =>
          (divergence (zeros side side) (zeros side side) columnStep rowStep).get row col +
            (build side side across).get row col := by
    rfl
  rw [added]
  refine build_congr fun row col rowInside colInside => ?_
  have nothing :
      (divergence (zeros side side) (zeros side side) columnStep rowStep).get row col = 0 := by
    refine (get_build _ rowInside colInside).trans ?_
    rw [columnDifference_zeros, rowDifference_zeros, sub_zero]
  rw [nothing, get_build _ rowInside colInside, zero_add]

end Grid

/--
The divergence of a field along one axis is the derivative along that axis: a difference of
columns or of rows, or one off the plane, as the axis lies.
-/
theorem VectorField.divergence_of_single
    [Elementary K]
    {viewpoint : Viewpoint K}
    {value : Grid K}
    {off : Viewpoint.OffPlane K}
    {axis : Axis}
    {sampled : PerAxis (SampledComponent K)}
    (square : value.IsSquare viewpoint.settings.side)
    (along :
      sampled.get axis =
        { on := value
          off := if axis = viewpoint.plane.normalAxis then some off else none })
    (across :
      ∀ other, other ≠ axis →
        sampled.get other =
          { on := Grid.zeros viewpoint.settings.side viewpoint.settings.side, off := none }) :
    (ofSamples viewpoint sampled).divergence =
      (ScalarField.ofSamples viewpoint value off).gradient.get axis := by
  obtain ⟨settings, plane, center⟩ := viewpoint
  obtain ⟨rows, cols⟩ := square
  have apart :
      plane.columnAxis ≠ plane.rowAxis ∧ plane.columnAxis ≠ plane.normalAxis ∧
        plane.rowAxis ≠ plane.normalAxis := by
    cases plane <;> decide
  obtain ⟨columnRow, columnNormal, rowNormal⟩ := apart
  simp only [ofSamples, ScalarField.ofSamples, PerAxis.get_map]
  congr 1
  rcases plane.axis_cases axis with rfl | rfl | rfl
  · rw [along, across _ columnRow.symm, across _ columnNormal.symm,
      Plane.get_place_columnAxis]
    exact value.divergence_zeros_right _ _ _ _
  · rw [along, across _ columnRow, across _ rowNormal.symm, Plane.get_place_rowAxis,
      ← rows]
    have divergence := value.divergence_zeros_left
    rw [rows.trans cols.symm] at divergence ⊢
    exact divergence _ _
  · rw [along, across _ columnNormal, across _ rowNormal, Plane.get_place_normalAxis,
      if_pos rfl]
    exact Grid.divergence_zeros_add _ _ _ _

namespace VectorSession

variable
  [Elementary K]
  {axis : Axis}

/-- The samples of a formula that is shown along one axis. -/
theorem sampled_of_shownAlong
    {formula : Formula}
    {formulas : PerAxis (Option Formula)}
    (viewpoint : Viewpoint K)
    (shown : ShownAlong axis (some formula) formulas) :
    (SampledComponent.ofFormula? viewpoint axis (formulas.get axis)).1 =
        { on := ((viewpoint.sample 0).run formula).1
          off :=
            if axis = viewpoint.plane.normalAxis then
              some (viewpoint.sampleOffPlane.run ((viewpoint.sample 0).run formula).2).1
            else
              none } ∧
      ∀ other, other ≠ axis →
        (SampledComponent.ofFormula? viewpoint other (formulas.get other)).1 =
          { on := Grid.zeros viewpoint.settings.side viewpoint.settings.side, off := none } := by
  constructor
  · have along := shown axis
    rw [if_pos rfl, Option.map_some, Option.map_eq_some_iff] at along
    obtain ⟨component, isShown, sameTree⟩ := along
    have onPlane := viewpoint.sample_of_tree sameTree 0
    have offPlane :
        (viewpoint.sampleOffPlane.run ((viewpoint.sample 0).run component).2).1 =
          (viewpoint.sampleOffPlane.run ((viewpoint.sample 0).run formula).2).1 :=
      viewpoint.sampleOffPlane_of_tree sameTree
    rw [isShown, SampledComponent.ofFormula?_some, onPlane, offPlane]
  · intro other differs
    have across := shown other
    rw [if_neg differs, Option.map_eq_none_iff] at across
    rw [across]
    rfl

/-- The divergence of a formula along an axis is the component of its gradient there. -/
theorem exists_field_of_shownAlong
    {formula : Formula}
    {formulas : PerAxis (Option Formula)}
    (viewpoint : Viewpoint K)
    (shown : ShownAlong axis (some formula) formulas) :
    ∃ field,
      fieldAt viewpoint formulas = some field ∧
      field.divergence = (ScalarSession.fieldAt viewpoint formula).gradient.get axis := by
  obtain ⟨along, across⟩ := sampled_of_shownAlong viewpoint shown
  have notBlank : allBlank formulas = false := by
    refine allBlank_eq_false_iff.mpr ⟨axis, ?_⟩
    have isShown := congrArg Option.isSome (shown axis)
    rwa [if_pos rfl, Option.isSome_map] at isShown
  refine ⟨_, fieldAt_of_shown viewpoint notBlank, ?_⟩
  rw [ScalarSession.fieldAt_eq]
  refine VectorField.divergence_of_single ⟨rfl, rfl⟩ ?_ ?_
  · rw [PerAxis.get_ofFn]
    exact along
  · intro other differs
    rw [PerAxis.get_ofFn]
    exact across other differs

end VectorSession

/--
The two kinds of sessions agree.  Whatever the settings, whatever is called on a scalar
session and done alike along one axis on a vector session, once a formula was asked for both
have a field, and the divergence of the one is the grid that the other has for that component
of its gradient.
-/
theorem divergence_is_the_gradient_along_the_axis
    [Elementary K]
    {settings : SliceSettings K}
    {axis : Axis}
    {history : List (Call String K)}
    {vectorHistory : List (Call (PerAxis String) K)}
    {source : String}
    (mirrored : List.Forall₂ (Call.Mirrors axis) history vectorHistory)
    (asked : .setFormula source ∈ history) :
    ∃ scalarField vectorField,
      (ScalarSession.after settings history).field = some scalarField ∧
      (VectorSession.after settings vectorHistory).field = some vectorField ∧
      vectorField.divergence = scalarField.gradient.get axis := by
  have accepted : ScalarSession.accepts source = true := by
    have all :=
      (List.forall₂_and_left _ _).mp (mirrored.imp fun _ _ calls => ⟨calls.isAccepted, calls⟩)
    exact all.1 _ asked
  obtain ⟨formula, shown⟩ := ScalarSession.exists_formula_after settings asked accepted
  have mirrors := VectorSession.Mirrors.after settings mirrored
  have scalarField := (ScalarSession.reflects_after settings history).field
  have vectorField := (VectorSession.reflects_after settings vectorHistory).field
  have formulas := mirrors.formulas
  rw [shown] at scalarField formulas
  rw [mirrors.viewpoint] at vectorField
  obtain ⟨field, drawn, divergence⟩ :=
    VectorSession.exists_field_of_shownAlong
      (ScalarSession.after settings history).viewpoint formulas
  exact ⟨_, field, scalarField, vectorField.trans drawn, divergence⟩

/--
The quotient `1/y` has no value in the middle column of the plane `x = 0`, and it is written
with blanks, which only the vector session takes off.
-/
theorem divergence_of_a_quotient_is_its_gradient :
    let history : List (Call String ℝ) := [.setFormula " 1/y ", .resize 11, .definePlane .yz 0]
    let vectorHistory : List (Call (PerAxis String) ℝ) :=
      [.setFormula ⟨"", " 1/y ", "\t"⟩, .resize 11, .definePlane .yz 0]
    ∃ scalarField vectorField,
      (ScalarSession.after SliceSettings.standard history).field = some scalarField ∧
      (VectorSession.after SliceSettings.standard vectorHistory).field = some vectorField ∧
      vectorField.divergence = scalarField.gradient.y := by
  intro history vectorHistory
  let tree : Expr := .operation .div (.number ⟨1, 0⟩) (.coordinate .y)
  have read : Formula.parse " 1/y " = .ok ⟨" 1/y ", tree, none⟩ := by rfl
  have blank :
      ∀ other, other ≠ .y → IsBlankText ((PerAxis.mk "" " 1/y " "\t").get other).toList := by
    intro other differs
    refine List.all_eq_true.mp ?_
    cases other with
    | x => rfl
    | y => exact absurd rfl differs
    | z => rfl
  have mirrored : List.Forall₂ (Call.Mirrors .y) history vectorHistory :=
    .cons (.setFormula read rfl blank) (.cons (.resize 11) (.cons (.definePlane .yz 0) .nil))
  exact divergence_is_the_gradient_along_the_axis mirrored List.mem_cons_self

end Electrostatics
