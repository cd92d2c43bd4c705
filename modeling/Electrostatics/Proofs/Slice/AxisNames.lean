import Electrostatics.Number.Double
import Electrostatics.Proofs.Number.Analysis
import Electrostatics.Proofs.Slice.Independence
import Electrostatics.Proofs.Slice.Rotation

namespace Electrostatics

/-!
# Names of the axes

What a session shows does not depend on how the axes are named.  With formulas in Cartesian
coordinates, a session whose settings, formulas and planes all have the axes renamed shows
the same grids, those that belong to an axis at the next one.
-/

open scoped Scalar

/-- The call with the axes renamed. -/
def Call.rotated
    {Request α : Type}
    (rename : Request → Request) :
    Call Request α →
    Call Request α
  | .setFormula request => .setFormula (rename request)
  | .resize side => .resize side
  | .definePlane plane value => .definePlane plane.next value

/-- What each call and the renamed one keep in common, a history and the renamed one keep. -/
theorem Call.foldl_rotated
    {Session Request α : Type}
    {apply : Session → Call Request α → Session}
    {rename : Request → Request}
    {allowed : Request → Prop}
    {history : List (Call Request α)}
    {session turned : Session}
    (related : Session → Session → Prop)
    (asked : ∀ request, .setFormula request ∈ history → allowed request)
    (step :
      ∀ session turned call,
        (∀ request, call = .setFormula request → allowed request) →
        related session turned →
        related (apply session call) (apply turned (call.rotated rename)))
    (initially : related session turned) :
    related (history.foldl apply session)
      ((history.map (Call.rotated rename)).foldl apply turned) := by
  induction history generalizing session turned with
  | nil => exact initially
  | cons call later inductionHypothesis =>
      refine inductionHypothesis ?_ (step session turned call ?_ initially)
      · exact fun request askedLater => asked request (List.mem_cons_of_mem _ askedLater)
      · rintro request rfl
        exact asked request List.mem_cons_self

/-- A text that is read as a formula in Cartesian coordinates. -/
def IsCartesianText (source : String) : Prop :=
  ∃ formula,
    Formula.parse source = .ok formula ∧
      formula.tree.RefersOnlyTo Coordinate.IsCartesian

/-- A component that is blank or read as a formula in Cartesian coordinates. -/
def IsCartesianComponent (source : String) : Prop :=
  IsBlankText source.toList ∨ IsCartesianText (trimmed source)

/-- The formulas with the axes renamed, each given to the next axis. -/
def PerAxis.rotatedTexts (sources : PerAxis String) : PerAxis String :=
  (sources.map Formula.rotatedText).rotated

theorem PerAxis.get_rotatedTexts
    (sources : PerAxis String)
    (axis : Axis) :
    sources.rotatedTexts.get axis.next = Formula.rotatedText (sources.get axis) := by
  rw [rotatedTexts, get_rotated, get_map]

/-! ## Where the sessions look -/

section Views

variable {Request α : Type}

/-- The viewpoint of a session after a call. -/
def Viewpoint.follow (viewpoint : Viewpoint α) : Call Request α → Viewpoint α
  | .setFormula _ => viewpoint
  | .resize side => viewpoint.resize side
  | .definePlane plane value => viewpoint.definePlane plane value

theorem Viewpoint.definePlane_rotated
    (viewpoint : Viewpoint α)
    (plane : Plane)
    (value : α) :
    viewpoint.rotated.definePlane plane.next value =
      (viewpoint.definePlane plane value).rotated := by
  simp only [definePlane, rotated, Plane.normalAxis_next, PerAxis.set_rotated]

variable (rename : Request → Request)

theorem Viewpoint.follow_rotated
    (viewpoint : Viewpoint α)
    (call : Call Request α) :
    viewpoint.rotated.follow (call.rotated rename) = (viewpoint.follow call).rotated := by
  cases call with
  | setFormula _ => rfl
  | resize _ => rfl
  | definePlane plane value => exact viewpoint.definePlane_rotated plane value

theorem Viewpoint.foldl_follow_rotated
    (viewpoint : Viewpoint α)
    (history : List (Call Request α)) :
    (history.map (Call.rotated rename)).foldl follow viewpoint.rotated =
      (history.foldl follow viewpoint).rotated := by
  refine Call.foldl_rotated (fun (view turned : Viewpoint α) => turned = view.rotated)
    (fun _ _ => trivial) ?_ rfl
  rintro view _ call - rfl
  exact view.follow_rotated rename call

/-- The first plane that is chosen ends the difference between planes chosen before. -/
theorem Viewpoint.foldl_follow_rotated_of_plane
    {history : List (Call Request α)}
    {plane : Plane}
    {value : α}
    (chosen : .definePlane plane value ∈ history)
    (viewpoint : Viewpoint α)
    (earlier : Plane) :
    (history.map (Call.rotated rename)).foldl follow
        { viewpoint.rotated with plane := earlier } =
      (history.foldl follow viewpoint).rotated := by
  induction history generalizing viewpoint with
  | nil => cases chosen
  | cons call later inductionHypothesis =>
      cases call with
      | setFormula _ =>
          have later := (List.mem_cons.mp chosen).resolve_left nofun
          exact inductionHypothesis later viewpoint
      | resize side =>
          have later := (List.mem_cons.mp chosen).resolve_left nofun
          exact inductionHypothesis later (viewpoint.resize side)
      | definePlane first level =>
          -- What was the plane before plays no part in the viewpoint on the chosen one.
          have turned :
              (later.map (Call.rotated rename)).foldl follow
                  (viewpoint.rotated.definePlane first.next level) =
                (later.foldl follow (viewpoint.definePlane first level)).rotated := by
            rw [definePlane_rotated, foldl_follow_rotated]
          exact turned

variable [Scalar α]

/-- Sessions begin on the same plane; once one was chosen, they look at renamed viewpoints. -/
theorem Viewpoint.foldl_follow_start_rotated
    (settings : SliceSettings α)
    {history : List (Call Request α)}
    {plane : Plane}
    {value : α}
    (chosen : .definePlane plane value ∈ history) :
    (history.map (Call.rotated rename)).foldl follow (start settings.rotated) =
      (history.foldl follow (start settings)).rotated :=
  foldl_follow_rotated_of_plane rename chosen (start settings) .xy

variable [Elementary α]

theorem ScalarSession.apply_viewpoint
    (session : ScalarSession α)
    (call : Call String α) :
    (session.apply call).viewpoint = session.viewpoint.follow call := by
  cases call with
  | setFormula source =>
      cases parsed : Formula.parse source with
      | error fault => simp only [apply, setFormula, parsed, Viewpoint.follow]
      | ok formula => simp only [apply, setFormula, parsed, Viewpoint.follow, display]
  | resize side => exact session.moveTo_viewpoint _
  | definePlane plane value => exact session.moveTo_viewpoint _

theorem VectorSession.apply_viewpoint
    (session : VectorSession α)
    (call : Call (PerAxis String) α) :
    (session.apply call).viewpoint = session.viewpoint.follow call := by
  cases call with
  | setFormula sources =>
      by_cases accepted : accepts sources = true
      · rw [apply, setFormulas_of_accepts accepted]
        exact display_viewpoint session.viewpoint _
      · rw [apply_rejected session _ (by simpa [Call.isAccepted] using accepted)]
        rfl
  | resize side => exact display_viewpoint _ session.formulas
  | definePlane plane value => exact display_viewpoint _ session.formulas

theorem ScalarSession.after_viewpoint
    (settings : SliceSettings α)
    (history : List (Call String α)) :
    (after settings history).viewpoint =
      history.foldl Viewpoint.follow (Viewpoint.start settings) :=
  (List.foldl_hom ScalarSession.viewpoint fun session call =>
    (session.apply_viewpoint call).symm).symm

theorem VectorSession.after_viewpoint
    (settings : SliceSettings α)
    (history : List (Call (PerAxis String) α)) :
    (after settings history).viewpoint =
      history.foldl Viewpoint.follow (Viewpoint.start settings) :=
  (List.foldl_hom VectorSession.viewpoint fun session call =>
    (session.apply_viewpoint call).symm).symm

end Views

/-! ## What the sessions show -/

/-- What two options share their images share if it is kept. -/
theorem rel_map
    {β γ : Type}
    {first second : Option β}
    {before : β → β → Prop}
    {after : γ → γ → Prop}
    {firstChange secondChange : β → γ}
    (rel : Option.Rel before first second)
    (kept :
      ∀ value other, before value other → after (firstChange value) (secondChange other)) :
    Option.Rel after (first.map firstChange) (second.map secondChange) := by
  cases rel with
  | none => exact .none
  | some related => exact .some (kept _ _ related)

theorem Formula.RotatesTo.cleared
    {formula? turned? : Option Formula}
    (rotates : Option.Rel RotatesTo formula? turned?) :
    Option.Rel RotatesTo (formula?.map Formula.cleared) (turned?.map Formula.cleared) :=
  rel_map rotates fun _ _ related => ⟨related.tree, related.cartesian⟩

section Formulas

variable {α : Type} [Scalar α] [Elementary α]

namespace ScalarSession

/-- A call and the renamed call keep the formula of one session renamed in the other. -/
theorem apply_rotates
    {session turned : ScalarSession α}
    {call : Call String α}
    (cartesian : ∀ source, call = .setFormula source → IsCartesianText source)
    (rotates : Option.Rel Formula.RotatesTo session.formula turned.formula) :
    Option.Rel Formula.RotatesTo (session.apply call).formula
      (turned.apply (call.rotated Formula.rotatedText)).formula := by
  cases call with
  | setFormula source =>
      obtain ⟨formula, parsed, only⟩ := cartesian source rfl
      have renamed := Formula.parse_rotatedText parsed
      simp only [Call.rotated, apply, setFormula, parsed, renamed, display_formula]
      exact .some ⟨rfl, only⟩
  | resize side =>
      simp only [Call.rotated, apply, resize, moveTo_formula]
      exact Formula.RotatesTo.cleared rotates
  | definePlane plane value =>
      simp only [Call.rotated, apply, definePlane, moveTo_formula]
      exact Formula.RotatesTo.cleared rotates

theorem after_rotates
    (settings : SliceSettings α)
    {history : List (Call String α)}
    (cartesian : ∀ source, .setFormula source ∈ history → IsCartesianText source) :
    Option.Rel Formula.RotatesTo (after settings history).formula
      (after settings.rotated (history.map (Call.rotated Formula.rotatedText))).formula :=
  Call.foldl_rotated
    (fun (session turned : ScalarSession α) =>
      Option.Rel Formula.RotatesTo session.formula turned.formula)
    cartesian (fun _ _ _ => apply_rotates) .none

end ScalarSession

namespace VectorSession

/-- A component that is blank stays so, and one that is read is read as the renamed tree. -/
theorem componentOf?_rotatedText
    {source : String}
    (cartesian : IsCartesianComponent source) :
    (readComponent source).isOk = true ∧
      (readComponent (Formula.rotatedText source)).isOk = true ∧
      Option.Rel Formula.RotatesTo (componentOf? source)
        (componentOf? (Formula.rotatedText source)) := by
  rcases cartesian with blank | ⟨formula, parsed, only⟩
  · have same : Formula.rotatedText source = source := by
      have nothing := Token.rotatedFrom_blank_append blank []
      rw [List.append_nil, Token.rotatedFrom, List.append_nil] at nothing
      rw [Formula.rotatedText, nothing, String.ofList_toList]
    have read := readComponent_of_whiteSpace blank
    rw [same, componentOf?, read]
    exact ⟨rfl, rfl, .none⟩
  · have read := readComponent_of_parse_trimmed parsed
    have renamed := readComponent_of_parse_trimmed (Formula.parse_trimmed_rotatedText parsed)
    rw [componentOf?, componentOf?, read, renamed]
    exact ⟨rfl, rfl, .some ⟨rfl, only⟩⟩

/-- An accepted request replaces all formulas. -/
theorem formulas_of_accepts
    {session : VectorSession α}
    {sources : PerAxis String}
    (accepted : accepts sources = true) :
    (session.apply (.setFormula sources)).formulas =
      (sources.map componentOf?).map (Option.map Formula.cleared) := by
  rw [apply, setFormulas_of_accepts accepted]
  exact display_formulas session.viewpoint _

/-- A call and the renamed call keep each formula of one session renamed at the next axis. -/
theorem apply_rotates
    {session turned : VectorSession α}
    {call : Call (PerAxis String) α}
    (cartesian :
      ∀ sources, call = .setFormula sources → ∀ axis, IsCartesianComponent (sources.get axis))
    (rotates : FormulasRotate session.formulas turned.formulas) :
    FormulasRotate (session.apply call).formulas
      (turned.apply (call.rotated PerAxis.rotatedTexts)).formulas := by
  intro axis
  cases call with
  | setFormula sources =>
      have each := fun axis => componentOf?_rotatedText (cartesian sources rfl axis)
      have accepted : accepts sources = true :=
        (PerAxis.all_toList sources _).mpr fun axis => (each axis).1
      have turnedAccepted : accepts sources.rotatedTexts = true := by
        refine (PerAxis.all_toList _ _).mpr (Axis.forall_next.mp fun axis => ?_)
        rw [PerAxis.get_rotatedTexts]
        exact (each axis).2.1
      rw [Call.rotated, formulas_of_accepts accepted, formulas_of_accepts turnedAccepted]
      simp only [PerAxis.get_map, PerAxis.get_rotatedTexts]
      exact Formula.RotatesTo.cleared (each axis).2.2
  | resize side =>
      simp only [Call.rotated, apply, resize, display_formulas, PerAxis.get_map]
      exact Formula.RotatesTo.cleared (rotates axis)
  | definePlane plane value =>
      simp only [Call.rotated, apply, definePlane, display_formulas, PerAxis.get_map]
      exact Formula.RotatesTo.cleared (rotates axis)

theorem after_rotates
    (settings : SliceSettings α)
    {history : List (Call (PerAxis String) α)}
    (cartesian :
      ∀ sources, .setFormula sources ∈ history →
        ∀ axis, IsCartesianComponent (sources.get axis)) :
    FormulasRotate (after settings history).formulas
      (after settings.rotated (history.map (Call.rotated PerAxis.rotatedTexts))).formulas := by
  have start : FormulasRotate (start settings).formulas (start settings.rotated).formulas := by
    intro axis
    cases axis <;> exact .none
  exact Call.foldl_rotated
    (fun (session turned : VectorSession α) =>
      FormulasRotate session.formulas turned.formulas)
    cartesian (fun _ _ _ => apply_rotates) start

end VectorSession

end Formulas

/-! ## The fields -/

section Fields

variable {α : Type} [Scalar α] [Elementary α]

/--
What is shared by the fields of renamed formulas at renamed viewpoints is shared by what the
sessions show.
-/
theorem ScalarSession.field_rotates
    {shared : ScalarField α → ScalarField α → Prop}
    (settings : SliceSettings α)
    {history : List (Call String α)}
    {plane : Plane}
    {value : α}
    (chosen : .definePlane plane value ∈ history)
    (cartesian : ∀ source, .setFormula source ∈ history → IsCartesianText source)
    (share :
      ∀ viewpoint formula turned,
        Formula.RotatesTo formula turned →
        shared (fieldAt viewpoint formula) (fieldAt viewpoint.rotated turned)) :
    Option.Rel shared (after settings history).field
      (after settings.rotated (history.map (Call.rotated Formula.rotatedText))).field := by
  have view := Viewpoint.foldl_follow_start_rotated Formula.rotatedText settings chosen
  rw [← after_viewpoint, ← after_viewpoint] at view
  rw [(reflects_after settings history).field, (reflects_after settings.rotated _).field, view]
  exact rel_map (after_rotates settings cartesian) (share _)

theorem VectorSession.field_rotates
    (settings : SliceSettings α)
    {history : List (Call (PerAxis String) α)}
    {plane : Plane}
    {value : α}
    (chosen : .definePlane plane value ∈ history)
    (cartesian :
      ∀ sources, .setFormula sources ∈ history →
        ∀ axis, IsCartesianComponent (sources.get axis)) :
    Option.Rel VectorField.RotatesTo (after settings history).field
      (after settings.rotated (history.map (Call.rotated PerAxis.rotatedTexts))).field := by
  have view := Viewpoint.foldl_follow_start_rotated PerAxis.rotatedTexts settings chosen
  rw [← after_viewpoint, ← after_viewpoint] at view
  rw [(reflects_after settings history).field, (reflects_after settings.rotated _).field, view]
  exact fieldAt_rotated _ (after_rotates settings cartesian)

open scoped Exact in
/--
The names of the axes do not matter.  A text with the axes renamed is read as the renamed
tree.  Let a plane be chosen at some point of a history whose formulas are in Cartesian
coordinates, and rename the axes in the settings, the formulas and the planes.  Then there is
a field in both sessions or in neither.  A scalar session shows the same values and the same
laplacian, and the gradient at the next axes; a vector session shows the same divergence, and
components and curl at the next axes.  In exact arithmetic the length of the gradient is the
same too.
-/
theorem axis_names_do_not_matter
    {K : Type}
    [Field K]
    [LinearOrder K]
    [FloorRing K]
    [Elementary K] :
    (∀ source formula,
      Formula.parse source = .ok formula →
      Formula.parse (Formula.rotatedText source) = .ok formula.rotated) ∧
    (∀ (settings : SliceSettings α) history plane value,
      .definePlane plane value ∈ history →
      (∀ source, .setFormula source ∈ history → IsCartesianText source) →
      Option.Rel ScalarField.RotatesTo (ScalarSession.after settings history).field
        (ScalarSession.after settings.rotated
          (history.map (Call.rotated Formula.rotatedText))).field) ∧
    (∀ (settings : SliceSettings α) history plane value,
      .definePlane plane value ∈ history →
      (∀ sources, .setFormula sources ∈ history →
        ∀ axis, IsCartesianComponent (sources.get axis)) →
      Option.Rel VectorField.RotatesTo (VectorSession.after settings history).field
        (VectorSession.after settings.rotated
          (history.map (Call.rotated PerAxis.rotatedTexts))).field) ∧
    (∀ (settings : SliceSettings K) history plane value,
      .definePlane plane value ∈ history →
      (∀ source, .setFormula source ∈ history → IsCartesianText source) →
      Option.Rel (fun field turned => turned.magnitude = field.magnitude)
        (ScalarSession.after settings history).field
        (ScalarSession.after settings.rotated
          (history.map (Call.rotated Formula.rotatedText))).field) := by
  refine ⟨fun _ _ parsed => Formula.parse_rotatedText parsed, ?_, ?_, ?_⟩
  · intro settings history plane value chosen cartesian
    exact ScalarSession.field_rotates settings chosen cartesian
      fun viewpoint _ _ rotates => ScalarSession.fieldAt_rotated viewpoint rotates
  · intro settings history plane value chosen cartesian
    exact VectorSession.field_rotates settings chosen cartesian
  · intro settings history plane value chosen cartesian
    exact ScalarSession.field_rotates settings chosen cartesian
      fun viewpoint _ _ rotates => ScalarSession.magnitude_fieldAt_rotated viewpoint rotates

end Fields

open scoped Exact in
/--
The formula `x*y^2-z/x` on the plane `x = 2` of a box with three extents, and a vector field
with a blank component, next to the same with the axes renamed.
-/
theorem names_of_a_quotient_do_not_matter :
    let box : SliceSettings Float := { SliceSettings.standard with high := ⟨1, 2, 3⟩ }
    let turnedBox : SliceSettings Float := { SliceSettings.standard with high := ⟨3, 1, 2⟩ }
    let exactBox : SliceSettings ℝ := SliceSettings.standard
    Formula.parse "y*z^2-x/y" =
        .ok ⟨"y*z^2-x/y",
          .operation .sub
            (.operation .mul (.coordinate .y)
              (.operation .pow (.coordinate .z) (.number ⟨2, 0⟩)))
            (.operation .div (.coordinate .x) (.coordinate .y)), none⟩ ∧
      Option.Rel ScalarField.RotatesTo
        (ScalarSession.after box [.setFormula "x*y^2-z/x", .definePlane .yz 2]).field
        (ScalarSession.after turnedBox [.setFormula "y*z^2-x/y", .definePlane .zx 2]).field ∧
      Option.Rel VectorField.RotatesTo
        (VectorSession.after box [.definePlane .yz 2, .setFormula ⟨"x*y", "", " -z "⟩]).field
        (VectorSession.after turnedBox
          [.definePlane .zx 2, .setFormula ⟨" -x ", "y*z", ""⟩]).field ∧
      Option.Rel (fun field turned => turned.magnitude = field.magnitude)
        (ScalarSession.after exactBox [.setFormula "x*y^2-z/x", .definePlane .yz 2]).field
        (ScalarSession.after exactBox [.setFormula "y*z^2-x/y", .definePlane .zx 2]).field := by
  intro box turnedBox exactBox
  obtain ⟨text, scalar, vector, magnitude⟩ := axis_names_do_not_matter (α := Float) (K := ℝ)
  let tree : Expr :=
    .operation .sub
      (.operation .mul (.coordinate .x) (.operation .pow (.coordinate .y) (.number ⟨2, 0⟩)))
      (.operation .div (.coordinate .z) (.coordinate .x))
  have read : Formula.parse "x*y^2-z/x" = .ok ⟨"x*y^2-z/x", tree, none⟩ := by rfl
  have renamed : Formula.rotatedText "x*y^2-z/x" = "y*z^2-x/y" := by rfl
  have cartesian : IsCartesianText "x*y^2-z/x" :=
    ⟨_, read, by simp [tree, Coordinate.IsCartesian]⟩
  have components :
      ∀ axis, IsCartesianComponent ((PerAxis.mk "x*y" "" " -z ").get axis) := by
    have product :
        Formula.parse (trimmed "x*y") =
          .ok ⟨"x*y", .operation .mul (.coordinate .x) (.coordinate .y), none⟩ := by
      rfl
    have negation :
        Formula.parse (trimmed " -z ") = .ok ⟨"-z", .negation (.coordinate .z), none⟩ := by
      rfl
    rintro (_ | _ | _)
    · exact .inr ⟨_, product, by simp [Coordinate.IsCartesian]⟩
    · exact .inl nofun
    · exact .inr ⟨_, negation, by simp [Coordinate.IsCartesian]⟩
  have renamedComponents :
      (PerAxis.mk "x*y" "" " -z ").rotatedTexts = ⟨" -x ", "y*z", ""⟩ := by
    rfl
  refine ⟨?_, ?_, ?_, ?_⟩
  · have readTurned := text _ _ read
    rwa [Formula.rotated, renamed] at readTurned
  · have rel := scalar box [.setFormula "x*y^2-z/x", .definePlane .yz 2] .yz 2 (by simp)
      fun source asked => by simp at asked; exact asked ▸ cartesian
    simp only [List.map_cons, List.map_nil, Call.rotated, renamed] at rel
    exact rel
  · have rel := vector box [.definePlane .yz 2, .setFormula ⟨"x*y", "", " -z "⟩] .yz 2 (by simp)
      fun sources asked => by simp at asked; exact asked ▸ components
    simp only [List.map_cons, List.map_nil, Call.rotated, renamedComponents] at rel
    exact rel
  · have rel := magnitude exactBox [.setFormula "x*y^2-z/x", .definePlane .yz 2] .yz 2 (by simp)
      fun source asked => by simp at asked; exact asked ▸ cartesian
    simp only [List.map_cons, List.map_nil, Call.rotated, renamed] at rel
    exact rel

end Electrostatics
