import Electrostatics.Number.Double
import Electrostatics.Proofs.Slice.ScalarSessions
import Electrostatics.Proofs.Slice.VectorSessions
import Mathlib.Data.List.TakeWhile

namespace Electrostatics

/-!
# Independence of the history

The histories of both kinds of sessions reduce to their recent calls, and the order of
those plays no part.  A request that fails can be left out as if it had not been made.
-/

variable {α : Type} [Scalar α] [Elementary α]

/-- A scalar session refuses exactly the formulas that cannot be read. -/
theorem ScalarSession.setFormula_error_iff
    (session : ScalarSession α)
    (source : String) :
    (∃ fault, session.setFormula source = .error fault) ↔
      ∃ fault, Formula.parse source = .error fault := by
  unfold ScalarSession.setFormula
  cases Formula.parse source <;> simp

theorem VectorSession.readComponent_error_iff (source : String) :
    (readComponent source).isOk = false ↔
      (trimmed source).isEmpty = false ∧
        ∃ fault, Formula.parse (trimmed source) = .error fault := by
  unfold VectorSession.readComponent
  by_cases blank : (trimmed source).isEmpty = true
  · simp [blank, Except.isOk, Except.toBool]
  · cases parsed : Formula.parse (trimmed source) <;>
      simp [blank, parsed, Except.isOk, Except.toBool]

/-- A vector session refuses three formulas if one that is not blank cannot be read. -/
theorem VectorSession.setFormulas_error_iff
    (session : VectorSession α)
    (sources : PerAxis String) :
    (∃ fault, session.setFormulas sources = .error fault) ↔
      ∃ axis fault,
        (trimmed (sources.get axis)).isEmpty = false ∧
          Formula.parse (trimmed (sources.get axis)) = .error fault := by
  constructor
  · rintro ⟨fault, failed⟩
    by_contra allRead
    have accepted : accepts sources = true := by
      refine (PerAxis.all_toList sources _).mpr (fun axis => ?_)
      by_contra notRead
      obtain ⟨notBlank, fault, parsed⟩ :=
        (readComponent_error_iff _).mp (by simpa using notRead)
      exact allRead ⟨axis, fault, notBlank, parsed⟩
    rw [setFormulas_of_accepts accepted] at failed
    cases failed
  · rintro ⟨axis, fault, notBlank, parsed⟩
    have notRead := (readComponent_error_iff _).mpr ⟨notBlank, fault, parsed⟩
    refine setFormulas_of_rejects ?_ session
    by_contra accepted
    rw [Bool.not_eq_false] at accepted
    have read := (PerAxis.all_toList sources _).mp accepted axis
    rw [notRead] at read
    cases read

theorem VectorSession.readComponent_of_whiteSpace
    {source : String}
    (blank : ∀ character ∈ source.toList, isWhiteSpace character = true) :
    readComponent source = .ok none := by
  have dropped : source.toList.dropWhile isWhiteSpace = [] :=
    List.dropWhile_eq_nil_iff.mpr blank
  simp [readComponent, trimmed, dropped]

/-- A component is read without its margins; what can be read there is not blank. -/
theorem VectorSession.readComponent_of_parse_trimmed
    {source : String}
    {formula : Formula}
    (parsed : Formula.parse (trimmed source) = .ok formula) :
    readComponent source = .ok (some formula) := by
  have notEmpty : (trimmed source).isEmpty = false := by
    by_contra isEmpty
    rw [Bool.not_eq_false, String.isEmpty_iff] at isEmpty
    rw [isEmpty] at parsed
    cases parsed
  simp [readComponent, notEmpty, parsed]

/-- Formulas of nothing but white space are accepted and leave no field. -/
theorem VectorSession.setFormulas_of_whiteSpace
    (session : VectorSession α)
    {sources : PerAxis String}
    (blank :
      ∀ axis, ∀ character ∈ (sources.get axis).toList, isWhiteSpace character = true) :
    ∃ shown, session.setFormulas sources = .ok (shown, []) ∧ shown.field = none := by
  have read : ∀ axis, readComponent (sources.get axis) = .ok none :=
    fun axis => readComponent_of_whiteSpace (blank axis)
  have accepted : accepts sources = true := by
    refine (PerAxis.all_toList sources _).mpr (fun axis => ?_)
    rw [read axis]
    rfl
  have noFormulas : allBlank (sources.map componentOf?) = true := by
    refine (PerAxis.all_toList _ _).mpr (fun axis => ?_)
    simp [componentOf?, read axis, Except.toOption]
  rw [setFormulas_of_accepts accepted, display, noFormulas]
  exact ⟨_, rfl, rfl⟩

/--
Sessions forget their history.  After any history a session agrees with a fresh one that
was given only the last accepted request, the last resizing and the last plane, in any
order, and with one from whose history the refused requests were left out.  A scalar
session refuses what cannot be read, a vector session what has a component that cannot be
read, and three blank components leave no vector field.
-/
theorem sessions_forget_their_history (settings : SliceSettings α) :
    (∀ history order : List (Call String α),
      order.Perm (Recent.ofCalls ScalarSession.accepts history).calls →
      (ScalarSession.after settings history).Agrees (ScalarSession.after settings order)) ∧
    (∀ history : List (Call String α),
      ScalarSession.after settings
          (history.filter (Call.isAccepted ScalarSession.accepts)) =
        ScalarSession.after settings history) ∧
    (∀ (session : ScalarSession α) source,
      (∃ fault, session.setFormula source = .error fault) ↔
        ∃ fault, Formula.parse source = .error fault) ∧
    (∀ history order : List (Call (PerAxis String) α),
      order.Perm (Recent.ofCalls VectorSession.accepts history).calls →
      (VectorSession.after settings history).Agrees (VectorSession.after settings order)) ∧
    (∀ history : List (Call (PerAxis String) α),
      VectorSession.after settings
          (history.filter (Call.isAccepted VectorSession.accepts)) =
        VectorSession.after settings history) ∧
    (∀ (session : VectorSession α) sources,
      (∃ fault, session.setFormulas sources = .error fault) ↔
        ∃ axis fault,
          (trimmed (sources.get axis)).isEmpty = false ∧
            Formula.parse (trimmed (sources.get axis)) = .error fault) ∧
    (∀ (session : VectorSession α) sources,
      (∀ axis, ∀ character ∈ (sources.get axis).toList, isWhiteSpace character = true) →
      ∃ shown, session.setFormulas sources = .ok (shown, []) ∧ shown.field = none) := by
  refine ⟨?_, ?_, ScalarSession.setFormula_error_iff, ?_, ?_,
    VectorSession.setFormulas_error_iff, ?_⟩
  · intro history order perm
    have reflects := ScalarSession.reflects_after settings order
    rw [Recent.ofCalls_of_perm perm] at reflects
    exact (ScalarSession.reflects_after settings history).agrees reflects
  · intro history
    exact Recent.foldl_filter_isAccepted ScalarSession.apply_rejected history _
  · intro history order perm
    have reflects := VectorSession.reflects_after settings order
    rw [Recent.ofCalls_of_perm perm] at reflects
    exact (VectorSession.reflects_after settings history).agrees reflects
  · intro history
    exact Recent.foldl_filter_isAccepted VectorSession.apply_rejected history _
  · intro session sources blank
    exact VectorSession.setFormulas_of_whiteSpace session blank

/--
Neither the plane `x = 1` nor the refused formula plays a part behind the plane `y = 2`,
and the same holds of a vector field one of whose requests is refused.
-/
theorem sessions_forget_earlier_planes :
    (ScalarSession.after (SliceSettings.standard : SliceSettings Float)
        [.setFormula "x", .resize 500, .definePlane .yz 1, .setFormula "x+", .resize 20,
          .definePlane .zx 2, .setFormula "y"]).Agrees
      (ScalarSession.after SliceSettings.standard
        [.definePlane .zx 2, .setFormula "y", .resize 20]) ∧
    (VectorSession.after (SliceSettings.standard : SliceSettings Float)
        [.setFormula ⟨"y", "x", ""⟩, .definePlane .yz 1, .setFormula ⟨"x+", "", ""⟩,
          .definePlane .zx 2]).Agrees
      (VectorSession.after SliceSettings.standard
        [.definePlane .zx 2, .setFormula ⟨"y", "x", ""⟩]) ∧
    ∃ shown,
      (VectorSession.start (SliceSettings.standard : SliceSettings Float)).setFormulas
          ⟨"", " ", "\t"⟩ =
        .ok (shown, []) ∧
      shown.field = none := by
  obtain ⟨scalar, _, _, vector, _, _, blank⟩ :=
    sessions_forget_their_history (SliceSettings.standard : SliceSettings Float)
  let rotation : PerAxis String := ⟨"y", "x", ""⟩
  refine ⟨scalar _ _ ?_, vector _ _ ?_, blank _ _ ?_⟩
  · exact (List.perm_append_singleton _ [Call.setFormula "y", Call.resize 20]).symm
  · exact (List.perm_append_singleton _ [Call.setFormula rotation]).symm
  · intro axis
    refine List.all_eq_true.mp ?_
    cases axis <;> rfl

end Electrostatics
