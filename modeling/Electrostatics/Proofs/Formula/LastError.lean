import Electrostatics.Formula.Compiled
import Mathlib.Data.List.Range

namespace Electrostatics.Formula

/-!
# What a formula remembers

Of the evaluations of a pass a formula remembers the last one that failed, and it reports
that error once.  Nothing else about a formula changes.
-/

variable {α : Type}

/-- A formula with its error forgotten. -/
def cleared (formula : Formula) : Formula :=
  { formula with lastError := none }

theorem reportError_snd (formula : Formula) :
    formula.reportError.2 = formula.cleared := by
  obtain ⟨source, tree, lastError⟩ := formula
  cases lastError <;> rfl

/-- A formula reports the error that it remembers, if any. -/
theorem reportError_fst (formula : Formula) :
    formula.reportError.1 =
      (formula.lastError.map fun fault => ⟨formula.source, fault⟩).toList := by
  obtain ⟨source, tree, lastError⟩ := formula
  cases lastError <;> rfl

/-- A formula that was just read is its source with a tree, and remembers no error. -/
theorem exists_tree_of_compile
    {formula : Formula}
    {bound : List Coordinate}
    {source : String}
    (read : compile bound source = .ok formula) :
    ∃ tree, formula = { source := source, tree := tree, lastError := none } := by
  unfold compile at read
  split at read
  case h_1 => cases read
  case h_2 =>
    split at read
    case h_1 => cases read
    case h_2 tree _ =>
      cases read
      exact ⟨tree, rfl⟩

theorem lastError_of_compile
    {bound : List Coordinate}
    {source : String}
    {formula : Formula}
    (read : compile bound source = .ok formula) :
    formula.lastError = none := by
  obtain ⟨tree, rfl⟩ := exists_tree_of_compile read
  rfl

theorem cleared_of_parse
    {source : String}
    {formula : Formula}
    (parsed : parse source = .ok formula) :
    formula.cleared = formula := by
  obtain ⟨tree, rfl⟩ := exists_tree_of_compile parsed
  rfl

/-! ## The last error of a pass -/

/-- A later error is remembered instead of an earlier one. -/
theorem lastErrorOf_append (earlier later : List (Except EvaluationError α)) :
    lastErrorOf (earlier ++ later) = (lastErrorOf later).or (lastErrorOf earlier) := by
  induction earlier with
  | nil => simp [lastErrorOf]
  | cons outcome others inductionHypothesis =>
      simp only [List.cons_append, lastErrorOf, inductionHypothesis]
      cases lastErrorOf later <;> cases lastErrorOf others <;> cases outcome <;> rfl

theorem record_append
    (formula : Formula)
    (earlier later : List (Except EvaluationError α)) :
    formula.record (earlier ++ later) = (formula.record earlier).record later := by
  simp only [record, lastErrorOf_append, Option.or_assoc]

/-- No error is remembered exactly when there is none among the outcomes. -/
theorem lastErrorOf_eq_none_iff (outcomes : List (Except EvaluationError α)) :
    lastErrorOf outcomes = none ↔ ∀ fault, .error fault ∉ outcomes := by
  induction outcomes with
  | nil => simp [lastErrorOf]
  | cons outcome later inductionHypothesis =>
      cases outcome with
      | ok value =>
          simp only [List.mem_cons, reduceCtorEq, false_or, ← inductionHypothesis]
          cases remembered : lastErrorOf later <;> simp [lastErrorOf, remembered]
      | error fault =>
          have failed : lastErrorOf (.error fault :: later) ≠ none := by
            cases remembered : lastErrorOf later <;> simp [lastErrorOf, remembered]
          simp only [failed, false_iff, not_forall, not_not]
          exact ⟨fault, List.mem_cons_self⟩

/-- Of the errors among the outcomes the one is remembered behind which there is none. -/
theorem lastErrorOf_of_last
    {earlier later : List (Except EvaluationError α)}
    (fault : EvaluationError)
    (last : ∀ other, .error other ∉ later) :
    lastErrorOf (earlier ++ .error fault :: later) = some fault := by
  have noLater := (lastErrorOf_eq_none_iff later).mpr last
  simp [lastErrorOf_append, lastErrorOf, noLater]

variable {outcome : Nat → Except EvaluationError α}

/-- No error is remembered exactly when no evaluation of the pass failed. -/
theorem lastErrorOf_range'_eq_none_iff (count : Nat) :
    lastErrorOf ((List.range' 1 count).map outcome) = none ↔
      ∀ index, 1 ≤ index → index ≤ count → ∃ value, outcome index = .ok value := by
  induction count with
  | zero => exact ⟨fun _ index first last => by omega, fun _ => rfl⟩
  | succ count inductionHypothesis =>
      rw [List.range'_1_concat, List.map_append, lastErrorOf_append, Option.or_eq_none_iff,
        inductionHypothesis]
      constructor
      · rintro ⟨last, others⟩ index first inside
        by_cases isLast : index = 1 + count
        · subst isLast
          cases failed : outcome (1 + count) with
          | ok value => exact ⟨value, rfl⟩
          | error fault => simp [lastErrorOf, failed] at last
        · exact others index first (by omega)
      · intro all
        obtain ⟨value, evaluated⟩ := all (1 + count) (by omega) (by omega)
        exact
          ⟨by simp [lastErrorOf, evaluated],
            fun index first inside => all index first (by omega)⟩

/-- An error that is remembered is that of the last evaluation of the pass that failed. -/
theorem exists_of_lastErrorOf_range'
    {count : Nat}
    {fault : EvaluationError}
    (remembered : lastErrorOf ((List.range' 1 count).map outcome) = some fault) :
    ∃ index,
      1 ≤ index ∧
      index ≤ count ∧
      outcome index = .error fault ∧
      ∀ later, index < later → later ≤ count → ∃ value, outcome later = .ok value := by
  induction count with
  | zero => cases remembered
  | succ count inductionHypothesis =>
      rw [List.range'_1_concat, List.map_append, lastErrorOf_append] at remembered
      cases evaluated : outcome (1 + count) with
      | error last =>
          have same : last = fault := by simpa [lastErrorOf, evaluated] using remembered
          subst same
          exact ⟨1 + count, by omega, by omega, evaluated, fun later behind inside => by omega⟩
      | ok value =>
          obtain ⟨index, first, inside, failed, others⟩ :=
            inductionHypothesis (by simpa [lastErrorOf, evaluated] using remembered)
          refine ⟨index, first, by omega, failed, fun later behind last => ?_⟩
          by_cases isLast : later = 1 + count
          · exact ⟨value, isLast ▸ evaluated⟩
          · exact others later behind (by omega)

end Electrostatics.Formula
