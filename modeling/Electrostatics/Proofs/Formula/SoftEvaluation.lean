import Electrostatics.Number.Double
import Electrostatics.Proofs.Formula.LastError
import Mathlib.Data.List.DropRight
import Mathlib.Data.List.Induction

namespace Electrostatics

/-!
# Soft evaluation over a session

A formula that has been read is called again and again, and it remembers one error
between the calls.  What it remembers is a matter of the history alone: the calls since
the error was last taken, and among them the last soft evaluation that failed.  From this
rule every answer of a session is determined.
-/

open scoped Scalar

namespace Formula

variable {α : Type}

/-- A call on a formula that has been read. -/
inductive Call (α : Type) where
  | evaluate (point : Point α)
  | tryEvaluate (point : Point α)
  | lastError
  | takeError
  deriving Repr

/-- What a formula answers to a call. -/
inductive Answer (α : Type) where
  | value (value : α)
  | outcome (outcome : Except EvaluationError α)
  | remembered (error : Option EvaluationError)
  deriving Repr

/-- Whether a call takes the error out of the formula. -/
def Call.takes : Call α → Bool
  | .evaluate _ => false
  | .tryEvaluate _ => false
  | .lastError => false
  | .takeError => true

/-- The calls of a history since the error was last taken. -/
def sinceTaken (history : List (Call α)) : List (Call α) :=
  history.rtakeWhile (fun call => !call.takes)

variable [Scalar α] [Elementary α]

/-- Carry a call out, and hand the formula on. -/
def respond (formula : Formula) : Call α → Answer α × Formula
  | .evaluate point =>
      let evaluated := formula.evaluate point
      (.value evaluated.1, evaluated.2)
  | .tryEvaluate point => (.outcome (formula.tryEvaluate point), formula)
  | .lastError => (.remembered formula.lastError, formula)
  | .takeError =>
      let taken := formula.takeError
      (.remembered taken.1, taken.2)

/-- The answers to calls that are made one after the other. -/
def answers (formula : Formula) : List (Call α) → List (Answer α)
  | [] => []
  | call :: later =>
      let responded := formula.respond call
      responded.1 :: answers responded.2 later

/-- A formula after a history of calls. -/
def after (formula : Formula) (history : List (Call α)) : Formula :=
  history.foldl (fun called call => (called.respond call).2) formula

/-- The error of a call, if it is a soft evaluation that fails. -/
def failure? (formula : Formula) : Call α → Option EvaluationError
  | .evaluate point =>
      match formula.tryEvaluate point with
      | .error fault => some fault
      | .ok _ => none
  | .tryEvaluate _ => none
  | .lastError => none
  | .takeError => none

/-- The error of the last soft evaluation that failed since the error was last taken. -/
def unreported? (formula : Formula) (history : List (Call α)) : Option EvaluationError :=
  ((sinceTaken history).filterMap formula.failure?).getLast?

/-- The answer that is due to a call after a history of calls. -/
def due (formula : Formula) (history : List (Call α)) : Call α → Answer α
  | .evaluate point =>
      match formula.tryEvaluate point with
      | .ok value => .value value
      | .error _ => .value 0
  | .tryEvaluate point => .outcome (formula.tryEvaluate point)
  | .lastError => .remembered (formula.unreported? history)
  | .takeError => .remembered (formula.unreported? history)

variable
  {formula : Formula}
  {history : List (Call α)}
  {call : Call α}

theorem unreported?_takeError
    (formula : Formula)
    (history : List (Call α)) :
    formula.unreported? (history ++ [.takeError]) = none := by
  simp [unreported?, sinceTaken, Call.takes]

/-- A call that fails is the last one that did. -/
theorem unreported?_of_failure
    {fault : EvaluationError}
    (history : List (Call α))
    (fails : formula.failure? call = some fault) :
    formula.unreported? (history ++ [call]) = some fault := by
  have keeps : call.takes = false := by
    cases call with
    | takeError => cases fails
    | evaluate _ | tryEvaluate _ | lastError => rfl
  simp [unreported?, sinceTaken, keeps, fails]

/-- A call that neither fails nor takes the error changes nothing. -/
theorem unreported?_of_harmless
    (keeps : call.takes = false)
    (succeeds : formula.failure? call = none) :
    formula.unreported? (history ++ [call]) = formula.unreported? history := by
  simp [unreported?, sinceTaken, keeps, succeeds]

/-- A formula remembers no more than an error, so calls do not change its values. -/
theorem tryEvaluate_respond
    (formula : Formula)
    (call : Call α)
    (point : Point α) :
    (formula.respond call).2.tryEvaluate point = formula.tryEvaluate point := by
  cases call <;> rfl

theorem after_snoc
    (formula : Formula)
    (history : List (Call α))
    (call : Call α) :
    formula.after (history ++ [call]) = ((formula.after history).respond call).2 := by
  rw [after, List.foldl_append]
  rfl

theorem tryEvaluate_after
    (formula : Formula)
    (history : List (Call α))
    (point : Point α) :
    (formula.after history).tryEvaluate point = formula.tryEvaluate point := by
  induction history using List.reverseRecOn with
  | nil => rfl
  | append_singleton earlier call inductionHypothesis =>
      rw [after_snoc, tryEvaluate_respond, inductionHypothesis]

/-- What a call does to the remembered error. -/
theorem lastError_respond
    (formula : Formula)
    (call : Call α) :
    (formula.respond call).2.lastError =
      if call.takes then none else (formula.failure? call).or formula.lastError := by
  cases call with
  | evaluate point =>
      cases outcome : formula.tryEvaluate point with
      | ok value => simp [respond, evaluate, record, lastErrorOf, Call.takes, failure?, outcome]
      | error fault =>
          simp [respond, evaluate, record, lastErrorOf, Call.takes, failure?, outcome]
  | tryEvaluate point => rfl
  | lastError => rfl
  | takeError => rfl

/-- After every history a formula that was just read remembers the unreported error. -/
theorem lastError_after
    (fresh : formula.lastError = none)
    (history : List (Call α)) :
    (formula.after history).lastError = formula.unreported? history := by
  -- The last call decides what is remembered, so the history is taken apart from its end.
  induction history using List.reverseRecOn with
  | nil => exact fresh
  | append_singleton earlier call inductionHypothesis =>
      have sameFailure : (formula.after earlier).failure? call = formula.failure? call := by
        cases call <;> simp only [failure?, tryEvaluate_after]
      rw [after_snoc, lastError_respond, sameFailure, inductionHypothesis]
      cases takes : call.takes with
      | true =>
          obtain rfl : call = .takeError := by
            cases call with
            | takeError => rfl
            | evaluate _ | tryEvaluate _ | lastError => cases takes
          exact (unreported?_takeError formula earlier).symm
      | false =>
          cases fails : formula.failure? call with
          | none => exact (unreported?_of_harmless takes fails).symm
          | some fault => exact (unreported?_of_failure earlier fails).symm

/-- The answer to a call after a history is the one that is due. -/
theorem respond_after
    (fresh : formula.lastError = none)
    (history : List (Call α))
    (call : Call α) :
    ((formula.after history).respond call).1 = formula.due history call := by
  have remembered := lastError_after fresh history
  cases call with
  | evaluate point =>
      have same := tryEvaluate_after formula history point
      cases outcome : formula.tryEvaluate point with
      | ok value => simp only [respond, evaluate, due, same, outcome, softened]
      | error fault => simp only [respond, evaluate, due, same, outcome, softened]
  | tryEvaluate point => simp only [respond, due, tryEvaluate_after]
  | lastError => simp only [respond, due, remembered]
  | takeError => simp only [respond, due, takeError, remembered]

theorem answers_append
    (formula : Formula)
    (history later : List (Call α)) :
    formula.answers (history ++ later) =
      formula.answers history ++ (formula.after history).answers later := by
  induction history generalizing formula with
  | nil => rfl
  | cons call others inductionHypothesis =>
      simp only [List.cons_append, answers, inductionHypothesis, after, List.foldl_cons]

theorem length_answers
    (formula : Formula)
    (history : List (Call α)) :
    (formula.answers history).length = history.length := by
  induction history generalizing formula with
  | nil => rfl
  | cons call others inductionHypothesis =>
      simp only [answers, List.length_cons, inductionHypothesis]

/-- The answer in the place of a call is the one that is due after the calls before it. -/
theorem answers_getElem?
    (fresh : formula.lastError = none)
    (history later : List (Call α))
    (call : Call α) :
    (formula.answers (history ++ call :: later))[history.length]? =
      some (formula.due history call) := by
  have length := length_answers formula history
  rw [answers_append, List.getElem?_append_right length.le, length, Nat.sub_self, answers,
    List.getElem?_cons_zero, respond_after fresh]

theorem isFinite_of_tryEvaluate
    {point : Point α}
    {value : α}
    (evaluated : formula.tryEvaluate point = .ok value) :
    Scalar.isFinite value = true := by
  unfold tryEvaluate at evaluated
  split at evaluated
  case h_1 => cases evaluated
  case h_2 =>
    split at evaluated
    case isTrue finite =>
      cases evaluated
      exact finite
    case isFalse => cases evaluated

/--
Evaluation fails softly over every session.  Each call of every list of calls on a formula
that was read gets the answer that is due to it: an evaluation its value, or zero for an
error, and so always a finite number; and a question for the error that of the last soft
evaluation that failed since it was last taken.  The error is gone once it is taken, a
success does not clear it, and an evaluation that is only tried does not touch it.
-/
theorem evaluation_fails_softly
    {bound : List Coordinate}
    {source : String}
    {formula : Formula}
    (read : compile bound source = .ok formula)
    (finiteZero : Scalar.isFinite (0 : α) = true)
    (history later : List (Call α)) :
    (∀ call,
      (formula.answers (history ++ call :: later))[history.length]? =
        some (formula.due history call)) ∧
    (∀ point value,
      formula.due history (.evaluate point) = .value value →
      Scalar.isFinite value = true) ∧
    (formula.after history).lastError = formula.unreported? history ∧
    (formula.after (history ++ [.takeError])).lastError = none ∧
    (∀ point value,
      formula.tryEvaluate point = .ok value →
      (formula.after (history ++ [.evaluate point])).lastError =
        (formula.after history).lastError) ∧
    (∀ point,
      (formula.after (history ++ [.tryEvaluate point])).lastError =
        (formula.after history).lastError) := by
  have fresh := lastError_of_compile read
  have remembers := fun calls : List (Call α) => lastError_after fresh calls
  refine ⟨answers_getElem? fresh history later, ?_, remembers history, ?_, ?_, ?_⟩
  · intro point value due
    cases outcome : formula.tryEvaluate point with
    | ok other =>
        simp only [Formula.due, outcome, Answer.value.injEq] at due
        subst due
        exact isFinite_of_tryEvaluate outcome
    | error fault =>
        simp only [Formula.due, outcome, Answer.value.injEq] at due
        subst due
        exact finiteZero
  · rw [remembers, unreported?_takeError]
  · intro point value evaluated
    rw [remembers, remembers]
    exact unreported?_of_harmless rfl (by simp only [failure?, evaluated])
  · intro point
    rw [remembers, remembers]
    exact unreported?_of_harmless rfl rfl

/-- The error at the pole of `1/x` outlives a success, and is handed out once. -/
theorem evaluation_fails_softly_at_a_pole :
    let pole : Point Float := { x := 0, y := 0, z := 0, r := 0 }
    let beyond : Point Float := { x := 1, y := 0, z := 0, r := 1 }
    let tree : Expr := .operation .div (.number ⟨1, 0⟩) (.coordinate .x)
    let formula : Formula := ⟨"1/x", tree, none⟩
    let history : List (Call Float) := [.evaluate pole, .evaluate beyond, .tryEvaluate pole]
    (compile [.x] "1/x" = .ok formula ∧ Scalar.isFinite (0 : Float) = true) ∧
      (formula.answers (history ++ [.takeError, .lastError]))[3]? =
        some (.remembered (some .divisionByZero)) ∧
      (formula.after (history ++ [.takeError])).lastError = none := by
  intro pole beyond tree formula history
  have read : compile [.x] "1/x" = .ok formula := by rfl
  have finiteZero : Scalar.isFinite (0 : Float) = true := by decide
  have fails : formula.failure? (.evaluate pole) = some .divisionByZero := by decide +kernel
  have succeeds : formula.failure? (.evaluate beyond) = none := by decide +kernel
  have unreported : formula.unreported? history = some .divisionByZero := by
    rw [show history = [.evaluate pole] ++ [.evaluate beyond] ++ [.tryEvaluate pole] from rfl,
      unreported?_of_harmless rfl rfl, unreported?_of_harmless rfl succeeds]
    exact unreported?_of_failure [] fails
  obtain ⟨answered, _, _, taken, _⟩ :=
    evaluation_fails_softly read finiteZero history [.lastError]
  refine ⟨⟨read, finiteZero⟩, ?_, taken⟩
  rw [← unreported]
  exact answered .takeError

end Formula

end Electrostatics
