import Electrostatics.Formula.Evaluation
import Electrostatics.Number.Double

namespace Electrostatics.Expr

/-!
# Evaluation on a stack of values

With the operands of every node written before the node, a tree is a sequence of steps.  A
step takes its operands from the top of a stack of values and leaves its result there, and a
run ends with the first step that has none.  The value of a tree is what such a run leaves on
the stack, and its error is that of the step which ends the run.  A run skips nothing, so a
part without a value leaves the whole tree without one.
-/

open scoped Scalar

/-- A step of an evaluation, one for each kind of node. -/
inductive Step where
  | number (value : Decimal)
  | constant (name : Constant)
  | coordinate (name : Coordinate)
  | negation
  | operation (operator : BinaryOperator)
  | call (function : UnaryFunction)
  | callPair (function : BinaryFunction)
  deriving Repr, DecidableEq

/-- The steps of a tree: the operands of a node from left to right, and then the node. -/
def steps : Expr → List Step
  | .number value => [.number value]
  | .constant name => [.constant name]
  | .coordinate name => [.coordinate name]
  | .negation operand => operand.steps ++ [.negation]
  | .operation operator left right => left.steps ++ (right.steps ++ [.operation operator])
  | .call function argument => argument.steps ++ [.call function]
  | .callPair function first second => first.steps ++ (second.steps ++ [.callPair function])

/-- Why a step cannot be taken. -/
inductive Step.Failure where
  /-- The operation has no value at its operands. -/
  | noValue (fault : EvaluationError)
  /-- The stack holds fewer operands than the step takes. -/
  | underflow
  deriving Repr, DecidableEq

variable {α : Type}

/-- Put the result of an operation on the stack. -/
def pushResult
    (result : Except EvaluationError α)
    (stack : List α) :
    Except Step.Failure (List α) :=
  match result with
  | .ok value => .ok (value :: stack)
  | .error fault => .error (.noValue fault)

variable [Scalar α] [Elementary α]

/-- Take a step.  The operand that was computed last lies on top. -/
def Step.take (point : Point α) : Step → List α → Except Step.Failure (List α)
  | .number value, stack => .ok (Scalar.ofDecimal value :: stack)
  | .constant name, stack => .ok (name.value :: stack)
  | .coordinate name, stack => .ok (point.coordinate name :: stack)
  | .negation, operand :: stack => .ok (-operand :: stack)
  | .operation operator, right :: left :: stack => pushResult (operator.apply left right) stack
  | .call function, argument :: stack => pushResult (function.apply argument) stack
  | .callPair function, second :: first :: stack => .ok (function.apply first second :: stack)
  | _, _ => .error .underflow

/-- Take steps one after the other, up to the first one that fails. -/
def run (point : Point α) : List Step → List α → Except Step.Failure (List α)
  | [], stack => .ok stack
  | step :: rest, stack => do
      let next ← step.take point stack
      run point rest next

/-! ## Runs -/

section Runs

variable
  {point : Point α}
  {stack : List α}
  {failure : Step.Failure}

theorem run_singleton
    (point : Point α)
    (step : Step)
    (stack : List α) :
    run point [step] stack = step.take point stack := by
  rw [run]
  cases step.take point stack with
  | error failure => rfl
  | ok next => rfl

/-- A run goes on from the stack that its first part leaves. -/
theorem run_append
    (point : Point α)
    (before after : List Step)
    (stack : List α) :
    run point (before ++ after) stack = run point before stack >>= run point after := by
  induction before generalizing stack with
  | nil => rfl
  | cons step later inductionHypothesis =>
      simp only [List.cons_append, run]
      cases step.take point stack with
      | error failure => rfl
      | ok next => exact inductionHypothesis next

/-- A run fails for the reason of the first step that cannot be taken. -/
theorem run_eq_error_iff
    {steps : List Step} :
    run point steps stack = .error failure ↔
      ∃ before step after reached,
        steps = before ++ step :: after ∧
          run point before stack = .ok reached ∧
          step.take point reached = .error failure := by
  constructor
  · intro ran
    induction steps generalizing stack with
    | nil => cases ran
    | cons step later inductionHypothesis =>
        rw [run] at ran
        cases taken : step.take point stack with
        | error reason =>
            rw [taken] at ran
            exact ⟨[], step, later, stack, rfl, rfl, taken.trans ran⟩
        | ok next =>
            rw [taken] at ran
            obtain ⟨before, failing, after, reached, rfl, ranBefore, failed⟩ :=
              inductionHypothesis ran
            refine ⟨step :: before, failing, after, reached, rfl, ?_, failed⟩
            rw [run, taken]
            exact ranBefore
  · rintro ⟨before, step, after, reached, rfl, ran, failed⟩
    rw [run_append, ran]
    show run point (step :: after) reached = .error failure
    rw [run, failed]
    rfl

end Runs

/-! ## The run of a tree -/

section Results

variable
  {result : Except EvaluationError α}
  {stack : List α}
  {value : α}
  {fault : EvaluationError}

omit [Scalar α] [Elementary α] in
theorem pushResult_eq_ok_iff :
    pushResult result stack = .ok (value :: stack) ↔ result = .ok value := by
  cases result with
  | ok other => simp [pushResult]
  | error other => simp [pushResult]

omit [Scalar α] [Elementary α] in
theorem pushResult_eq_error_iff :
    pushResult result stack = .error (.noValue fault) ↔ result = .error fault := by
  cases result with
  | ok other => simp [pushResult]
  | error other => simp [pushResult]

end Results

/-- The value of the left operand waits on the stack while the right one is computed. -/
theorem run_operands
    {point : Point α}
    {left right : Expr}
    (leftRuns : ∀ stack, run point left.steps stack = pushResult (left.evaluate point) stack)
    (rightRuns : ∀ stack, run point right.steps stack = pushResult (right.evaluate point) stack)
    (step : Step)
    (stack : List α) :
    run point (left.steps ++ (right.steps ++ [step])) stack =
      match left.evaluate point, right.evaluate point with
      | .error fault, _ => .error (.noValue fault)
      | .ok _, .error fault => .error (.noValue fault)
      | .ok first, .ok second => step.take point (second :: first :: stack) := by
  rw [run_append, leftRuns]
  cases left.evaluate point with
  | error fault => rfl
  | ok first =>
      show run point (right.steps ++ [step]) (first :: stack) = _
      rw [run_append, rightRuns]
      cases right.evaluate point with
      | error fault => rfl
      | ok second => exact run_singleton point step (second :: first :: stack)

/-- On every stack the steps of a tree do what pushing its value does. -/
theorem run_steps
    (point : Point α)
    (tree : Expr)
    (stack : List α) :
    run point tree.steps stack = pushResult (tree.evaluate point) stack := by
  induction tree generalizing stack with
  | number value => rfl
  | constant name => rfl
  | coordinate name => rfl
  | negation operand inductionHypothesis =>
      rw [steps, run_append, inductionHypothesis, evaluate]
      cases operand.evaluate point with
      | error fault => rfl
      | ok value => rfl
  | operation operator left right leftHypothesis rightHypothesis =>
      rw [steps, run_operands leftHypothesis rightHypothesis, evaluate]
      cases left.evaluate point with
      | error fault => rfl
      | ok first =>
          cases right.evaluate point with
          | error fault => rfl
          | ok second => rfl
  | call function argument inductionHypothesis =>
      rw [steps, run_append, inductionHypothesis, evaluate]
      cases argument.evaluate point with
      | error fault => rfl
      | ok value => exact run_singleton point (.call function) (value :: stack)
  | callPair function left right leftHypothesis rightHypothesis =>
      rw [steps, run_operands leftHypothesis rightHypothesis, evaluate]
      cases left.evaluate point with
      | error fault => rfl
      | ok first =>
          cases right.evaluate point with
          | error fault => rfl
          | ok second => rfl

/-! ## The parts of a tree -/

/-- A tree that occurs in a tree. -/
inductive IsPartOf : (part tree : Expr) → Prop where
  | whole (tree : Expr) : IsPartOf tree tree
  | negation
      {part operand : Expr} :
      IsPartOf part operand →
      IsPartOf part (.negation operand)
  | left
      {part left : Expr}
      (operator : BinaryOperator)
      (right : Expr) :
      IsPartOf part left →
      IsPartOf part (.operation operator left right)
  | right
      {part right : Expr}
      (operator : BinaryOperator)
      (left : Expr) :
      IsPartOf part right →
      IsPartOf part (.operation operator left right)
  | argument
      {part argument : Expr}
      (function : UnaryFunction) :
      IsPartOf part argument →
      IsPartOf part (.call function argument)
  | first
      {part first : Expr}
      (function : BinaryFunction)
      (second : Expr) :
      IsPartOf part first →
      IsPartOf part (.callPair function first second)
  | second
      {part second : Expr}
      (function : BinaryFunction)
      (first : Expr) :
      IsPartOf part second →
      IsPartOf part (.callPair function first second)

section Parts

variable {part tree : Expr}

/-- The steps of a part stand in one piece among those of the tree. -/
theorem IsPartOf.steps_eq (isPart : part.IsPartOf tree) :
    ∃ before after, tree.steps = before ++ part.steps ++ after := by
  induction isPart with
  | whole => exact ⟨[], [], (List.append_nil _).symm⟩
  | negation _ inductionHypothesis =>
      obtain ⟨before, after, found⟩ := inductionHypothesis
      exact ⟨before, after ++ [.negation], by simp [steps, found]⟩
  | left operator right _ inductionHypothesis =>
      obtain ⟨before, after, found⟩ := inductionHypothesis
      exact
        ⟨before, after ++ (right.steps ++ [.operation operator]), by simp [steps, found]⟩
  | right operator left _ inductionHypothesis =>
      obtain ⟨before, after, found⟩ := inductionHypothesis
      exact ⟨left.steps ++ before, after ++ [.operation operator], by simp [steps, found]⟩
  | argument function _ inductionHypothesis =>
      obtain ⟨before, after, found⟩ := inductionHypothesis
      exact ⟨before, after ++ [.call function], by simp [steps, found]⟩
  | first function second _ inductionHypothesis =>
      obtain ⟨before, after, found⟩ := inductionHypothesis
      exact
        ⟨before, after ++ (second.steps ++ [.callPair function]), by simp [steps, found]⟩
  | second function first _ inductionHypothesis =>
      obtain ⟨before, after, found⟩ := inductionHypothesis
      exact ⟨first.steps ++ before, after ++ [.callPair function], by simp [steps, found]⟩

variable
  {point : Point α}
  {before after : List Step}
  {stack : List α}
  {fault : EvaluationError}

/-- A part that is reached and has no value decides the error of the tree. -/
theorem evaluate_of_part_reached
    (placed : tree.steps = before ++ part.steps ++ after)
    (reached : run point before [] = .ok stack)
    (failed : part.evaluate point = .error fault) :
    tree.evaluate point = .error fault := by
  have ran : run point tree.steps [] = .error (.noValue fault) := by
    rw [placed, List.append_assoc, run_append, reached]
    show run point (part.steps ++ after) stack = _
    rw [run_append, run_steps, failed]
    rfl
  rw [run_steps] at ran
  exact pushResult_eq_error_iff.mp ran

/-- A part that is not reached stands behind the step that ends the run. -/
theorem evaluate_of_part_not_reached
    {failure : Step.Failure}
    (placed : tree.steps = before ++ part.steps ++ after)
    (stopped : run point before [] = .error failure) :
    ∃ first, tree.evaluate point = .error first := by
  have ran : run point tree.steps [] = .error failure := by
    rw [placed, List.append_assoc, run_append, stopped]
    rfl
  rw [run_steps] at ran
  cases evaluated : tree.evaluate point with
  | error first => exact ⟨first, rfl⟩
  | ok value =>
      rw [evaluated] at ran
      cases ran

end Parts

/--
Evaluation is strict, goes from left to right and reports the first failure.  A tree has a
value exactly when every one of its steps can be taken and that value is left alone on the
stack, and it has an error exactly when some step cannot be taken and the first such step has
that error.  The steps of a part stand in one piece among those of the tree.  So a part without
a value always leaves the tree without one, whatever is made of it, and with the error of that
part if the run reaches it.
-/
theorem evaluation_runs_on_a_stack
    (point : Point α)
    (tree : Expr) :
    (∀ value, tree.evaluate point = .ok value ↔ run point tree.steps [] = .ok [value]) ∧
    (∀ fault,
      tree.evaluate point = .error fault ↔
        ∃ before step after stack,
          tree.steps = before ++ step :: after ∧
            run point before [] = .ok stack ∧
            step.take point stack = .error (.noValue fault)) ∧
    ∀ part : Expr,
      part.IsPartOf tree →
      (∃ before after, tree.steps = before ++ part.steps ++ after) ∧
        ∀ fault,
          part.evaluate point = .error fault →
          (∃ first, tree.evaluate point = .error first) ∧
            ∀ before after stack,
              tree.steps = before ++ part.steps ++ after →
              run point before [] = .ok stack →
              tree.evaluate point = .error fault := by
  refine ⟨fun value => ?_, fun fault => ?_, fun part isPart => ?_⟩
  · rw [run_steps, pushResult_eq_ok_iff]
  · rw [← run_eq_error_iff, run_steps, pushResult_eq_error_iff]
  · obtain ⟨before, after, placed⟩ := isPart.steps_eq
    refine ⟨⟨before, after, placed⟩, fun fault failed => ⟨?_, ?_⟩⟩
    · cases ran : run point before [] with
      | error failure => exact evaluate_of_part_not_reached placed ran
      | ok stack => exact ⟨fault, evaluate_of_part_reached placed ran failed⟩
    · intro _ _ _ placed reached
      exact evaluate_of_part_reached placed reached failed

/-- A root without a value fails `0*sqrt(x)+1/y`, before the quotient that fails as well. -/
theorem root_times_zero_fails_first :
    let point : Point Float := { x := -1, y := 0, z := 0, r := 0 }
    let root : Expr := .call .sqrt (.coordinate .x)
    let quotient : Expr := .operation .div (.number ⟨1, 0⟩) (.coordinate .y)
    let tree : Expr := .operation .add (.operation .mul (.number ⟨0, 0⟩) root) quotient
    (quotient.IsPartOf tree ∧ quotient.evaluate point = .error .divisionByZero) ∧
      (∃ first, tree.evaluate point = .error first) ∧
      root.evaluate point = .error (.outsideDomain .sqrt) ∧
      tree.evaluate point = .error (.outsideDomain .sqrt) := by
  intro point root quotient tree
  obtain ⟨-, fails, strict⟩ := evaluation_runs_on_a_stack point tree
  have isPart : quotient.IsPartOf tree := .right _ _ (.whole quotient)
  have divides : quotient.evaluate point = .error .divisionByZero :=
    if_pos (show ((0 : Float) == 0) = true by decide +kernel)
  have outside : UnaryFunction.sqrt.apply point.x = .error (.outsideDomain .sqrt) := by
    rw [UnaryFunction.apply, UnaryFunction.unless, if_pos]
    exact decide_eq_true (show point.x < 0 by decide +kernel)
  obtain ⟨failed, -⟩ := (strict quotient isPart).2 _ divides
  refine ⟨⟨isPart, divides⟩, failed, outside, ?_⟩
  refine
    (fails _).mpr
      ⟨[.number ⟨0, 0⟩, .coordinate .x], .call .sqrt, _, [point.x, Scalar.ofDecimal ⟨0, 0⟩],
        rfl, rfl, ?_⟩
  show pushResult (UnaryFunction.sqrt.apply point.x) [Scalar.ofDecimal ⟨0, 0⟩] = _
  rw [outside]
  rfl

end Electrostatics.Expr
