import Electrostatics.Formula.Parser

namespace Electrostatics

/-!
# Displaced tokens

The machine takes its steps for what a token is and not for where it stands.  The same tokens at
other places lead to the same tree, or are refused for the same reason: an error tells of places
only in its byte offset.
-/

/-- An error without the byte offset of what it reports. -/
def ParseError.unplaced : ParseError → ParseError
  | .unknownSymbol name _ => .unknownSymbol name 0
  | .unexpectedCharacter found _ => .unexpectedCharacter found 0
  | .unexpectedToken found expected _ => .unexpectedToken found expected 0
  | fault => fault

namespace Parser

/-- The same result twice, or two errors that differ in their byte offsets at most. -/
inductive Agree {β : Type} :
    Except ParseError β →
    Except ParseError β →
    Prop where
  | ok (result : β) : Agree (.ok result) (.ok result)
  | error
      {first second : ParseError} :
      first.unplaced = second.unplaced →
      Agree (.error first) (.error second)

theorem Agree.refl
    {β : Type}
    (outcome : Except ParseError β) :
    Agree outcome outcome := by
  cases outcome with
  | ok result => exact .ok result
  | error _ => exact .error rfl

theorem Agree.outcomes
    {β : Type}
    {first second : Except ParseError β}
    (agree : Agree first second) :
    (∃ result, first = .ok result ∧ second = .ok result) ∨
      ∃ fault other,
        first = .error fault ∧ second = .error other ∧ fault.unplaced = other.unplaced := by
  cases agree with
  | ok result => exact .inl ⟨result, rfl, rfl⟩
  | error same => exact .inr ⟨_, _, rfl, rfl, same⟩

variable
  (bound : List Coordinate)
  (state : State)
  (token : Token)
  (position moved : Nat)

theorem stepName_agree (name : String) :
    Agree (stepName bound state name position) (stepName bound state name moved) := by
  unfold stepName
  split
  case h_1 =>
    split
    case isTrue => exact .ok _
    case isFalse => exact .error rfl
  case h_2 => exact .ok _
  case h_3 => exact .ok _
  case h_4 => exact .error rfl

theorem stepOperand_agree :
    Agree (stepOperand bound state ⟨token, position⟩)
      (stepOperand bound state ⟨token, moved⟩) := by
  cases token with
  | number _ => exact .ok _
  | leftParenthesis => exact .ok _
  | minus => exact .ok _
  | plus => exact .ok _
  | identifier name => exact stepName_agree bound state position moved name
  | _ => exact .error rfl

theorem stepOperator_agree (value : Expr) :
    Agree (stepOperator state value ⟨token, position⟩)
      (stepOperator state value ⟨token, moved⟩) := by
  rcases state with ⟨opened, waiting, phase⟩
  cases token with
  | plus => exact .ok _
  | minus => exact .ok _
  | star => exact .ok _
  | slash => exact .ok _
  | caret => exact .ok _
  | doubleStar => exact .ok _
  | rightParenthesis =>
      rcases opened with _ | ⟨⟨_ | ⟨callable, given⟩, outside⟩, outer⟩
      · exact .error rfl
      · exact .ok _
      · exact .refl (closeCall callable _ outer outside)
  | comma =>
      rcases opened with _ | ⟨⟨_ | ⟨callable, given⟩, outside⟩, outer⟩
      · exact .error rfl
      · exact .error rfl
      · exact .ok _
  | _ => exact .error rfl

/-- One step takes a displaced token as it takes the token itself. -/
theorem step_agree :
    Agree (step bound state ⟨token, position⟩) (step bound state ⟨token, moved⟩) := by
  rcases state with ⟨opened, waiting, phase⟩
  cases phase with
  | operand => exact stepOperand_agree bound _ token position moved
  | firstArgument =>
      by_cases closes : token = .rightParenthesis
      · subst closes
        rcases opened with _ | ⟨⟨_ | ⟨callable, given⟩, outside⟩, outer⟩
        · exact .error rfl
        · exact .error rfl
        · exact .refl (closeCall callable given outer outside)
      · have likeOperand : ∀ place,
            step bound ⟨opened, waiting, .firstArgument⟩ ⟨token, place⟩ =
              stepOperand bound ⟨opened, waiting, .firstArgument⟩ ⟨token, place⟩ := by
          intro place
          cases token with
          | rightParenthesis => exact absurd rfl closes
          | _ => rfl
        rw [likeOperand, likeOperand]
        exact stepOperand_agree bound _ token position moved
  | argumentList callable =>
      cases token with
      | leftParenthesis => exact .ok _
      | _ => exact .error rfl
  | operator value => exact stepOperator_agree _ token position moved value

variable {first second : List PlacedToken}

/-- So does a whole run. -/
theorem run_agree (same : first.map PlacedToken.token = second.map PlacedToken.token) :
    Agree (run bound state first) (run bound state second) := by
  induction first generalizing state second with
  | nil =>
      obtain rfl := List.map_eq_nil_iff.mp same.symm
      exact .ok state
  | cons placed rest inductionHypothesis =>
      rcases placed with ⟨token, position⟩
      obtain ⟨⟨other, moved⟩, others, rfl, sameToken, sameRest⟩ :=
        List.map_eq_cons_iff.mp same.symm
      obtain rfl : other = token := sameToken
      rcases (step_agree bound state other position moved).outcomes with
          ⟨next, taken, takenMoved⟩ | ⟨fault, faultMoved, failed, failedMoved, sameFault⟩
      · simp only [run, taken, takenMoved]
        exact inductionHypothesis next sameRest.symm
      · simp only [run, failed, failedMoved]
        exact .error sameFault

/-- Displaced tokens are read as the same tree, or refused for the same reason. -/
theorem parse_agree (same : first.map PlacedToken.token = second.map PlacedToken.token) :
    Agree (parse bound first) (parse bound second) := by
  have sameEnd : first.isEmpty = second.isEmpty := by
    rw [← List.isEmpty_map (f := PlacedToken.token), same, List.isEmpty_map]
  unfold parse
  rw [sameEnd]
  split
  case isTrue => exact .error rfl
  case isFalse =>
    rcases (run_agree bound State.start same).outcomes with
        ⟨final, ran, ranMoved⟩ | ⟨fault, faultMoved, failed, failedMoved, sameFault⟩
    · simp only [ran, ranMoved]
      exact .refl (finish final)
    · simp only [failed, failedMoved]
      exact .error sameFault

end Parser

end Electrostatics
