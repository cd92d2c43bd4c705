import Electrostatics.Decimal.Numeral
import Electrostatics.Formula.Vocabulary

namespace Electrostatics

/-!
# Syntax trees of formulas

A tree keeps the numbers of the formula as exact decimals.  It belongs to no number
type, so one tree can be evaluated in doubles and reasoned about over a field.
-/

/-- The syntax tree of a formula. -/
inductive Expr where
  | number (value : Decimal)
  | constant (name : Constant)
  | coordinate (name : Coordinate)
  | negation (operand : Expr)
  | operation (operator : BinaryOperator) (left right : Expr)
  | call (function : UnaryFunction) (argument : Expr)
  | callPair (function : BinaryFunction) (first second : Expr)
  deriving Repr, DecidableEq

namespace Expr

/-- Whether a coordinate occurs in a tree. -/
def references (wanted : Coordinate) : Expr → Bool
  | .number _ => false
  | .constant _ => false
  | .coordinate name => name == wanted
  | .negation operand => operand.references wanted
  | .operation _ left right => left.references wanted || right.references wanted
  | .call _ argument => argument.references wanted
  | .callPair _ first second => first.references wanted || second.references wanted

/-- The coordinates that occur in a tree, in the order in which coordinates are listed. -/
def referenced (tree : Expr) : List Coordinate :=
  Coordinate.all.filter (fun coordinate => tree.references coordinate)

end Expr

/-- The call of a callable, when the number of arguments suits it. -/
def Callable.call? : Callable → List Expr → Option Expr
  | .unary function, [argument] => some (.call function argument)
  | .atan2, [first, second] => some (.callPair .atan2 first second)
  | .sign, [argument] => some (.call .sgn argument)
  | .sign, [first, second] => some (.callPair .sign first second)
  | _, _ => none

end Electrostatics
