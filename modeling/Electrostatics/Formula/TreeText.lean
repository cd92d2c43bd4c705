import Electrostatics.Formula.Expr
import Electrostatics.Number.Double

namespace Electrostatics

/-!
# The text of a syntax tree

A tree is written with the operator first and brackets around every compound term,
so its text shows exactly how a formula was grouped.
-/

/-- The text of a constant: the double it stands for. -/
def Constant.text (name : Constant) : String :=
  match name with
  | .circleRatio => doubleText Elementary.circleRatio
  | .naturalBase => doubleText Elementary.naturalBase

/-- Append the text of a tree to what is written so far. -/
def Expr.writeOnto (written : String) : Expr → String
  | .number value => written ++ doubleText (Scalar.ofDecimal value)
  | .constant name => written ++ name.text
  | .coordinate name => written ++ name.name
  | .negation operand => (operand.writeOnto (written ++ "(neg ")).push ')'
  | .operation operator left right =>
      let first := left.writeOnto (written ++ "(" ++ operator.text ++ " ")
      (right.writeOnto (first.push ' ')).push ')'
  | .call function argument =>
      (argument.writeOnto (written ++ "(" ++ function.name ++ " ")).push ')'
  | .callPair function first second =>
      let left := first.writeOnto (written ++ "(" ++ function.name ++ " ")
      (second.writeOnto (left.push ' ')).push ')'

/-- The text of a tree. -/
def Expr.text (tree : Expr) : String :=
  tree.writeOnto ""

end Electrostatics
