import Electrostatics.Formula.Parser

namespace Electrostatics.Grammar

/-!
# The grammar of formulas

The phrases of a formula, loosest binding first:

```text
sum     := product | sum ('+' | '-') product
product := unary | product ('*' | '/') unary
unary   := power | ('-' | '+') unary
power   := primary | primary ('^' | '**') unary
primary := number | coordinate | constant | '(' sum ')'
         | name '(' sum ')' | name '(' sum ',' sum ')'
```

The grammar is a relation between tokens and trees.  It knows neither positions nor
the machine that reads a formula, so it can say what that machine accepts.
-/

/-- The kinds of phrases, loosest binding first. -/
inductive Category where
  | sum
  | product
  | unary
  | power
  | primary
  deriving Repr, DecidableEq

/-- The place of a category among the categories, loosest binding first. -/
def Category.rank : Category → Nat
  | .sum => 1
  | .product => 2
  | .unary => 3
  | .power => 4
  | .primary => 5

/-- The operator that a token between two operands stands for. -/
def operator? : Token → Option BinaryOperator
  | .plus => some .add
  | .minus => some .sub
  | .star => some .mul
  | .slash => some .div
  | .caret => some .pow
  | .doubleStar => some .pow
  | _ => none

/-- The phrase that an operator forms. -/
def formed : BinaryOperator → Category
  | .add => .sum
  | .sub => .sum
  | .mul => .product
  | .div => .product
  | .pow => .power

/-- The phrase on the left of an operator; a sum or product may itself end there. -/
def leftOperand : BinaryOperator → Category
  | .add => .sum
  | .sub => .sum
  | .mul => .product
  | .div => .product
  | .pow => .primary

/-- The phrase on the right of an operator; an exponent may be signed and a power itself. -/
def rightOperand : BinaryOperator → Category
  | .add => .product
  | .sub => .product
  | .mul => .unary
  | .div => .unary
  | .pow => .unary

/-- The function that a callable names in front of one argument. -/
def ofOneArgument? : Callable → Option UnaryFunction
  | .unary function => some function
  | .atan2 => none
  | .sign => some .sgn

/-- The function that a callable names in front of two arguments. -/
def ofTwoArguments? : Callable → Option BinaryFunction
  | .unary _ => none
  | .atan2 => some .atan2
  | .sign => some .sign

/--
The tokens of a phrase and the tree they stand for, where only some coordinates are
bound.  A prefixed plus and brackets around a sum leave no trace in the tree.
-/
inductive Derives (bound : List Coordinate) : Category → List Token → Expr → Prop where
  | sumOfProduct
      {tokens : List Token}
      {tree : Expr} :
      Derives bound .product tokens tree →
      Derives bound .sum tokens tree
  | productOfUnary
      {tokens : List Token}
      {tree : Expr} :
      Derives bound .unary tokens tree →
      Derives bound .product tokens tree
  | unaryOfPower
      {tokens : List Token}
      {tree : Expr} :
      Derives bound .power tokens tree →
      Derives bound .unary tokens tree
  | powerOfPrimary
      {tokens : List Token}
      {tree : Expr} :
      Derives bound .primary tokens tree →
      Derives bound .power tokens tree
  | operation
      {operator : BinaryOperator}
      {sign : Token}
      {leftTokens rightTokens : List Token}
      {left right : Expr} :
      operator? sign = some operator →
      Derives bound (leftOperand operator) leftTokens left →
      Derives bound (rightOperand operator) rightTokens right →
      Derives bound (formed operator) (leftTokens ++ sign :: rightTokens)
        (.operation operator left right)
  | negative
      {tokens : List Token}
      {tree : Expr} :
      Derives bound .unary tokens tree →
      Derives bound .unary (.minus :: tokens) (.negation tree)
  | positive
      {tokens : List Token}
      {tree : Expr} :
      Derives bound .unary tokens tree →
      Derives bound .unary (.plus :: tokens) tree
  | number (value : Decimal) :
      Derives bound .primary [.number value] (.number value)
  | coordinate
      {name : String}
      {coordinate : Coordinate} :
      Meaning.named? name = some (.coordinate coordinate) →
      coordinate ∈ bound →
      Derives bound .primary [.identifier name] (.coordinate coordinate)
  | constant
      {name : String}
      {constant : Constant} :
      Meaning.named? name = some (.constant constant) →
      Derives bound .primary [.identifier name] (.constant constant)
  | group
      {tokens : List Token}
      {tree : Expr} :
      Derives bound .sum tokens tree →
      Derives bound .primary (.leftParenthesis :: tokens ++ [.rightParenthesis]) tree
  | callOne
      {name : String}
      {callable : Callable}
      {function : UnaryFunction}
      {tokens : List Token}
      {argument : Expr} :
      Meaning.named? name = some (.callable callable) →
      ofOneArgument? callable = some function →
      Derives bound .sum tokens argument →
      Derives bound .primary
        (.identifier name :: .leftParenthesis :: tokens ++ [.rightParenthesis])
        (.call function argument)
  | callTwo
      {name : String}
      {callable : Callable}
      {function : BinaryFunction}
      {firstTokens secondTokens : List Token}
      {first second : Expr} :
      Meaning.named? name = some (.callable callable) →
      ofTwoArguments? callable = some function →
      Derives bound .sum firstTokens first →
      Derives bound .sum secondTokens second →
      Derives bound .primary
        (.identifier name :: .leftParenthesis ::
          firstTokens ++ .comma :: secondTokens ++ [.rightParenthesis])
        (.callPair function first second)

namespace Derives

variable
  {bound : List Coordinate}
  {category : Category}
  {tokens : List Token}
  {tree : Expr}

/-- A primary phrase is a phrase of every category. -/
theorem ofPrimary
    (derived : Derives bound .primary tokens tree)
    (category : Category) :
    Derives bound category tokens tree := by
  have power := Derives.powerOfPrimary derived
  have unary := Derives.unaryOfPower power
  have product := Derives.productOfUnary unary
  cases category with
  | sum => exact .sumOfProduct product
  | product => exact product
  | unary => exact unary
  | power => exact power
  | primary => exact derived

/-- A phrase of any category is a sum. -/
theorem toSum
    (derived : Derives bound category tokens tree) :
    Derives bound .sum tokens tree := by
  cases category with
  | sum => exact derived
  | product => exact .sumOfProduct derived
  | unary => exact .sumOfProduct (.productOfUnary derived)
  | power => exact .sumOfProduct (.productOfUnary (.unaryOfPower derived))
  | primary => exact derived.ofPrimary .sum

/-- No phrase is empty. -/
theorem tokens_ne_nil
    (derived : Derives bound category tokens tree) :
    tokens ≠ [] := by
  induction derived with
  | sumOfProduct _ inductionHypothesis => exact inductionHypothesis
  | productOfUnary _ inductionHypothesis => exact inductionHypothesis
  | unaryOfPower _ inductionHypothesis => exact inductionHypothesis
  | powerOfPrimary _ inductionHypothesis => exact inductionHypothesis
  | _ => simp

end Derives

end Electrostatics.Grammar
