/-
  Abacus/Expr/Print.lean
  ======================
  **The text of a tree.**  Every operation is put in brackets, so that no reading of the
  text has to know which operator binds tighter.  Writing the text takes room for every
  expression that is nested into another, so a tree that is too high cannot be shown.
-/
import Abacus.Expr
import Abacus.Number.Text

namespace Abacus.Expr

mutual

/-- The text of an expression. -/
def text : Expr → String
  | .num value => Number.literal value
  | .var name => name
  | .neg operand => "-" ++ operand.text
  | .bin op left right => "(" ++ left.text ++ " " ++ op.symbol ++ " " ++ right.text ++ ")"
  | .call function args => function ++ "(" ++ textAll args ++ ")"
  | .letIn name value next => "let " ++ name ++ " = " ++ value.text ++ "; " ++ next.text
  | .fnIn name params body next =>
    "fn " ++ " ".intercalate (name :: params) ++ " = " ++ body.text ++ "; " ++ next.text

/-- The texts of expressions, with a comma between neighbours. -/
def textAll : List Expr → String
  | [] => ""
  | [e] => e.text
  | e :: rest => e.text ++ ", " ++ textAll rest

end

mutual

/-- How many expressions are nested into one another. -/
def height : Expr → Nat
  | .num _ | .var _ => 1
  | .neg operand => operand.height + 1
  | .bin _ left right => max left.height right.height + 1
  | .call _ args => heightAll args + 1
  | .letIn _ value next => max value.height next.height + 1
  | .fnIn _ _ body next => max body.height next.height + 1

def heightAll : List Expr → Nat
  | [] => 0
  | e :: rest => max e.height (heightAll rest)

end

/-- The height up to which trees can be shown. -/
def maxShown : Nat := 330

def isShowable (e : Expr) : Bool :=
  e.height ≤ maxShown

end Abacus.Expr
