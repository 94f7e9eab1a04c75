/-
  Abacus/Eval/Arithmetic.lean
  ===========================
  **Arithmetic.**  Operators act on doubles and round to nearest.  Division is that of
  the standard for floating-point numbers also where the divisor is zero: the quotient is
  then an infinity whose sign comes from both operands, and not a number if the dividend
  is zero or not a number itself.  Plain division is only asked for other divisors.
-/
import Abacus.Expr
import Abacus.Fault
import Abacus.Number.Binary64

namespace Abacus

/-- Division by anything but zero. -/
def plainDivide (x y : Float) : Except Fault Float :=
  if y == 0.0 then .error .zeroDivisor else .ok (x / y)

/-- Division by a zero, whose sign counts. -/
def divideByZero (x zero : Float) : Float :=
  if x == 0.0 || x.isNaN then Binary64.nan
  else if Binary64.isNegative x = Binary64.isNegative zero then Binary64.infinity
  else -Binary64.infinity

/-- Division. -/
def divide (x y : Float) : Except Fault Float :=
  if y == 0.0 then .ok (divideByZero x y) else plainDivide x y

/-- The value of an operator on two numbers. -/
def Operator.apply : Operator → Float → Float → Except Fault Float
  | .add, x, y => .ok (x + y)
  | .sub, x, y => .ok (x - y)
  | .mul, x, y => .ok (x * y)
  | .div, x, y => divide x y

end Abacus
