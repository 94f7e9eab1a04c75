/-
  Abacus/Eval/Error.lean
  ======================
  **Why an expression has no value.**  An error is a cause with its data; its wording
  follows from the cause.  Two errors are equal when cause and data are.
-/
import Abacus.Text.Quoted

namespace Abacus

/-- The ways an evaluation fails. -/
inductive EvalError where
  /-- A variable that nothing binds. -/
  | unboundVariable (name : String)
  /-- A call of a function that nothing defines. -/
  | undefinedFunction (name : String)
  /-- A call with another number of arguments than the function has parameters. -/
  | arityMismatch (name : String) (expected found : Int)
  /-- Calls nested deeper than the limit, at the call of `function`; without one, an
      expression that nests too deeply outside all calls. -/
  | depthExceeded (function : Option String) (limit : Int)
  /-- Any other cause, in words. -/
  | other (message : String)
deriving DecidableEq, Repr

namespace EvalError

/-- The wording of an error. -/
def message : EvalError → String
  | unboundVariable name => "Cannot find variable `" ++ name ++ "` in scope"
  | undefinedFunction name => "Cannot find function `" ++ name ++ "` in scope"
  | arityMismatch name expected found =>
    "Wrong number of arguments for function `" ++ name ++ "`: expected " ++ toString expected ++
      ", found " ++ toString found
  | depthExceeded (some function) limit =>
    "Recursion limit of " ++ toString limit ++ " exceeded while calling function `" ++ function ++ "`"
  | depthExceeded none limit =>
    "Expression nested too deeply to evaluate (limit " ++ toString limit ++ ")"
  | other message => message

/-- The name of a cause. -/
def kind : EvalError → String
  | unboundVariable _ => "UnboundVariable"
  | undefinedFunction _ => "UndefinedFunction"
  | arityMismatch .. => "ArityMismatch"
  | depthExceeded .. => "RecursionLimitExceeded"
  | other _ => "EvalError"

/-- The data of an error, as text. -/
def data : EvalError → List String
  | unboundVariable name | undefinedFunction name => [Text.quoted name]
  | arityMismatch name expected found => [Text.quoted name, toString expected, toString found]
  | depthExceeded function limit => [(function.map Text.quoted).getD "None", toString limit]
  | other message => [Text.quoted message]

/-- An error with its cause and data. -/
def inspect (e : EvalError) : String :=
  e.kind ++ "(" ++ ", ".intercalate e.data ++ ")"

end EvalError
end Abacus
