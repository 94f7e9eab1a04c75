/-
  Abacus/Eval.lean
  ================
  **Evaluation of a whole program.**  A program starts without bindings and without calls
  in progress, and has room for a thousand nested expressions.  Running out of room is
  reported like too many nested calls.
-/
import Abacus.Eval.Interpret

namespace Abacus.Eval

/-- How many expressions may be nested into one another. -/
def maxRoom : Nat := 1000

/-- Why a program has no value. -/
inductive Failure where
  | error (e : EvalError)
  | fault (f : Fault)
deriving DecidableEq, Repr

/-- What came of a program: its value or why it has none, the scope it left behind and
    the calls it made, in order. -/
structure Run where
  result : Except Failure Float
  scope : Scope
  calls : List Call

/-- What a stop means for a program run with a limit. -/
def Stop.failure (limit : Nat) : Stop → Failure
  | .error e => .error e
  | .outOfRoom within => .error (.depthExceeded within limit)
  | .fault f => .fault f

/-- Evaluates a program with a limit on nested calls. -/
def evaluate (limit : Nat) (e : Expr) : Run :=
  match interpret limit maxRoom none e ⟨.empty, 0, []⟩ with
  | (.ok value, st) => ⟨.ok value, st.scope, st.calls.reverse⟩
  | (.error stop, st) => ⟨.error (stop.failure limit), st.scope, st.calls.reverse⟩

end Abacus.Eval
