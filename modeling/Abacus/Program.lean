/-
  Abacus/Program.lean
  ===================
  **Running a source.**  Reading, settings and evaluation put together, with the log
  records each part makes, in order.  The depth is looked up only once the source has been
  read, so a source that cannot be read is reported before a bad depth is.
-/
import Abacus.Eval
import Abacus.Expr.Print
import Abacus.Number.Text
import Abacus.Parse
import Abacus.Settings

namespace Abacus.Program

/-! ### Records -/

/-- What there is to say once a source has been cut into tokens. -/
def countRecords (verbose : Bool) (reading : Parse.Reading) : List Record :=
  match verbose, reading.tokenCount with
  | true, some n => [⟨.debug, .reader, "Tokenized " ++ toString n ++ " tokens"⟩]
  | _, _ => []

/-- What there is to say once it has been read.  Whether a tree is too high to be shown is
    for those to decide who show it. -/
def treeRecords (verbose : Bool) (reading : Parse.Reading) : List Record :=
  match verbose, reading.tree with
  | true, .ok e => [⟨.debug, .reader, "Parsed: " ++ e.text⟩]
  | _, _ => []

/-- What reading a source has to say. -/
def readRecords (verbose : Bool) (reading : Parse.Reading) : List Record :=
  countRecords verbose reading ++ treeRecords verbose reading

/-- Arguments in brackets.  A lone one is followed by a comma. -/
def argumentText : List Float → String
  | [x] => "(" ++ Number.traced x ++ ",)"
  | xs => "(" ++ ", ".intercalate (xs.map Number.traced) ++ ")"

/-- What a call has to say. -/
def callRecord (call : Eval.Call) : Record :=
  ⟨.debug, .evaluator,
    "Calling " ++ call.function ++ argumentText call.args ++ " at depth " ++ toString call.depth⟩

/-- What the calls of a run have to say. -/
def callRecords (verbose : Bool) (run : Eval.Run) : List Record :=
  if verbose then run.calls.map callRecord else []

/-! ### Evaluation under settings -/

/-- Why a program is not even started. -/
inductive Refusal where
  /-- The scope to evaluate in already has bindings. -/
  | scopeInUse
  | setting (e : Settings.Error)
deriving DecidableEq, Repr

/-- The wording of a refusal. -/
def Refusal.message : Refusal → String
  | .scopeInUse => "evaluate() needs an empty scope; bindings never outlive a call"
  | .setting e => e.message

/-- How programs are run. -/
structure Options where
  environment : Environment
  depth : Option Int
  verbose : Bool
deriving DecidableEq, Repr

/-- Evaluates a tree in a scope, which has to be empty, with the depth in force. -/
def evaluateIn (options : Options) (scope : Scope) (e : Expr) :
    Except Refusal Eval.Run × List Record :=
  if !scope.isEmpty then (.error .scopeInUse, [])
  else match Settings.maxDepth options.environment options.depth with
    | (.error e, records) => (.error (.setting e), records)
    | (.ok limit, records) =>
      let run := Eval.evaluate limit e
      (.ok run, records ++ callRecords options.verbose run)

/-! ### Sources -/

/-- What came of a source. -/
inductive Result where
  | value (x : Float)
  | rejected (r : Rejection)
  | refused (r : Refusal)
  | failed (f : Eval.Failure)
deriving DecidableEq, Repr

/-- The result of a run. -/
def Result.ofRun (run : Eval.Run) : Result :=
  match run.result with
  | .ok x => .value x
  | .error f => .failed f

/-- Reads a source and evaluates it in an empty scope. -/
def run (options : Options) (source : String) : Result × List Record :=
  let reading := Parse.read source
  let readRecords := readRecords options.verbose reading
  match reading.tree with
  | .error r => (.rejected r, readRecords)
  | .ok e =>
    match evaluateIn options .empty e with
    | (.error r, records) => (.refused r, readRecords ++ records)
    | (.ok run, records) => (.ofRun run, readRecords ++ records)

end Abacus.Program
