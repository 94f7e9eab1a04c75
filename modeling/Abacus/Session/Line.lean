/-
  Abacus/Session/Line.lean
  ========================
  **Running one line.**  A line is read, its tree shown if asked for, and its value
  printed; what goes wrong is printed on the error channel.  Lines do not see one
  another's declarations.

  Two things keep a line that can be read from being answered: a tree that is to be shown
  or logged and is too high for it, and a depth that cannot be taken.  The depth is looked
  up last, when the tree has been shown.
-/
import Abacus.Diagnostic.Render
import Abacus.Program
import Abacus.Text.Tabs

namespace Abacus.Session

/-! ### Printing -/

/-- What was printed on the two channels. -/
structure Printed where
  out : String
  err : String
deriving DecidableEq, Repr

namespace Printed

def nothing : Printed := ⟨"", ""⟩

def append (a b : Printed) : Printed :=
  ⟨a.out ++ b.out, a.err ++ b.err⟩

instance : Append Printed := ⟨append⟩

/-- A text as a line: its tabs are filled up with spaces. -/
def line (text : String) : String :=
  Text.expandTabs text ++ "\n"

def onOut (text : String) : Printed := ⟨line text, ""⟩

def onErr (text : String) : Printed := ⟨"", line text⟩

/-- All that is wrong with a source. -/
def rejection (source : String) (r : Rejection) : Printed :=
  r.diagnostics.foldl (fun printed d => printed ++ onErr (d.render source).text) nothing

def failure : Eval.Failure → Printed
  | .error e => onErr e.render.text
  | .fault _ => nothing

end Printed

/-! ### Lines -/

/-- How lines are run, and whether their trees are shown. -/
structure Options extends Program.Options where
  showTree : Bool
deriving DecidableEq, Repr

/-- Whether the text of a tree is asked for, on the output channel or in the log. -/
def Options.tellsTree (options : Options) : Bool :=
  options.showTree || options.verbose

/-- Why a line is not answered. -/
inductive Mishap where
  /-- The tree is too high to be shown. -/
  | treeTooHigh
  | refused (r : Program.Refusal)
deriving DecidableEq, Repr

def Mishap.message : Mishap → String
  | .treeTooHigh => "maximum recursion depth exceeded"
  | .refused r => r.message

/-- What came of a line: whether it has a value, if it is answered at all, what was printed,
    and the log records. -/
structure LineRun where
  answer : Except Mishap Bool
  printed : Printed
  records : List Record

/-- What a tree prints before it is evaluated. -/
def treeEcho (options : Options) (e : Expr) : Printed :=
  if options.showTree then .onOut ("AST: " ++ e.text) else .nothing

/-- Runs the tree of a line that has been read. -/
def runTree (options : Options) (e : Expr) : LineRun :=
  match Program.evaluateIn options.toOptions .empty e with
  | (.error refusal, records) => ⟨.error (.refused refusal), treeEcho options e, records⟩
  | (.ok run, records) =>
    match run.result with
    | .ok x => ⟨.ok true, treeEcho options e ++ .onOut (Number.result x), records⟩
    | .error f => ⟨.ok false, treeEcho options e ++ .failure f, records⟩

def runLine (options : Options) (line : String) : LineRun :=
  let reading := Parse.read line
  let records := Program.readRecords options.verbose reading
  match reading.tree with
  | .error r => ⟨.ok false, .rejection line r, records⟩
  | .ok e =>
    if options.tellsTree && !e.isShowable then
      ⟨.error .treeTooHigh, .nothing, Program.countRecords options.verbose reading⟩
    else
      let run := runTree options e
      { run with records := records ++ run.records }

end Abacus.Session
