/-
  Abacus/Command.lean
  ===================
  **The command line.**  Three commands: `eval` and `parse` work on one source, `repl`
  runs a session.  Global options stand before the command.  A command line that makes no
  sense ends with exit status 2, a source that cannot be read or has no value with 1.
-/
import Abacus.Command.Arguments
import Abacus.Command.Count
import Abacus.Session

namespace Abacus.Command

/-! ### Requests -/

/-- What the command line asks for. -/
inductive Request where
  | help
  | version
  /-- Evaluate a source. -/
  | eval (source : String) (showTree : Option Bool) (depth : Option Int)
  /-- Show the tree of a source. -/
  | parse (source : String)
  /-- Run a session. -/
  | repl (history : Option String) (showTree : Option Bool) (depth : Option Int)
deriving DecidableEq, Repr

/-- The options before the command. -/
def globalGrammar : Grammar where
  long := [("--version", false), ("--verbose", false), ("--help", false)]
  short := [('v', "--version"), ('V', "--verbose")]
  mixed := false

/-- The options of `eval`. -/
def evalGrammar : Grammar where
  long := [("--show-ast", false), ("--no-show-ast", false), ("--max-depth", true), ("--help", false)]
  short := []
  mixed := true

/-- The options of `parse`. -/
def parseGrammar : Grammar where
  long := [("--help", false)]
  short := []
  mixed := true

/-- The options of `repl`. -/
def replGrammar : Grammar where
  long := ("--history", true) :: evalGrammar.long
  short := []
  mixed := true

/-- Whether trees are to be shown, as far as the options say. -/
def treeOption (args : Arguments) : Option Bool :=
  (args.last? ["--show-ast", "--no-show-ast"]).map (· = "--show-ast")

/-- The depth that the options set, which has to be a positive integer. -/
def depthOption? (args : Arguments) : Option (Option Int) :=
  match args.value? "--max-depth" with
  | none => some none
  | some value => (count? value).map fun n => some (n : Int)

/-- What a command asks for; nothing if its arguments make no sense. -/
def commandRequest? (name : String) (rest : List String) : Option Request :=
  match name with
  | "eval" => do
    let args ← readArguments? evalGrammar rest
    if args.first? ["--help"] ≠ none then return .help
    let depth ← depthOption? args
    match args.others with
    | [source] => some (.eval source (treeOption args) depth)
    | _ => none
  | "parse" => do
    let args ← readArguments? parseGrammar rest
    if args.first? ["--help"] ≠ none then return .help
    match args.others with
    | [source] => some (.parse source)
    | _ => none
  | "repl" => do
    let args ← readArguments? replGrammar rest
    if args.first? ["--help"] ≠ none then return .help
    let depth ← depthOption? args
    match args.others with
    | [] => some (.repl (args.value? "--history") (treeOption args) depth)
    | _ => none
  | _ => none

/-- What the global options ask for by themselves, whatever else stands there. -/
def globalRequest? (args : Arguments) : Option Request :=
  (args.first? ["--version", "--help"]).map fun name => if name = "--version" then .version else .help

/-- What a command line asks for, and whether it asks for all log records.  Global options
    that a double dash has turned into the name of a command are read once more, for what
    they ask for by themselves. -/
def request? (args : List String) : Option (Request × Bool) := do
  let args ← readArguments? globalGrammar args
  let verbose := args.first? ["--verbose"] ≠ none
  let request ←
    match globalRequest? args, args.others with
    | some request, _ => some request
    | none, [] => none
    | none, name :: rest =>
      if isOption name then (readArguments? globalGrammar args.others).bind globalRequest?
      else commandRequest? name rest
  return (request, verbose)

/-! ### Results -/

/-- What a command leaves: its exit status, what it printed, the files, and its log
    records. -/
structure Result where
  exit : Nat
  printed : Session.Printed
  files : Files
  records : List Record

/-- The exit status of a command line that makes no sense. -/
def usageStatus : Nat := 2

/-- Evaluates a source. -/
def runEval (env : Environment) (verbose : Bool) (source : String) (showTree : Option Bool)
    (depth : Option Int) (files : Files) : Result :=
  let (shown, showRecords) := Settings.showTree env showTree
  let (limit, depthRecords) := Settings.maxDepth env depth
  let before := showRecords ++ depthRecords
  match limit with
  | .error e => ⟨1, .onErr e.message, files, before⟩
  | .ok limit =>
    let run := Session.runLine ⟨⟨env, some limit, verbose⟩, shown⟩ source
    let records := before ++ run.records
    match run.answer with
    | .error m => ⟨1, run.printed ++ .onErr m.message, files, records⟩
    | .ok hasValue => ⟨if hasValue then 0 else 1, run.printed, files, records⟩

/-- Shows the tree of a source. -/
def runParse (verbose : Bool) (source : String) (files : Files) : Result :=
  let reading := Parse.read source
  let records := Program.readRecords verbose reading
  match reading.tree with
  | .ok e =>
    if e.isShowable then ⟨0, .onOut e.text, files, records⟩
    else
      ⟨1, .onErr (Session.Mishap.message .treeTooHigh), files, Program.countRecords verbose reading⟩
  | .error r => ⟨1, .rejection source r, files, records⟩

/-- The settings of a session, and the records made while they were looked up.  The
    summary of the environment is looked up for its record alone. -/
def sessionSettings (env : Environment) (verbose : Bool) (history : Option String)
    (showTree : Option Bool) (depth : Option Int) :
    Except Settings.Error (String × Session.Options) × List Record :=
  let (summary, summaryRecords) := Settings.summary env
  let (shown, showRecords) := Settings.showTree env showTree
  let (limit, depthRecords) := Settings.maxDepth env depth
  let summaryRecord : List Record :=
    if verbose then [⟨.debug, .commands, "Environment: " ++ summary.text⟩] else []
  let records := summaryRecords ++ summaryRecord ++ showRecords ++ depthRecords
  match limit with
  | .error e => (.error e, records)
  | .ok limit => (.ok (Settings.historyFile env history, ⟨⟨env, some limit, verbose⟩, shown⟩), records)

/-- What a session prints, with its prompts. -/
def sessionPrinted : List Session.Printed → Session.Printed
  | [] => .nothing
  | first :: rest =>
    rest.foldl (fun printed step => printed ++ ⟨Session.prompt, ""⟩ ++ step) first

/-- Runs a session on a list of events. -/
def runSession (env : Environment) (verbose : Bool) (history : Option String)
    (showTree : Option Bool) (depth : Option Int) (files : Files) (events : List Session.Event) :
    Result :=
  match sessionSettings env verbose history showTree depth with
  | (.error e, before) => ⟨1, .onErr e.message, files, before⟩
  | (.ok (path, options), before) =>
    let transcript := Session.run options path true files events
    ⟨if transcript.broken.isSome then 1 else 0, sessionPrinted transcript.steps, transcript.files,
      before ++ transcript.records⟩

/-- A short account of the command line. -/
def usage : String :=
  "Usage: novarc [--verbose] [--version] (eval SOURCE | parse SOURCE | repl)"

/-- The lines of a text: a line feed, a carriage return or both end one, and what is left
    at the end is a line unless it is empty. -/
def inputLines (line : List Char) : List Char → List String
  | [] => if line = [] then [] else [String.ofList line.reverse]
  | '\r' :: '\n' :: rest => String.ofList line.reverse :: inputLines [] rest
  | c :: rest =>
    if c = '\n' ∨ c = '\r' then String.ofList line.reverse :: inputLines [] rest
    else inputLines (c :: line) rest

/-- Runs a command line to its end. -/
def run (env : Environment) (files : Files) (input : String) (args : List String) : Result :=
  match request? args with
  | none => ⟨usageStatus, .onErr usage, files, []⟩
  | some (request, verbose) =>
    match request with
    | .help => ⟨0, .onOut usage, files, []⟩
    | .version => ⟨0, .onOut Release.title, files, []⟩
    | .eval source showTree depth => runEval env verbose source showTree depth files
    | .parse source => runParse verbose source files
    | .repl history showTree depth =>
      runSession env verbose history showTree depth files
        ((inputLines [] input.toList).map Session.Event.line)

end Abacus.Command
