/-
  Abacus/Main.lean
  ================
  **The program.**  Everything that touches the outside: the arguments, the environment,
  the input lines, the history file, and printing.  What is to be printed is decided
  elsewhere; a session is answered line by line as the lines come in.
-/
import Abacus.Command

namespace Abacus

/-- The settings in the environment of the process. -/
def readEnvironment : IO Environment := do
  return ⟨← IO.getEnv "NOVARC_MAX_DEPTH", ← IO.getEnv "NOVARC_HISTORY_FILE",
    ← IO.getEnv "NOVARC_SHOW_AST"⟩

/-- Prints on both channels. -/
def emit (printed : Session.Printed) : IO Unit := do
  let out ← IO.getStdout
  out.putStr printed.out
  out.flush
  IO.eprint printed.err

/-- Prints log records. -/
def emitRecords (records : List Record) : IO Unit :=
  for record in records do
    IO.eprintln ("[" ++ record.level.label ++ "] " ++ record.origin.label ++ ": " ++ record.text)

/-- What the system says about a failed access. -/
def accessFailure : IO.Error → String
  | .noFileOrDirectory .. => "[Errno 2] No such file or directory"
  | .permissionDenied .. => "[Errno 13] Permission denied"
  | .inappropriateType .. => "[Errno 21] Is a directory"
  | e => toString e

/-- The history in a file. -/
def readHistory (path : String) : IO Session.History := do
  try
    return ⟨path, true, Session.History.decode (← IO.FS.readFile path)⟩
  catch
    | .noFileOrDirectory .. => return ⟨path, true, []⟩
    | _ =>
      emitRecords [Session.History.warning "read" path "[Errno 22] Invalid argument"]
      return ⟨path, true, []⟩

/-- Writes a history to its file. -/
def writeHistory (history : Session.History) : IO Unit := do
  try
    IO.FS.writeFile history.path (Session.History.encode history.entries)
  catch e =>
    emitRecords [Session.History.warning "write" history.path (accessFailure e)]

/-- The next event at the prompt. -/
def nextEvent : IO Session.Event := do
  emit ⟨Session.prompt, ""⟩
  let line ← (← IO.getStdin).getLine
  if line.isEmpty then return .endOfInput
  return .line ((Command.inputLines [] line.toList).headD "")

/-- Answers prompts until the session ends; gives the history it ended with and whether it
    broke down. -/
partial def converse (options : Session.Options) (history : Session.History) :
    IO (Session.History × Bool) := do
  match Session.react options history (← nextEvent) with
  | .fail history printed records e =>
    emitRecords records
    emit (printed ++ .onErr e.message)
    return (history, true)
  | .stop => return (history, false)
  | .go history printed records =>
    emitRecords records
    emit printed
    converse options history

/-- Runs a session with whoever types. -/
def runInteractive (env : Environment) (verbose : Bool) (history : Option String)
    (showTree : Option Bool) (depth : Option Int) : IO UInt32 := do
  let (settings, records) := Command.sessionSettings env verbose history showTree depth
  emitRecords records
  match settings with
  | .error e =>
    emit (.onErr e.message)
    return 1
  | .ok (path, options) =>
    emit Session.greeting
    let (history, broke) ← converse options (← readHistory path)
    writeHistory history
    return if broke then 1 else 0

end Abacus

/-- Runs the command line. -/
def main (args : List String) : IO UInt32 := do
  let env ← Abacus.readEnvironment
  match Abacus.Command.request? args with
  | some (.repl history showTree depth, verbose) =>
    Abacus.runInteractive env verbose history showTree depth
  | _ =>
    let result := Abacus.Command.run env ⟨[], []⟩ "" args
    Abacus.emitRecords result.records
    Abacus.emit result.printed
    return UInt32.ofNat result.exit
