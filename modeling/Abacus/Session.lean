/-
  Abacus/Session.lean
  ===================
  **Sessions.**  A session greets, loads its history, and answers one prompt after the
  other until the input ends or is interrupted at the prompt; then it saves its history.
  Blank lines are passed over and leave no trace.  Every other line goes to the history
  before it is run, whatever comes of it.  A line that is interrupted while it runs is
  given up, and the session goes on.  A session breaks down on a line that the history
  cannot hold, or on one that is not answered; it saves its history then as well.
-/
import Abacus.Release
import Abacus.Session.History
import Abacus.Session.Line

namespace Abacus.Session

/-- What is shown when a line is awaited. -/
def prompt : String := ">> "

/-- What the session says first. -/
def greeting : Printed :=
  .onOut (Release.title ++ " ready.")

/-- What can happen at a prompt. -/
inductive Event where
  /-- A line is typed. -/
  | line (text : String)
  /-- A line is typed, and interrupted as it starts to run. -/
  | interrupted (text : String)
  /-- The input ends. -/
  | endOfInput
  /-- The prompt is interrupted. -/
  | interrupt
deriving DecidableEq, Repr

/-- Why a session breaks down. -/
inductive Error where
  | mishap (m : Mishap)
  | history (e : History.Error)
deriving DecidableEq, Repr

def Error.message : Error → String
  | .mishap m => m.message
  | .history e => e.message

/-- What a session does about an event: it ends, goes on, or breaks down. -/
inductive Reaction where
  | stop
  | go (history : History) (printed : Printed) (records : List Record)
  | fail (history : History) (printed : Printed) (records : List Record) (e : Error)

/-- Adds a line to the history and runs it, unless it is blank. -/
def typed (history : History) (line : String) (run : LineRun) : Reaction :=
  if Text.isBlankLine line then .go history .nothing []
  else match history.add line with
    | .error e => .fail history .nothing [] (.history e)
    | .ok history =>
      match run.answer with
      | .error m => .fail history run.printed run.records (.mishap m)
      | .ok _ => .go history run.printed run.records

/-- What comes of a line that is interrupted as it starts to run. -/
def givenUp : LineRun :=
  ⟨.ok false, .onErr "Interrupted", []⟩

/-- What a session does about an event. -/
def react (options : Options) (history : History) : Event → Reaction
  | .line text => typed history text (runLine options text)
  | .interrupted text => typed history text givenUp
  | .endOfInput => .stop
  | .interrupt => .stop

/-- What a session did: what it printed after each prompt, the history it ended with, its
    log records, and what it broke down on. -/
structure Course where
  steps : List Printed
  history : History
  records : List Record
  broken : Option Error

/-- Answers prompts until the session ends; after the last event the input ends. -/
def answerAll (options : Options) (history : History) : List Event → Course
  | [] => ⟨[.nothing], history, [], none⟩
  | event :: rest =>
    match react options history event with
    | .stop => ⟨[.nothing], history, [], none⟩
    | .fail history printed records e => ⟨[printed], history, records, some e⟩
    | .go history printed records =>
      let course := answerAll options history rest
      { course with steps := printed :: course.steps, records := records ++ course.records }

/-- A session from beginning to end: what was printed before the first prompt and after
    each, the files it leaves, its log records, and what it broke down on. -/
structure Transcript where
  steps : List Printed
  files : Files
  records : List Record
  broken : Option Error

/-- The number of prompts shown. -/
def Transcript.promptCount (t : Transcript) : Nat :=
  t.steps.length - 1

/-- Runs a session on a list of events.  Its history is saved however it ends, once it has
    been loaded. -/
def run (options : Options) (path : String) (kept : Bool) (files : Files) (events : List Event) :
    Transcript :=
  match History.load files path kept with
  | .error e => ⟨[greeting], files, [], some (.history e)⟩
  | .ok (history, loadRecords) =>
    let course := answerAll options history events
    let steps := greeting :: course.steps
    let records := loadRecords ++ course.records
    match course.history.save files with
    | .error e => ⟨steps, files, records, some (.history e)⟩
    | .ok (files, saveRecords) => ⟨steps, files, records ++ saveRecords, course.broken⟩

end Abacus.Session
