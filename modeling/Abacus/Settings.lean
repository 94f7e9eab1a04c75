/-
  Abacus/Settings.lean
  ====================
  **Settings.**  Three things can be set from outside: how deep calls may nest, where the
  history is kept, and whether trees are shown.  A setting given on the spot wins; else the
  environment decides; else the default holds.  A malformed value in the environment is
  warned about and the default taken instead.  Only a depth given on the spot can be
  refused.
-/
import Abacus.Log
import Abacus.Path
import Abacus.Text.Integer
import Abacus.Text.LowerCase
import Abacus.Text.Quoted

namespace Abacus

/-- The values of the environment, as they stand there. -/
structure Environment where
  maxDepth : Option String
  historyFile : Option String
  showTree : Option String
deriving DecidableEq, Repr

def Environment.empty : Environment := ⟨none, none, none⟩

namespace Settings

def defaultMaxDepth : Nat := 128

def defaultHistoryFile : String := "repl_history.txt"

/-- A setting that cannot be taken. -/
inductive Error where
  | depthNotPositive (value : Int)
deriving DecidableEq, Repr

def Error.message : Error → String
  | .depthNotPositive value => "max depth must be positive, got " ++ toString value

/-- A warning about a value in the environment. -/
def warning (text : String) : Record :=
  ⟨.warning, .settings, text⟩

def depthWarning (value : String) : Record :=
  warning ("Invalid NOVARC_MAX_DEPTH value '" ++ value ++ "'. Expected a positive integer. Defaulting to " ++
    toString defaultMaxDepth ++ ".")

/-- The warning about a value that neither shows nor hides trees. -/
def showTreeWarning (value : String) : Record :=
  warning ("Unknown NOVARC_SHOW_AST value '" ++ value ++
    "'. Valid values: 1, true, yes, on, 0, false, no, off. Defaulting to off.")

def environmentDepth (env : Environment) : Nat × List Record :=
  let value := Text.trim (env.maxDepth.getD "")
  if value = "" then (defaultMaxDepth, [])
  else match Text.integer? value.toList with
    | some (.ofNat (n + 1)) => (n + 1, [])
    | _ => (defaultMaxDepth, [depthWarning value])

/-- How deep calls may nest. -/
def maxDepth (env : Environment) (given : Option Int) : Except Error Nat × List Record :=
  match given with
  | some value => (if value < 1 then .error (.depthNotPositive value) else .ok value.toNat, [])
  | none =>
    let (depth, records) := environmentDepth env
    (.ok depth, records)

def historyFile (env : Environment) (given : Option String) : String :=
  match given with
  | some path => Path.normalize path
  | none =>
    let value := Text.trim (env.historyFile.getD "")
    if value = "" then defaultHistoryFile else Path.normalize value

def showingValues : List String := ["1", "true", "yes", "on"]

def hidingValues : List String := ["0", "false", "no", "off", ""]

def showTree (env : Environment) (given : Option Bool) : Bool × List Record :=
  match given with
  | some value => (value, [])
  | none =>
    let value := Text.trim (Text.lower (env.showTree.getD ""))
    if value ∈ showingValues then (true, [])
    else if value ∈ hidingValues then (false, [])
    else (false, [showTreeWarning value])

/-- All settings as the environment has them. -/
structure Summary where
  maxDepth : Nat
  historyFile : String
  showTree : Bool
deriving DecidableEq, Repr

/-- Reads all settings from the environment. -/
def summary (env : Environment) : Summary × List Record :=
  let (depth, depthRecords) := environmentDepth env
  let (shown, showRecords) := showTree env none
  (⟨depth, historyFile env none, shown⟩, depthRecords ++ showRecords)

def Summary.text (s : Summary) : String :=
  "\x7b'max_depth': " ++ toString s.maxDepth ++ ", 'history_file': " ++ Text.quoted s.historyFile ++
    ", 'show_ast': " ++ (if s.showTree then "True" else "False") ++ "\x7d"

end Settings
end Abacus
