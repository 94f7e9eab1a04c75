/-
  Abacus/Log.lean
  ===============
  **Log records.**  What the program has to say about its own work, as data: how grave it
  is, which part says it, and the words.  Warnings are always made; records for finding
  errors only when the program is *verbose*.
-/
namespace Abacus

/-- How grave a record is. -/
inductive Level where
  | debug
  | warning
deriving DecidableEq, Repr

def Level.label : Level → String
  | .debug => "DEBUG"
  | .warning => "WARNING"

/-- The part of the program that speaks. -/
inductive Origin where
  | reader
  | evaluator
  | settings
  | session
  | commands
deriving DecidableEq, Repr

def Origin.label : Origin → String
  | .reader => "novarc.core.expression_lang.parser"
  | .evaluator => "novarc.core.expression_lang.evaluator"
  | .settings => "novarc.core.environment"
  | .session => "novarc.cli.repl"
  | .commands => "novarc.cli.commands"

structure Record where
  level : Level
  origin : Origin
  text : String
deriving DecidableEq, Repr

end Abacus
