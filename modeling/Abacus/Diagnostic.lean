/-
  Abacus/Diagnostic.lean
  ======================
  **Diagnostics and reports.**  A diagnostic is a message about a stretch of the source;
  a report is one or more of them.  The places of a diagnostic are integers, since a
  caller may build one for any place at all.
-/
namespace Abacus

/-- A message about the characters from `start` up to `stop`. -/
structure Diagnostic where
  message : String
  start : Int
  stop : Int
deriving DecidableEq, Repr

/-- A diagnostic on one line, with its places. -/
def Diagnostic.text (d : Diagnostic) : String :=
  toString d.start ++ ".." ++ toString d.stop ++ ": " ++ d.message

/-- One or more diagnostics, in the order they were found. -/
structure Report where
  first : Diagnostic
  others : List Diagnostic
deriving DecidableEq, Repr

namespace Report

/-- Why diagnostics do not make a report. -/
inductive Error where
  | empty
deriving DecidableEq, Repr

/-- The wording of an error. -/
def Error.message : Error → String
  | .empty => "at least one diagnostic is required"

/-- The report of a list of diagnostics, unless there is none. -/
def ofList : List Diagnostic → Except Error Report
  | [] => .error .empty
  | first :: others => .ok ⟨first, others⟩

/-- The diagnostics of a report. -/
def toList (r : Report) : List Diagnostic :=
  r.first :: r.others

/-- The messages of a report in one line. -/
def message (r : Report) : String :=
  "; ".intercalate (r.toList.map Diagnostic.message)

/-- The place a report points at first. -/
def start (r : Report) : Int :=
  r.first.start

end Report
end Abacus
