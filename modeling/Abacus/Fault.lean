/-
  Abacus/Fault.lean
  =================
  **Faults.**  Some steps are only right because of what happened before them: a rule
  that looks at a token relies on there being one, leaving a block relies on its bindings
  still being there.  Such a step names the fault it would be instead of making up an
  answer.  No source text leads to one.
-/
namespace Abacus

/-- A broken assumption of the program itself, never the fault of its input. -/
inductive Fault where
  /-- A rule looked for a token where there is none. -/
  | noToken
  /-- A repetition in a rule went on without using up tokens. -/
  | stalled
  /-- A digit at which no number starts. -/
  | noNumber
  /-- An integer token whose text is not a numeral. -/
  | noNumeral
  /-- A block left with fewer entries on its stack than it has bindings. -/
  | scopeUnderflow
  /-- Parameters and arguments that do not pair off. -/
  | unpaired
  /-- A division by zero that was left to plain division. -/
  | zeroDivisor
deriving DecidableEq, Repr

end Abacus
