/-
  Abacus/Release.lean
  ===================
  **The release.**  The name and the version that the program states.
-/
namespace Abacus.Release

/-- The version of a copy of the program; one that was never installed has none of its
    own. -/
def version (installed : Bool) : String :=
  if installed then "0.1.0" else "0.0.0"

/-- The name and the version. -/
def title : String :=
  "Novarc " ++ version true

end Abacus.Release
