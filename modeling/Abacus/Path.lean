/-
  Abacus/Path.lean
  ================
  **File paths.**  A path is written in one way only: no empty or `.` parts, no slash at
  the end, and `.` for the empty path.  Parts `..` stay, because what they lead to depends
  on the files.  Two slashes at the front are kept, three or more count as one.  Names and
  whole paths can only be so long.
-/
namespace Abacus.Path

/-- The slashes a path starts with, as they are kept. -/
def root (path : String) : String :=
  match path.toList with
  | '/' :: '/' :: '/' :: _ => "/"
  | '/' :: '/' :: _ => "//"
  | '/' :: _ => "/"
  | _ => ""

/-- The parts of a path that name something. -/
def parts (path : String) : List String :=
  (path.splitOn "/").filter fun part => part ≠ "" ∧ part ≠ "."

/-- The one way to write a path. -/
def normalize (path : String) : String :=
  let text := root path ++ "/".intercalate (parts path)
  if text = "" then "." else text

/-! ### Lengths -/

/-- The greatest size of a name, in bytes. -/
def maxNameSize : Nat := 255

/-- The greatest size of a path, in bytes. -/
def maxSize : Nat := 4095

/-- Whether a name is longer than names can be. -/
def isLongName (name : String) : Bool :=
  maxNameSize < name.utf8ByteSize

/-- Whether a path is longer than paths can be. -/
def isLong (path : String) : Bool :=
  maxSize < path.utf8ByteSize

end Abacus.Path
