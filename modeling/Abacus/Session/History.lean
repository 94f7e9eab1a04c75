/-
  Abacus/Session/History.lean
  ===========================
  **History.**  The lines typed so far, oldest first, kept in a file with one line each.
  In the file only what a line feed ends is a line; a carriage return before it is not
  part of the line, what follows a NUL in it is lost, and empty lines are dropped.  A file
  that begins with a time mark holds such marks between its lines, and all of them are
  dropped.  A file that cannot be read or written is warned about; what cannot even be
  asked of the system ends the program.
-/
import Abacus.Files
import Abacus.Log
import Abacus.Text.Quoted

namespace Abacus.Session

/-- The lines of a history and where they are kept; without `kept`, none are. -/
structure History where
  path : String
  kept : Bool
  entries : List String
deriving DecidableEq, Repr

namespace History

/-! ### The file -/

/-- The lines that line feeds end, given the characters of the line so far, latest
    first. -/
def endedLines (line : List Char) : List Char → List (List Char)
  | [] => []
  | c :: rest => if c = '\n' then line.reverse :: endedLines [] rest else endedLines (c :: line) rest

/-- Drops a carriage return at the end of a line. -/
def dropReturn (line : List Char) : List Char :=
  if line.getLast? = some '\r' then line.dropLast else line

/-- The character that ends a text in memory. -/
def nul : Char := '\x00'

/-- What is kept of a line that a line feed ends. -/
def keptPart (line : List Char) : List Char :=
  (dropReturn line).takeWhile (· ≠ nul)

/-- Whether a text begins with a time mark: a number sign and a digit. -/
def isTimeMark : List Char → Bool
  | '#' :: c :: _ => c.isDigit
  | _ => false

/-- The entries of a history file. -/
def decode (content : String) : List String :=
  let cs := content.toList
  let lines := ((endedLines [] cs).map keptPart).filter fun line => line ≠ []
  let entries := if isTimeMark cs then lines.filter fun line => !isTimeMark line else lines
  entries.map String.ofList

/-- The content of a history file. -/
def encode (entries : List String) : String :=
  entries.foldl (fun content entry => content ++ entry ++ "\n") ""

/-! ### Errors -/

/-- What ends a program that keeps a history. -/
inductive Error where
  /-- A line holds the character that ends a text in memory. -/
  | nulInLine
  /-- The path of the file holds it. -/
  | nulInPath
  /-- The path of the file is too long, or a name in it. -/
  | longPath (path : String)
deriving DecidableEq, Repr

/-- The wording of an error. -/
def Error.message : Error → String
  | .nulInLine => "embedded null character"
  | .nulInPath => "embedded null byte"
  | .longPath path => "[Errno 36] File name too long: " ++ Text.quoted path

/-- A warning about the history file. -/
def warning (what : String) (path : String) (why : String) : Record :=
  ⟨.warning, .session, "Could not " ++ what ++ " history file " ++ path ++ ": " ++ why⟩

/-! ### Reading and writing -/

/-- Whether a path cannot be asked for at all. -/
def hasNul (path : String) : Bool :=
  path.toList.contains nul

/-- The history in a file; a file that does not exist holds none. -/
def load (files : Files) (path : String) (kept : Bool) : Except Error (History × List Record) :=
  if !kept || hasNul path then .ok (⟨path, kept, []⟩, [])
  else match files.find path with
    | .file _ content => .ok (⟨path, kept, decode content⟩, [])
    | .directory | .device =>
      .ok (⟨path, kept, []⟩, [warning "read" path "[Errno 22] Invalid argument"])
    | .nameTooLong => .error (.longPath path)
    | .absent _ | .outside | .noDirectory | .notDirectory => .ok (⟨path, kept, []⟩, [])

/-- A file that exists is replaced by a new one, which is first written under the same name
    with this many bytes behind it. -/
def spareBytes : Nat := 10

/-- Whether there is room for the new file's name beside the old one's. -/
def isReplaceable (path : String) (place : List String) : Bool :=
  (place.getLastD "").utf8ByteSize + spareBytes ≤ Path.maxNameSize &&
    path.utf8ByteSize + spareBytes ≤ Path.maxSize

/-- Writes a history to its file. -/
def save (h : History) (files : Files) : Except Error (Files × List Record) :=
  let failure (why : String) := (files, [warning "write" h.path why])
  if !h.kept then .ok (files, [])
  else if hasNul h.path then .error .nulInPath
  else match files.find h.path with
    | .file place _ =>
      if isReplaceable h.path place then .ok (files.put place (encode h.entries), [])
      else .ok (failure "[Errno 36] File name too long")
    | .absent place => .ok (files.put place (encode h.entries), [])
    | .outside | .device => .ok (files, [])
    | .directory => .ok (failure "[Errno 21] Is a directory")
    | .noDirectory => .ok (failure "[Errno 2] No such file or directory")
    | .notDirectory => .ok (failure "[Errno 20] Not a directory")
    | .nameTooLong => .ok (failure "[Errno 36] File name too long")

/-- Adds a line. -/
def add (h : History) (line : String) : Except Error History :=
  if !h.kept then .ok h
  else if line.toList.contains nul then .error .nulInLine
  else .ok { h with entries := h.entries ++ [line] }

end History
end Abacus.Session
