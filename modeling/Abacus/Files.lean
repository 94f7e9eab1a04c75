/-
  Abacus/Files.lean
  =================
  **Files.**  A small tree of files and directories as a value: what a path leads to, and
  the tree after a file was written.  A path is followed part by part; `..` leads back to
  where the part before it was entered.  Of what lies outside the tree, only the common
  directories of a system are known; what is written there leaves the tree as it is.
-/
import Abacus.Path

namespace Abacus

/-- Files with their contents and directories, by the parts of their paths. -/
structure Files where
  contents : List (List String × String)
  directories : List (List String)
deriving DecidableEq, Repr

namespace Files

/-- What a path leads to. -/
inductive Target where
  /-- A file. -/
  | file (place : List String) (content : String)
  | directory
  /-- Nothing, in a directory that exists. -/
  | absent (place : List String)
  /-- Nothing that is known, in a directory outside the tree. -/
  | outside
  /-- A device that takes everything and holds nothing. -/
  | device
  /-- Nothing, for want of a directory on the way. -/
  | noDirectory
  /-- Nothing, since a file is in the way. -/
  | notDirectory
  /-- Nothing, since a name is longer than names can be. -/
  | nameTooLong
deriving DecidableEq, Repr

/-- Whether a directory stands at a place: it was made, or something stands below it. -/
def isDirectory (fs : Files) (place : List String) : Bool :=
  place.isEmpty || fs.directories.any place.isPrefixOf ||
    fs.contents.any fun file => place.isPrefixOf file.1 && place ≠ file.1

/-- The content of the file at a place. -/
def content? (fs : Files) (place : List String) : Option String :=
  (fs.contents.find? fun file => file.1 = place).map Prod.snd

/-! ### Following a path -/

/-- What the parts of a path lead to from the directory that holds the tree. -/
def followAbove : List String → Target
  | [] => .directory
  | part :: rest =>
    if part = ".." then followAbove rest
    else if Path.isLongName part then .nameTooLong
    else if rest.isEmpty then .outside
    else .noDirectory

/-- Follows the parts of a path from the directory `here`. -/
def follow (fs : Files) (here : List String) : List String → Target
  | [] => .directory
  | part :: rest =>
    let place := here ++ [part]
    if part = ".." then
      if here.isEmpty then followAbove rest else follow fs here.dropLast rest
    else if Path.isLongName part then .nameTooLong
    else if fs.isDirectory place then follow fs place rest
    else match fs.content? place, rest with
      | some content, [] => .file place content
      | some _, _ :: _ => .notDirectory
      | none, [] => .absent place
      | none, _ :: _ => .noDirectory

/-- The common directories of a system, and its null device as their only file. -/
def system : Files where
  contents := [(["dev", "null"], "")]
  directories := [["etc"], ["home"], ["root"], ["tmp"], ["usr"], ["var"]]

/-- Drops the parts `..` that would lead above the root, which is above itself. -/
def dropAbove (parts : List String) : List String :=
  parts.dropWhile (· = "..")

/-- What a path leads to. -/
def find (fs : Files) (path : String) : Target :=
  if Path.isLong path then .nameTooLong
  else if Path.root path = "" then fs.follow [] (Path.parts path)
  else match system.follow [] (dropAbove (Path.parts path)) with
    | .file .. => .device
    | .absent _ => .outside
    | target => target

/-! ### Writing -/

/-- Puts a file at a place. -/
def put (fs : Files) (place : List String) (content : String) : Files :=
  { fs with contents := (fs.contents.filter fun file => file.1 ≠ place) ++ [(place, content)] }

end Files
end Abacus
