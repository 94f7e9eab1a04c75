/-
  Abacus/Diagnostic/Locate.lean
  =============================
  **Lines and columns.**  A source is cut into lines at line feeds and nowhere else.  A
  place in it has a line and a column, both counted from one; the line feed belongs to
  the line that it ends.  Places before the source count as its start, places past it as
  its end.
-/
namespace Abacus

/-- A line and a column, counted from one. -/
structure Position where
  line : Nat
  column : Nat
deriving DecidableEq, Repr

namespace Position

/-- The lines of a source. -/
def lines : List Char → List (List Char)
  | [] => [[]]
  | c :: rest =>
    if c = '\n' then [] :: lines rest
    else match lines rest with
      | line :: others => (c :: line) :: others
      | [] => [[c]]

/-- The nearest place inside a source of `size` characters. -/
def clamp (size : Nat) (offset : Int) : Nat :=
  min offset.toNat size

/-- The position of a place in a source. -/
def locate (source : List Char) (offset : Int) : Position :=
  let before := source.take (clamp source.length offset)
  ⟨before.count '\n' + 1, (before.reverse.takeWhile (· ≠ '\n')).length + 1⟩

end Position
end Abacus
