/-
  Abacus/Command/Count.lean
  =========================
  **Counts.**  The value of an option that counts something is a positive integer in ASCII
  digits.  White space around it, a plus sign before it and zeros at its front do not
  matter, nor does a point with nothing but zeros behind it.  Single underscores may stand
  between digits, and any number of them among the zeros at the front.
-/
import Abacus.Text.Integer

namespace Abacus.Command

/-- Drops a plus sign at the front. -/
def dropPlus : List Char → List Char
  | '+' :: rest => rest
  | cs => cs

/-- Drops the zeros at the front of a number, and the underscores that follow the first. -/
def dropLeadingZeros : List Char → List Char
  | '0' :: rest => rest.dropWhile fun c => c = '0' ∨ c = '_'
  | cs => cs

/-- Drops a point with nothing but zeros behind it. -/
def dropZeroFraction (cs : List Char) : List Char :=
  let whole := cs.takeWhile (· ≠ '.')
  if (cs.drop (whole.length + 1)).all (· = '0') then whole else cs

/-- The positive integer that an option's value denotes. -/
def count? (value : String) : Option Nat :=
  let cs := Text.trimWhile (fun c => Text.isBlank c && !Text.isSeparator c) value.toList
  let digits := dropZeroFraction (dropLeadingZeros (dropPlus cs))
  if digits.all fun c => c.isDigit || c = '_' then
    (Text.natural? digits).filter (0 < ·)
  else none

end Abacus.Command
