/-
  Abacus/Text/Integer.lean
  ========================
  **Integers as people type them.**  A sign or none, then decimal digits of any script;
  single underscores may stand between digits, zeros may lead, and there may be at most
  4300 digits.
-/
import Abacus.Text.Blank
import Abacus.Text.Digit

namespace Abacus.Text

/-- The greatest number of digits that is read. -/
def maxDigits : Nat := 4300

/-- The worths of digits, between which single underscores may stand. -/
def digitValues? : List Char → Option (List Nat)
  | [] => none
  | [c] => (digitValue? c).map ([·])
  | c :: '_' :: rest => do
    let value ← digitValue? c
    let values ← digitValues? rest
    return value :: values
  | c :: rest => do
    let value ← digitValue? c
    let values ← digitValues? rest
    return value :: values

/-- The number that digits denote. -/
def ofDigits (values : List Nat) : Nat :=
  values.foldl (fun read value => read * 10 + value) 0

/-- The number that a row of at most `maxDigits` digits denotes. -/
def natural? (cs : List Char) : Option Nat := do
  let values ← digitValues? cs
  if values.length ≤ maxDigits then some (ofDigits values) else none

/-- The integer that a text without blanks at its ends denotes. -/
def integer? (cs : List Char) : Option Int :=
  match cs with
  | '-' :: rest => (natural? rest).map fun n => -(n : Int)
  | '+' :: rest => (natural? rest).map fun n => (n : Int)
  | rest => (natural? rest).map fun n => (n : Int)

end Abacus.Text
