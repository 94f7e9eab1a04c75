/-
  Abacus/Number/Text.lean
  =======================
  **The three texts of a number.**  A result is written out in full and never with an
  exponent (`result`); a literal in a printed tree is the whole number it stands for
  (`literal`); a call record always shows a point or an exponent (`traced`).  All three
  agree on which digits to show: the exact ones for a whole number in a result or a
  tree, else the fewest that read back.
-/
import Abacus.Number.Decimal

namespace Abacus.Number

open Binary64 (Shape shape units one)

/-- A minus sign, or nothing. -/
def sign (negative : Bool) : List Char :=
  if negative then ['-'] else []

/-- Whether a finite word stands for a whole number. -/
def isWhole (word : Nat) : Bool :=
  units word % one = 0

/-- The whole number of a finite word, cut off at the point. -/
def whole (word : Nat) : Nat :=
  units word / one

/-- The text of a result: whole numbers exactly, zero with its sign, all others in
    positional notation with the fewest digits that read back. -/
def resultChars (x : Float) : List Char :=
  match shape x with
  | .nan => "NaN".toList
  | .infinite negative => sign negative ++ "inf".toList
  | .finite negative word =>
    sign negative ++
      if isWhole word then Nat.toDigits 10 (whole word)
      else (Decimal.shortest word).positional

/-- The fewest digits that read back, positional from `10 ^ -4` up to `10 ^ 16` and with
    at least one digit after the point, else with an exponent. -/
def shortestChars (word : Nat) : List Char :=
  let d := Decimal.shortest word
  let place : Int := d.digits.length - 1 + d.exponent
  if word = 0 then "0.0".toList
  else if -4 ≤ place ∧ place < 16 then
    if 0 ≤ d.exponent then d.positional ++ ".0".toList else d.positional
  else d.scientific

/-- The text of a number in a call record. -/
def tracedChars (x : Float) : List Char :=
  match shape x with
  | .nan => "nan".toList
  | .infinite negative => sign negative ++ "inf".toList
  | .finite negative word => sign negative ++ shortestChars word

/-- The text of a literal in a printed tree.  A whole number is written as an integer, so
    zero has no sign here. -/
def literalChars (x : Float) : List Char :=
  match shape x with
  | .finite negative word =>
    if isWhole word then sign (negative && whole word ≠ 0) ++ Nat.toDigits 10 (whole word)
    else sign negative ++ shortestChars word
  | _ => tracedChars x

/-- The text of a result. -/
def result (x : Float) : String := String.ofList (resultChars x)

/-- The text of a literal in a printed tree. -/
def literal (x : Float) : String := String.ofList (literalChars x)

/-- The text of a number in a call record. -/
def traced (x : Float) : String := String.ofList (tracedChars x)

end Abacus.Number
