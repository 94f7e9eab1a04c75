/-
  Abacus/Number/Decimal.lean
  ==========================
  **Decimals and the shortest one that reads back.**  A `Decimal` is a natural
  coefficient times a power of ten.  `shortest` finds, for the word of a finite
  double, the decimal of fewest digits that `nearest` takes back to the word, and of
  those the one closest to the exact value; an exact half goes to the even digit.

  The search tries 1, 2, … 17 digits.  On the grid of that many digits only the two
  neighbours of the value matter: if any point of the grid reads back, one of them
  does.  Should no grid have a hit, the exact expansion stands in, which always reads
  back.
-/
import Abacus.Number.Binary64

namespace Abacus

/-- The number `coefficient * 10 ^ exponent`. -/
structure Decimal where
  coefficient : Nat
  exponent : Int
deriving DecidableEq, Repr

namespace Decimal

/-- A power of ten. -/
def pow10 (k : Nat) : Nat := Nat.pow 10 k

/-- The word of the double closest to a decimal. -/
def nearest (d : Decimal) : Nat :=
  Binary64.nearest (d.coefficient * pow10 d.exponent.toNat) (pow10 (-d.exponent).toNat)

/-- The decimal digits of the coefficient. -/
def digits (d : Decimal) : List Char :=
  Nat.toDigits 10 d.coefficient

/-- Moves the zeros at the end of a coefficient into the exponent. -/
def strip (coefficient : Nat) (exponent : Int) : Decimal :=
  if h : coefficient ≠ 0 ∧ coefficient % 10 = 0 then
    strip (coefficient / 10) (exponent + 1)
  else ⟨coefficient, exponent⟩
termination_by coefficient
decreasing_by omega

/-! ### The search -/

/-- The power of ten of the leading digit of a positive number of units.  Scaling by
    `10 ^ 400` makes every such number a natural one with the same leading place. -/
def leadingPlace (units : Nat) : Int :=
  (Nat.toDigits 10 (units * pow10 400 / Binary64.one)).length - 401

/-- The decimal on the grid `10 ^ place` that reads back as `word`, if one of the two
    neighbours of the exact value does. -/
def onGrid? (word : Nat) (place : Int) : Option Decimal :=
  let num := Binary64.units word * pow10 (-place).toNat
  let den := Binary64.one * pow10 place.toNat
  let below : Decimal := ⟨num / den, place⟩
  let above : Decimal := ⟨num / den + 1, place⟩
  let twice := 2 * (num % den)
  let belowIsNearer := twice < den ∨ (twice = den ∧ num / den % 2 = 0)
  if below.nearest = word ∧ (belowIsNearer ∨ above.nearest ≠ word) then some below
  else if above.nearest = word then some above
  else none

/-- The exact value of a word. -/
def exact (word : Nat) : Decimal :=
  ⟨Binary64.units word * Nat.pow 5 1074, -1074⟩

/-- The decimal of fewest digits that reads back as the word of a finite double. -/
def shortest (word : Nat) : Decimal :=
  let lead := leadingPlace (Binary64.units word)
  let found := ((List.range 17).findSome? fun (n : Nat) => onGrid? word (lead - n)).getD (exact word)
  strip found.coefficient found.exponent

/-! ### Layouts -/

/-- Positional notation: the integer part, and a point with the rest if there is one. -/
def positional (d : Decimal) : List Char :=
  let digits := d.digits
  if 0 ≤ d.exponent then digits ++ List.replicate d.exponent.toNat '0'
  else
    let places := (-d.exponent).toNat
    let padded := List.replicate (places + 1 - digits.length) '0' ++ digits
    padded.take (padded.length - places) ++ '.' :: padded.drop (padded.length - places)

/-- Exponent notation: one digit, a point if more follow, and a signed exponent of at
    least two digits. -/
def scientific (d : Decimal) : List Char :=
  let digits := d.digits
  let place : Int := digits.length - 1 + d.exponent
  let head := match digits with
    | c :: rest@(_ :: _) => c :: '.' :: rest
    | short => short
  let size := Nat.toDigits 10 place.natAbs
  head ++ 'e' :: (if place < 0 then '-' else '+') :: List.replicate (2 - size.length) '0' ++ size

end Decimal
end Abacus
