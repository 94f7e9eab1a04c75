/-
  Abacus/Number/Binary64.lean
  ===========================
  **Doubles as whole numbers.**  Every finite double is a whole multiple of the
  least positive one, `2 ^ -1074`, so its exact value is a sign and a natural
  number of *units*.  This file reads a `Float` that way (`shape`) and goes back:
  `nearest num den` is the word of the double closest to `num / den`, an exact
  half going to the even word.

  A *word* is the bit pattern without its sign.  Words grow with the value they
  stand for, and `nearest` rests on that: with `m` the rounded significand and `e`
  the shift, `e * binade + m` is the right word for subnormal and normal results
  alike, also when rounding carries into the next power of two.
-/
namespace Abacus.Binary64

/-! ### Words and units -/

/-- A power of two. -/
def pow2 (k : Nat) : Nat := Nat.pow 2 k

/-- The number of words that share an exponent field. -/
def binade : Nat := pow2 52

/-- The sign bit. -/
def signBit : Nat := pow2 63

/-- The word of infinity; greater words are not numbers. -/
def infinityWord : Nat := 2047 * binade

/-- The number of units in one. -/
def one : Nat := pow2 1074

/-- The units of a finite word: the fraction as it stands in the first binade, else the
    fraction with its hidden bit, shifted by the exponent field less one. -/
def units (word : Nat) : Nat :=
  if word < binade then word else (word % binade + binade) * pow2 (word / binade - 1)

/-- What a double is: not a number, an infinity, or a sign and an exact magnitude. -/
inductive Shape where
  | nan
  | infinite (negative : Bool)
  | finite (negative : Bool) (word : Nat)
deriving DecidableEq, Repr

/-- Whether the sign bit of a double is set. -/
def isNegative (x : Float) : Bool :=
  decide (signBit ≤ x.toBits.toNat)

/-- The word of a double. -/
def word (x : Float) : Nat :=
  x.toBits.toNat % signBit

/-- The shape of a double, read off its bits. -/
def shape (x : Float) : Shape :=
  if infinityWord < word x then .nan
  else if word x = infinityWord then .infinite (isNegative x)
  else .finite (isNegative x) (word x)

/-- The double with this sign and word. -/
def ofWord (negative : Bool) (word : Nat) : Float :=
  Float.ofBits (UInt64.ofNat (if negative then signBit + word else word))

/-- Positive infinity. -/
def infinity : Float := ofWord false infinityWord

/-- The double that is not a number. -/
def nan : Float := ofWord false (infinityWord + pow2 51)

/-! ### Rounding -/

/-- The whole number closest to `num / den`; an exact half goes to the even one. -/
def roundQuotient (num den : Nat) : Nat :=
  let quotient := num / den
  let twice := 2 * (num % den)
  if twice < den then quotient
  else if den < twice then quotient + 1
  else quotient + quotient % 2

/-- The word of the double closest to `num / den`; from half a step past the
    greatest finite double on, that is the word of infinity. -/
def nearest (num den : Nat) : Nat :=
  let scaled := num * one
  let shift := (scaled / den).log2 - 52
  min (shift * binade + roundQuotient scaled (den * pow2 shift)) infinityWord

/-- The double closest to a natural number. -/
def ofNat (n : Nat) : Float :=
  ofWord false (nearest n 1)

end Abacus.Binary64
