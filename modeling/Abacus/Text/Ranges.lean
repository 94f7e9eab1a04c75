/-
  Abacus/Text/Ranges.lean
  =======================
  **Character classes given as tables.**  A table lists the first and last code point of
  each stretch of a class, in ascending order.
-/
namespace Abacus.Text

/-- Whether a character lies in one of the stretches of a table. -/
def inRanges (table : Array (Nat × Nat)) (c : Char) : Bool :=
  table.any fun range => range.1 ≤ c.toNat && c.toNat ≤ range.2

end Abacus.Text
