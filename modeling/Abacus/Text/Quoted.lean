/-
  Abacus/Text/Quoted.lean
  =======================
  **Quoted text.**  A text in quotes on one line, with every character visible.  The quote
  is a single one unless the text holds a single quote and no double one.  The quote in
  use and the backslash are escaped, line feed, carriage return and tab have letters, and
  other unprintable characters show their code point in hexadecimal.
-/
import Abacus.Text.Printable

namespace Abacus.Text

/-- The quote to put around a text. -/
def quoteFor (cs : List Char) : Char :=
  if '\'' ∈ cs ∧ '"' ∉ cs then '"' else '\''

/-- A number in hexadecimal, filled up with zeros to `size` digits. -/
def hexDigits (size n : Nat) : List Char :=
  let digits := Nat.toDigits 16 n
  List.replicate (size - digits.length) '0' ++ digits

/-- One character inside quotes. -/
def quoteChar (quote c : Char) : List Char :=
  if c = quote ∨ c = '\\' then ['\\', c]
  else if c = '\n' then ['\\', 'n']
  else if c = '\r' then ['\\', 'r']
  else if c = '\t' then ['\\', 't']
  else if isPrintable c then [c]
  else if c.toNat < 0x100 then '\\' :: 'x' :: hexDigits 2 c.toNat
  else if c.toNat < 0x10000 then '\\' :: 'u' :: hexDigits 4 c.toNat
  else '\\' :: 'U' :: hexDigits 8 c.toNat

/-- A text in quotes. -/
def quoted (s : String) : String :=
  let cs := s.toList
  let quote := quoteFor cs
  String.ofList (quote :: cs.flatMap (quoteChar quote) ++ [quote])

end Abacus.Text
