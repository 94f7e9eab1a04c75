/-
  Abacus/Text/Blank.lean
  ======================
  **Blank characters.**  One class of white space serves between tokens, at the ends of a
  setting's value, and for telling an empty line from one to run.  It is the white space
  of the Unicode standard together with the four separators U+001C to U+001F.  Numbers on
  the command line are freed of the standard's white space alone.
-/
namespace Abacus.Text

/-- Whether a character is white space. -/
def isBlank (c : Char) : Bool :=
  let n := c.toNat
  (0x09 ≤ n && n ≤ 0x0D) || (0x1C ≤ n && n ≤ 0x20) || n == 0x85 || n == 0xA0 || n == 0x1680 ||
    (0x2000 ≤ n && n ≤ 0x200A) || n == 0x2028 || n == 0x2029 || n == 0x202F || n == 0x205F ||
    n == 0x3000

/-- Whether a character is one of the four separators that the Unicode standard does not
    count as white space. -/
def isSeparator (c : Char) : Bool :=
  0x1C ≤ c.toNat && c.toNat ≤ 0x1F

/-- Drops the characters of a class at both ends. -/
def trimWhile (p : Char → Bool) (cs : List Char) : List Char :=
  ((cs.dropWhile p).reverse.dropWhile p).reverse

/-- Drops the blanks at both ends. -/
def trimChars (cs : List Char) : List Char :=
  trimWhile isBlank cs

/-- Drops the blanks at both ends. -/
def trim (s : String) : String :=
  String.ofList (trimChars s.toList)

/-- Whether a line holds nothing but blanks. -/
def isBlankLine (s : String) : Bool :=
  s.toList.all isBlank

end Abacus.Text
