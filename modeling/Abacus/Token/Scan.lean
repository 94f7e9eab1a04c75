/-
  Abacus/Token/Scan.lean
  ======================
  **Scanning a source into pieces.**  From left to right, blanks are stepped over and
  everything else falls into pieces: a token, or something that is no token.  Each piece
  is as long as it can be: a word takes every letter, digit and underscore that follows,
  and what starts with a digit takes points as well, so that `1.5` and `2x` are one piece
  and one problem each.  A piece that is no token does not end the scan; `tokenize` hands
  out either all tokens or all problems.

  Letters and digits are those of ASCII; any other character outside the nine punctuation
  marks and the blanks is a problem of its own.
-/
import Abacus.Problem
import Abacus.Text.Blank

namespace Abacus.Scan

/-! ### Character classes -/

/-- Characters that start a word. -/
def isWordStart (c : Char) : Bool :=
  c.isAlpha || c == '_'

/-- Characters that go on with a word. -/
def isWordPart (c : Char) : Bool :=
  c.isAlphanum || c == '_'

/-- Characters that go on with what starts like a number. -/
def isNumberPart (c : Char) : Bool :=
  isWordPart c || c == '.'

/-- The kind of a punctuation mark. -/
def punctuation? : Char → Option Kind
  | '+' => some .plus
  | '-' => some .minus
  | '*' => some .star
  | '/' => some .slash
  | '(' => some .lparen
  | ')' => some .rparen
  | ',' => some .comma
  | '=' => some .equals
  | ';' => some .semicolon
  | _ => none

/-- The kind of a word. -/
def wordKind (word : String) : Kind :=
  if word = "let" then .letWord else if word = "fn" then .fnWord else .ident

/-! ### Numbers -/

/-- The longest run at the front that starts like a number. -/
def numberRun? : List Char → Option (List Char)
  | [] => none
  | c :: rest => if c.isDigit then some (c :: rest.takeWhile isNumberPart) else none

/-- The longest numeral at the front: a lone zero, or digits of which the first is not
    zero. -/
def numeral? : List Char → Option (List Char)
  | [] => none
  | c :: rest =>
    if c = '0' then some [c] else if c.isDigit then some (c :: rest.takeWhile Char.isDigit) else none

/-! ### Pieces -/

/-- A stretch of source between blanks. -/
inductive Piece where
  | token (t : Token)
  | problem (p : Problem)
  | fault (f : Fault)
deriving DecidableEq, Repr

/-- The piece of a source that starts with a digit. -/
def numberPiece (start : Nat) (cs : List Char) : Piece :=
  match numberRun? cs, numeral? cs with
  | some run, some numeral =>
    if numeral.length = run.length then .token ⟨.int, String.ofList numeral, start⟩
    else .problem (.malformedNumber (String.ofList run) start)
  | _, _ => .fault .noNumber

/-- The piece that starts with `c`, which is not blank, and goes on into `rest`. -/
def firstPiece (start : Nat) (c : Char) (rest : List Char) : Piece :=
  if c.isDigit then numberPiece start (c :: rest)
  else if isWordStart c then
    let word := String.ofList (c :: rest.takeWhile isWordPart)
    .token ⟨wordKind word, word, start⟩
  else match punctuation? c with
    | some kind => .token ⟨kind, String.ofList [c], start⟩
    | none => .problem (.strayCharacter c start)

/-- How many characters a piece takes. -/
def Piece.size : Piece → Nat
  | .token t => t.text.length
  | .problem p => p.stop - p.start
  | .fault _ => 1

/-- The pieces of a source, the first character of which stands at `start`. -/
def pieces (start : Nat) (cs : List Char) : List Piece :=
  match cs with
  | [] => []
  | c :: rest =>
    if Text.isBlank c then pieces (start + 1) rest
    else
      let piece := firstPiece start c rest
      piece :: pieces (start + piece.size) (rest.drop (piece.size - 1))
termination_by cs.length

/-! ### Tokens -/

/-- The token of a piece. -/
def Piece.token? : Piece → Option Token
  | .token t => some t
  | _ => none

/-- The problem of a piece. -/
def Piece.problem? : Piece → Option Problem
  | .problem p => some p
  | _ => none

/-- The fault of a piece. -/
def Piece.fault? : Piece → Option Fault
  | .fault f => some f
  | _ => none

/-- All tokens of a source and the end token, or everything in it that is no token. -/
def tokenize (source : String) : Except Rejection (List Token) :=
  let cs := source.toList
  let found := pieces 0 cs
  match found.findSome? Piece.fault?, found.filterMap Piece.problem? with
  | some f, _ => .error (.fault f)
  | none, [] => .ok (found.filterMap Piece.token? ++ [⟨.eof, "", cs.length⟩])
  | none, problems => .error (.problems problems)

end Abacus.Scan
