/-
  Abacus/Parse.lean
  =================
  **From source to tree.**  A source is scanned into tokens, the tokens are read as a
  declaration, and nothing may be left over.  Either all that is wrong with the tokens is
  reported, or the first problem with their order.
-/
import Abacus.Parse.Cursor
import Abacus.Token.Scan

namespace Abacus.Parse

/-- A whole program, with room for so many open levels. -/
def program (room : Nat) : Rule Expr := fun ahead => do
  let (e, ahead) ← declaration room ahead
  let tok ← current ahead
  if tok.kind = .eof then return (e, ahead)
  else .error (.problem (.leftover tok) ahead)

/-- The tree of a list of tokens. -/
def readTokens (room : Nat) (tokens : List Token) : Except Rejection Expr :=
  match program room tokens with
  | .ok (e, _) => .ok e
  | .error (.problem p _) => .error (.problems [p])
  | .error (.fault f) => .error (.fault f)

/-- What came of reading a source: how many tokens it has, if it is made of tokens, and
    its tree or what is wrong with it. -/
structure Reading where
  tokenCount : Option Nat
  tree : Except Rejection Expr

/-- Reads a source. -/
def read (source : String) : Reading :=
  match Scan.tokenize source with
  | .error rejection => ⟨none, .error rejection⟩
  | .ok tokens => ⟨some tokens.length, readTokens maxNesting tokens⟩

/-- The tree of a source. -/
def parse (source : String) : Except Rejection Expr :=
  (read source).tree

end Abacus.Parse
