/-
  Abacus/Parse/Cursor.lean
  ========================
  **A place among tokens.**  A cursor counts the tokens used up; the others are ahead.
  Single steps and whole rules can be run from it one after the other; one that stops at a
  problem leaves the cursor at the token where it was met.  Tokens can be looked at in both
  directions without moving.
-/
import Abacus.Parse.Grammar

namespace Abacus.Parse

/-- How many levels may be open at once. -/
def maxNesting : Nat := 500

/-- Some tokens and how many of them are used up. -/
structure Cursor where
  tokens : List Token
  index : Nat
deriving DecidableEq, Repr

namespace Cursor

def start (tokens : List Token) : Cursor :=
  ⟨tokens, 0⟩

def ahead (c : Cursor) : List Token :=
  c.tokens.drop c.index

/-- The cursor with `rest` ahead of it, which are the last of its tokens. -/
def moveTo (c : Cursor) (rest : List Token) : Cursor :=
  { c with index := c.index + (c.ahead.length - rest.length) }

/-- The token at a distance from the current one.  Past the end it is the last token.  In
    front of the first token, counting goes on backwards from the last, through all tokens
    once. -/
def look (c : Cursor) (offset : Int) : Option Token :=
  let place := c.index + offset
  if 0 ≤ place then c.tokens[place.toNat]?.or c.tokens.getLast?
  else if 0 ≤ c.tokens.length + place then c.tokens[(c.tokens.length + place).toNat]?
  else none

/-- Runs a rule.  A fault leaves the cursor where it is. -/
def run {α : Type} (c : Cursor) (rule : Rule α) : Except Stop α × Cursor :=
  match rule c.ahead with
  | .ok (value, rest) => (.ok value, c.moveTo rest)
  | .error (.problem p rest) => (.error (.problem p rest), c.moveTo rest)
  | .error (.fault f) => (.error (.fault f), c)

end Cursor

/-- The rules that can be run by name. -/
inductive RuleName where
  | declaration
  | addition
  | multiply
  | unary
  | primary
deriving DecidableEq, Repr

/-- The rule of a name, with room for so many open levels. -/
def RuleName.ruleIn (m : Type → Type) [Monad m] [Steps m] (room : Nat) : RuleName → RuleIn m Expr
  | .declaration => Parse.declaration room
  | .addition => Parse.addition (expression room)
  | .multiply => Parse.multiply (expression room)
  | .unary => Parse.unary (expression room)
  | .primary => Parse.primary (expression room)

abbrev RuleName.rule (room : Nat) (name : RuleName) : Rule Expr :=
  name.ruleIn (Except Stop) room

end Abacus.Parse
