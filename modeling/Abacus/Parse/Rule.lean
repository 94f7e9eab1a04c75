/-
  Abacus/Parse/Rule.lean
  ======================
  **Reading rules and their steps.**  A rule looks at the tokens ahead and gives a value
  and the tokens left, or stops.  A rule that meets a problem also says which tokens were
  ahead of it then; the first of these is the current token.

  The end token is never used up: `advance` stays on it.  So there is always a current
  token, and a rule that finds none names that as a fault.

  `Steps` says what it takes to run a grammar made of these steps.
-/
import Abacus.Problem

namespace Abacus.Parse

/-- Why a rule stopped. -/
inductive Stop where
  /-- A problem with the source, and the tokens that were ahead when it was met. -/
  | problem (p : Problem) (ahead : List Token)
  | fault (f : Fault)
deriving DecidableEq, Repr

/-- What a rule makes of the tokens ahead: a value and the tokens left. -/
abbrev RuleIn (m : Type → Type) (α : Type) := List Token → m (α × List Token)

abbrev Rule (α : Type) := RuleIn (Except Stop) α

/-- The current token. -/
def current : List Token → Except Stop Token
  | [] => .error (.fault .noToken)
  | tok :: _ => .ok tok

/-- The token `offset` places ahead; past the end it is the last one. -/
def peek (offset : Nat) (ahead : List Token) : Except Stop Token :=
  match ahead[offset]?, ahead.getLast? with
  | some tok, _ => .ok tok
  | none, some tok => .ok tok
  | none, none => .error (.fault .noToken)

/-- Takes the current token; the last one stays ahead. -/
def advance : Rule Token
  | [] => .error (.fault .noToken)
  | [tok] => .ok (tok, [tok])
  | tok :: rest => .ok (tok, rest)

/-- Takes the current token if it is of a kind. -/
def expect (kind : Kind) (what : String) : Rule Token := fun ahead =>
  match current ahead with
  | .error stop => .error stop
  | .ok tok =>
    if tok.kind = kind then advance ahead
    else .error (.problem (.expected what tok) ahead)

/-- Takes a name.  A reserved word is a problem of its own. -/
def expectName (what : String) : Rule Token := fun ahead =>
  match current ahead with
  | .error stop => .error stop
  | .ok tok =>
    if tok.kind.isReserved then .error (.problem (.reserved tok) ahead)
    else expect .ident what ahead

/-- Takes the bracket that closes `opening`. -/
def expectClose (opening : Token) : Rule Token := fun ahead =>
  match current ahead with
  | .error stop => .error stop
  | .ok tok =>
    match tok.kind with
    | .rparen => advance ahead
    | .eof => .error (.problem (.unclosed opening tok) ahead)
    | _ => .error (.problem (.notClosing opening tok) ahead)

/-! ### Taking steps -/

/-- How a grammar takes its steps.  Every step above can be taken; `enter` is the step into a rule
    or into a round of a repetition, and `rounds` bounds how many rounds a repetition takes with
    these tokens ahead. -/
class Steps (m : Type → Type) extends MonadLift (Except Stop) m where
  enter : m Unit
  rounds : List Token → Nat

/-- Only what comes of the steps matters, and every round uses up a token. -/
instance : Steps (Except Stop) where
  monadLift x := x
  enter := .ok ()
  rounds := List.length

@[simp]
theorem liftM_eq {α : Type} (x : Except Stop α) : (liftM x : Except Stop α) = x :=
  rfl

@[simp]
theorem enter_bind {α : Type} (f : Unit → Except Stop α) : (Steps.enter >>= f) = f () :=
  rfl

@[simp]
theorem rounds_eq (ahead : List Token) : Steps.rounds (Except Stop) ahead = ahead.length :=
  rfl

@[simp]
theorem ok_bind {α β : Type} (a : α) (f : α → Except Stop β) : (Except.ok a >>= f) = f a :=
  rfl

end Abacus.Parse
