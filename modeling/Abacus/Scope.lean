/-
  Abacus/Scope.lean
  =================
  **Scopes.**  A scope is two stacks of named bindings, one for variables and one for
  functions.  Entering a block puts bindings on a stack, leaving it takes as many entries
  off again.  A name means its innermost binding, so the order of the entries decides
  which bindings are hidden; a name may well be bound twice in one block.
-/
import Abacus.Expr

namespace Abacus

/-! ### Stacks -/

/-- Named bindings, the innermost first. -/
structure Stack (α : Type) where
  entries : List (String × α)
deriving DecidableEq, Repr

namespace Stack

variable {α : Type}

def empty : Stack α := ⟨[]⟩

def size (s : Stack α) : Nat :=
  s.entries.length

/-- The bindings, the oldest first. -/
def toList (s : Stack α) : List (String × α) :=
  s.entries.reverse

def push (s : Stack α) (name : String) (value : α) : Stack α :=
  ⟨(name, value) :: s.entries⟩

/-- Adds bindings in order, so that the last becomes the innermost. -/
def pushAll (s : Stack α) (bindings : List (String × α)) : Stack α :=
  ⟨bindings.reverse ++ s.entries⟩

/-- Entries that cannot be taken off, and how many there are. -/
structure PopError where
  count : Int
  size : Nat
deriving DecidableEq, Repr

def PopError.message (e : PopError) : String :=
  "cannot pop " ++ toString e.count ++ " of " ++ toString e.size ++ " scope entries"

/-- Takes off the innermost entries; refuses a negative number or more than there are. -/
def pop (s : Stack α) (count : Int) : Except PopError (Stack α) :=
  if count < 0 ∨ (s.size : Int) < count then .error ⟨count, s.size⟩
  else .ok ⟨s.entries.drop count.toNat⟩

/-- The innermost value of a name. -/
def lookup (s : Stack α) (name : String) : Option α :=
  (s.entries.find? fun entry => entry.1 = name).map Prod.snd

/-- The bound names, innermost first. -/
def names (s : Stack α) : List String :=
  s.entries.map Prod.fst

end Stack

/-! ### Functions and scopes -/

/-- A function as its callers see it. -/
structure Definition where
  name : String
  params : List String
  body : Expr
deriving DecidableEq, Repr

def Definition.arity (f : Definition) : Nat :=
  f.params.length

/-- The stacks of variables and of functions. -/
structure Scope where
  vars : Stack Float
  funs : Stack Definition
deriving DecidableEq, Repr

/-- One of the two stacks of a scope. -/
inductive Side where
  | vars
  | funs
deriving DecidableEq, Repr

/-- What the names on a stack are bound to. -/
abbrev Side.Value : Side → Type
  | .vars => Float
  | .funs => Definition

namespace Scope

def empty : Scope := ⟨.empty, .empty⟩

def isEmpty (s : Scope) : Bool :=
  s.vars.entries.isEmpty && s.funs.entries.isEmpty

def stack (s : Scope) : (side : Side) → Stack side.Value
  | .vars => s.vars
  | .funs => s.funs

/-- Puts another stack in the place of one of the two. -/
def withStack (s : Scope) : (side : Side) → Stack side.Value → Scope
  | .vars, stack => { s with vars := stack }
  | .funs, stack => { s with funs := stack }

/-- Adds the bindings of a block. -/
def enter (s : Scope) (side : Side) (bindings : List (String × side.Value)) : Scope :=
  s.withStack side ((s.stack side).pushAll bindings)

/-- Takes off entries when a block is left. -/
def leave (s : Scope) (side : Side) (count : Int) : Except Stack.PopError Scope :=
  match (s.stack side).pop count with
  | .ok stack => .ok (s.withStack side stack)
  | .error e => .error e

end Scope
end Abacus
