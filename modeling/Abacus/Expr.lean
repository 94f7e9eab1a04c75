/-
  Abacus/Expr.lean
  ================
  **Expressions.**  A program is one expression: numbers, names, arithmetic and calls, and
  the two declarations.  A declaration carries the expression it scopes over as its
  `next`, so that there are no statements and no program without a value.  Trees are
  built freely: a declaration may stand anywhere and a name may be any text, although the
  reader only builds some of them.
-/
namespace Abacus

/-- The arithmetic operators. -/
inductive Operator where
  | add
  | sub
  | mul
  | div
deriving DecidableEq, Repr

/-- The sign of an operator. -/
def Operator.symbol : Operator → String
  | .add => "+"
  | .sub => "-"
  | .mul => "*"
  | .div => "/"

/-- All operators. -/
def Operator.all : List Operator :=
  [.add, .sub, .mul, .div]

/-- The operator with a given sign. -/
def Operator.ofSymbol? (symbol : String) : Option Operator :=
  Operator.all.find? fun op => op.symbol = symbol

/-- Expressions. -/
inductive Expr where
  /-- A literal. -/
  | num (value : Float)
  /-- The value of a variable. -/
  | var (name : String)
  /-- The negative of an expression. -/
  | neg (operand : Expr)
  /-- Two expressions joined by an operator. -/
  | bin (op : Operator) (left right : Expr)
  /-- A function called with arguments. -/
  | call (function : String) (args : List Expr)
  /-- A variable that `next` sees with the value of `value`. -/
  | letIn (name : String) (value next : Expr)
  /-- A function that `next` can call. -/
  | fnIn (name : String) (params : List String) (body next : Expr)
deriving Inhabited, Repr

namespace Expr

mutual

/-- Decides whether two trees are equal.  Literals are compared bit for bit. -/
def decideEq (a b : Expr) : Decidable (a = b) :=
  match a, b with
  | .num x, .num y => if h : x = y then isTrue (by rw [h]) else isFalse (by simp [h])
  | .var x, .var y => if h : x = y then isTrue (by rw [h]) else isFalse (by simp [h])
  | .neg e, .neg e' =>
    match decideEq e e' with
    | isTrue h => isTrue (by rw [h])
    | isFalse h => isFalse (by simp [h])
  | .bin op l r, .bin op' l' r' =>
    if h : op = op' then
      match decideEq l l', decideEq r r' with
      | isTrue hl, isTrue hr => isTrue (by rw [h, hl, hr])
      | isFalse hl, _ => isFalse (by simp [hl])
      | _, isFalse hr => isFalse (by simp [hr])
    else isFalse (by simp [h])
  | .call f args, .call f' args' =>
    if h : f = f' then
      match decideEqAll args args' with
      | isTrue ha => isTrue (by rw [h, ha])
      | isFalse ha => isFalse (by simp [ha])
    else isFalse (by simp [h])
  | .letIn x v e, .letIn x' v' e' =>
    if h : x = x' then
      match decideEq v v', decideEq e e' with
      | isTrue hv, isTrue he => isTrue (by rw [h, hv, he])
      | isFalse hv, _ => isFalse (by simp [hv])
      | _, isFalse he => isFalse (by simp [he])
    else isFalse (by simp [h])
  | .fnIn f ps b e, .fnIn f' ps' b' e' =>
    if h : f = f' ∧ ps = ps' then
      match decideEq b b', decideEq e e' with
      | isTrue hb, isTrue he => isTrue (by rw [h.1, h.2, hb, he])
      | isFalse hb, _ => isFalse (by simp [hb])
      | _, isFalse he => isFalse (by simp [he])
    else isFalse (by simpa using fun hf hp => absurd ⟨hf, hp⟩ h)
  | .num .., .var .. | .num .., .neg .. | .num .., .bin .. | .num .., .call ..
  | .num .., .letIn .. | .num .., .fnIn .. => isFalse nofun
  | .var .., .num .. | .var .., .neg .. | .var .., .bin .. | .var .., .call ..
  | .var .., .letIn .. | .var .., .fnIn .. => isFalse nofun
  | .neg .., .num .. | .neg .., .var .. | .neg .., .bin .. | .neg .., .call ..
  | .neg .., .letIn .. | .neg .., .fnIn .. => isFalse nofun
  | .bin .., .num .. | .bin .., .var .. | .bin .., .neg .. | .bin .., .call ..
  | .bin .., .letIn .. | .bin .., .fnIn .. => isFalse nofun
  | .call .., .num .. | .call .., .var .. | .call .., .neg .. | .call .., .bin ..
  | .call .., .letIn .. | .call .., .fnIn .. => isFalse nofun
  | .letIn .., .num .. | .letIn .., .var .. | .letIn .., .neg .. | .letIn .., .bin ..
  | .letIn .., .call .. | .letIn .., .fnIn .. => isFalse nofun
  | .fnIn .., .num .. | .fnIn .., .var .. | .fnIn .., .neg .. | .fnIn .., .bin ..
  | .fnIn .., .call .. | .fnIn .., .letIn .. => isFalse nofun

/-- Decides whether two lists of trees are equal. -/
def decideEqAll (as bs : List Expr) : Decidable (as = bs) :=
  match as, bs with
  | [], [] => isTrue rfl
  | a :: as, b :: bs =>
    match decideEq a b, decideEqAll as bs with
    | isTrue h, isTrue hs => isTrue (by rw [h, hs])
    | isFalse h, _ => isFalse (by simp [h])
    | _, isFalse hs => isFalse (by simp [hs])
  | [], _ :: _ => isFalse nofun
  | _ :: _, [] => isFalse nofun

end

instance : DecidableEq Expr := decideEq

end Expr
end Abacus
