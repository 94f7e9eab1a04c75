/-
  Abacus/Proofs/Semantics.lean
  ============================
  **What an expression means.**  The meaning of an expression is a value or an error, given
  what the names mean and how many calls are in progress.  There is no state: an environment
  is a pair of functions from names, and a binding makes a new environment.  Scoping is
  dynamic, so a call binds its parameters over the environment of the caller.

  No bound on nesting is needed.  A call has one more call in progress than its caller, of
  which there are fewer than `limit`; everything else is about a smaller expression.
-/
import Abacus.Eval.Interpret
import Abacus.Proofs.Arithmetic

namespace Abacus.Eval

/-! ### Environments -/

/-- What the names of variables and of functions mean. -/
structure Env where
  vars : String → Option Float
  funs : String → Option Definition

def Env.bindVar (env : Env) (name : String) (value : Float) : Env :=
  { env with vars := Function.update env.vars name (some value) }

/-- Binds variables from left to right. -/
def Env.bindVars (env : Env) (bindings : List (String × Float)) : Env :=
  bindings.foldl (fun env binding => env.bindVar binding.1 binding.2) env

def Env.bindFun (env : Env) (f : Definition) : Env :=
  { env with funs := Function.update env.funs f.name (some f) }

/-! ### Meanings -/

mutual

/-- The meaning of an expression with so many calls in progress. -/
def denote (limit : Nat) (env : Env) (depth : Nat) (e : Expr) : Except EvalError Float :=
  match e with
  | .num x => .ok x
  | .var name =>
    match env.vars name with
    | some x => .ok x
    | none => .error (.unboundVariable name)
  | .neg operand => do
    let x ← denote limit env depth operand
    return -x
  | .bin op left right => do
    let x ← denote limit env depth left
    let y ← denote limit env depth right
    return op.value x y
  | .call name args =>
    match env.funs name with
    | none => .error (.undefinedFunction name)
    | some f =>
      if f.arity ≠ args.length then .error (.arityMismatch name f.arity args.length)
      else do
        let values ← denoteAll limit env depth args
        if limit ≤ depth then .error (.depthExceeded (some name) limit)
        else denote limit (env.bindVars (f.params.zip values)) (depth + 1) f.body
  | .letIn name rhs next => do
    let x ← denote limit env depth rhs
    denote limit (env.bindVar name x) depth next
  | .fnIn name params body next => denote limit (env.bindFun ⟨name, params, body⟩) depth next
termination_by (limit - depth, sizeOf e)

/-- The meanings of expressions, from left to right. -/
def denoteAll (limit : Nat) (env : Env) (depth : Nat) (es : List Expr) :
    Except EvalError (List Float) :=
  match es with
  | [] => .ok []
  | e :: rest => do
    let x ← denote limit env depth e
    let xs ← denoteAll limit env depth rest
    return x :: xs
termination_by (limit - depth, sizeOf es)

end

/-- **Induction over meanings.**  What an expression means hangs on its parts and, for a call,
    on bodies with more calls in progress, of which there are at most `limit`. -/
theorem meaning_induction (limit : Nat) {P : Nat → Expr → Prop}
    (num : ∀ depth x, P depth (.num x))
    (var : ∀ depth name, P depth (.var name))
    (neg : ∀ depth operand, P depth operand → P depth (.neg operand))
    (bin : ∀ depth op left right, P depth left → P depth right → P depth (.bin op left right))
    (call : ∀ depth name args, (∀ arg ∈ args, P depth arg) →
      (∀ depth' body, depth < depth' → depth' ≤ limit → P depth' body) → P depth (.call name args))
    (letIn : ∀ depth name rhs next, P depth rhs → P depth next → P depth (.letIn name rhs next))
    (fnIn : ∀ depth name params body next, P depth next → P depth (.fnIn name params body next))
    (depth : Nat) (e : Expr) : P depth e := by
  induction hleft : limit - depth using Nat.strong_induction_on generalizing depth e with
  | _ left ihdepth =>
    have deeper : ∀ depth' body, depth < depth' → depth' ≤ limit → P depth' body := by
      intro depth' body hless hle
      exact ihdepth (limit - depth') (by omega) depth' body rfl
    induction hsize : sizeOf e using Nat.strong_induction_on generalizing e with
    | _ size ihsize =>
      have part : ∀ e', sizeOf e' < sizeOf e → P depth e' := by
        intro e' hless
        exact ihsize (sizeOf e') (hsize ▸ hless) e' rfl
      cases e with
      | num x => exact num depth x
      | var name => exact var depth name
      | neg operand => exact neg depth operand (part operand (by simp))
      | bin op left right =>
        exact bin depth op left right (part left (by simp; omega)) (part right (by simp))
      | call name args =>
        refine call depth name args ?_ deeper
        intro arg harg
        have hless := List.sizeOf_lt_of_mem harg
        exact part arg (by simp; omega)
      | letIn name rhs next =>
        exact letIn depth name rhs next (part rhs (by simp; omega)) (part next (by simp))
      | fnIn name params body next => exact fnIn depth name params body next (part next (by simp))

end Abacus.Eval
