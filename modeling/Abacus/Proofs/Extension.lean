/-
  Abacus/Proofs/Extension.lean
  ============================
  **What is bound matters, not to what.**  Whether an expression has a value, and which error it
  ends in if not, never hangs on the values of variables: there is nothing in the language that
  could look at them.  Binding further variables can only help, by supplying one that was
  missing.

  `Env.Extends` compares environments by their names, `Alike` compares meanings up to values, and
  `denote_alike` says that the one leads to the other.
-/
import Abacus.Proofs.Ceiling

namespace Abacus.Eval

/-! ### Environments with more variables -/

/-- The second environment has the same functions, and binds every variable of the first,
    to whatever value. -/
structure Env.Extends (env env' : Env) : Prop where
  funs : env'.funs = env.funs
  vars : ∀ name, (env.vars name).isSome → (env'.vars name).isSome

namespace Env.Extends

variable {env env' env'' : Env}

theorem refl (env : Env) : env.Extends env :=
  ⟨rfl, fun _ h => h⟩

theorem trans (h : env.Extends env') (h' : env'.Extends env'') : env.Extends env'' :=
  ⟨h'.funs.trans h.funs, fun name hname => h'.vars name (h.vars name hname)⟩

theorem bindVar (h : env.Extends env') (name : String) (x x' : Float) :
    (env.bindVar name x).Extends (env'.bindVar name x') := by
  refine ⟨h.funs, ?_⟩
  intro other hother
  simp only [Env.bindVar] at hother ⊢
  by_cases hname : other = name
  · rw [hname, Function.update_self]
    rfl
  · rw [Function.update_of_ne hname] at hother ⊢
    exact h.vars other hother

theorem bindVars (h : env.Extends env') :
    ∀ (params : List String) {values values' : List Float}, values.length = values'.length →
      (env.bindVars (params.zip values)).Extends (env'.bindVars (params.zip values')) := by
  intro params
  induction params generalizing env env' with
  | nil =>
    intro values values' _
    exact h
  | cons param params ih =>
    intro values values' hlength
    cases values with
    | nil =>
      obtain rfl := List.length_eq_zero_iff.mp hlength.symm
      exact h
    | cons value values =>
      cases values' with
      | nil => cases hlength
      | cons value' values' => exact ih (h.bindVar param value value') (Nat.succ.inj hlength)

theorem bindFun (h : env.Extends env') (f : Definition) :
    (env.bindFun f).Extends (env'.bindFun f) := by
  refine ⟨?_, h.vars⟩
  simp only [Env.bindFun, h.funs]

theorem by_bindVar (env : Env) (name : String) (x : Float) : env.Extends (env.bindVar name x) := by
  refine ⟨rfl, ?_⟩
  intro other hother
  simp only [Env.bindVar]
  by_cases hname : other = name
  · rw [hname, Function.update_self]
    rfl
  · rwa [Function.update_of_ne hname]

theorem by_bindVars (env : Env) (bindings : List (String × Float)) :
    env.Extends (env.bindVars bindings) := by
  induction bindings generalizing env with
  | nil => exact refl env
  | cons binding bindings ih => exact (by_bindVar env binding.1 binding.2).trans (ih _)

end Env.Extends

/-! ### Meanings up to values -/

/-- The second meaning ends as the first does, up to its value, unless the first lacks a
    variable. -/
inductive Alike {α : Type} (similar : α → α → Prop) :
    Except EvalError α → Except EvalError α → Prop where
  | unbound (name : String) (meaning : Except EvalError α) :
      Alike similar (.error (.unboundVariable name)) meaning
  | error (e : EvalError) : Alike similar (.error e) (.error e)
  | ok {x y : α} (h : similar x y) : Alike similar (.ok x) (.ok y)

namespace Alike

variable {α β : Type} {similar : α → α → Prop} {similar' : β → β → Prop}
  {meaning meaning' : Except EvalError α}

theorem bind {next next' : α → Except EvalError β} (h : Alike similar meaning meaning')
    (hnext : ∀ x y, similar x y → Alike similar' (next x) (next' y)) :
    Alike similar' (meaning >>= next) (meaning' >>= next') := by
  cases h with
  | unbound name => exact .unbound name _
  | error e => exact .error e
  | ok h => exact hnext _ _ h

theorem exceeds (h : Alike similar meaning meaning') (hexceeds : Exceeds meaning) :
    Exceeds meaning' := by
  obtain ⟨function, limit, rfl⟩ := hexceeds
  cases h with
  | error => exact ⟨function, limit, rfl⟩

end Alike

theorem denoteAll_alike {limit depth : Nat} {es : List Expr}
    (h : ∀ e ∈ es, ∀ {env env' : Env}, env.Extends env' →
      Alike (fun _ _ => True) (denote limit env depth e) (denote limit env' depth e))
    {env env' : Env} (henv : env.Extends env') :
    Alike (fun values values' => values.length = values'.length) (denoteAll limit env depth es)
      (denoteAll limit env' depth es) := by
  induction es with
  | nil =>
    rw [denoteAll, denoteAll]
    exact .ok rfl
  | cons e rest ih =>
    rw [denoteAll, denoteAll]
    apply (h e List.mem_cons_self henv).bind
    intro x x' _
    apply (ih fun e' he' => h e' (List.mem_cons_of_mem e he')).bind
    intro xs xs' hlength
    exact .ok (congrArg (· + 1) hlength)

/-- **Values do not matter**, and more variables only get an evaluation further. -/
theorem denote_alike (limit depth : Nat) (e : Expr) : ∀ {env env' : Env}, env.Extends env' →
    Alike (fun _ _ => True) (denote limit env depth e) (denote limit env' depth e) := by
  induction depth, e using meaning_induction limit with
  | num depth x =>
    intro env env' henv
    rw [denote, denote]
    exact .ok trivial
  | var depth name =>
    intro env env' henv
    rw [denote, denote]
    have hvars := henv.vars name
    cases hx : env.vars name with
    | none => exact .unbound name _
    | some x =>
      rw [hx] at hvars
      obtain ⟨y, hy⟩ := Option.isSome_iff_exists.mp (hvars rfl)
      rw [hy]
      exact .ok trivial
  | neg depth operand ih =>
    intro env env' henv
    rw [denote, denote]
    apply (ih henv).bind
    intro x y _
    exact .ok trivial
  | bin depth op left right ihleft ihright =>
    intro env env' henv
    rw [denote, denote]
    apply (ihleft henv).bind
    intro x x' _
    apply (ihright henv).bind
    intro y y' _
    exact .ok trivial
  | call depth name args ihargs ihbody =>
    intro env env' henv
    rw [denote, denote, henv.funs]
    cases env.funs name with
    | none => exact .error _
    | some f =>
      dsimp only
      split
      · exact .error _
      · apply (denoteAll_alike ihargs henv).bind
        intro values values' hlength
        -- as many values, so the same parameters are bound
        split
        · exact .error _
        · rename_i hlimit
          exact ihbody (depth + 1) f.body (by omega) (by omega) (henv.bindVars f.params hlength)
  | letIn depth name rhs next ihrhs ihnext =>
    intro env env' henv
    rw [denote, denote]
    apply (ihrhs henv).bind
    intro x x' _
    exact ihnext (henv.bindVar name x x')
  | fnIn depth name params body next ihnext =>
    intro env env' henv
    rw [denote, denote]
    exact ihnext (henv.bindFun ⟨name, params, body⟩)

end Abacus.Eval
