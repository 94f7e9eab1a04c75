/-
  Abacus/Proofs/Provenance.lean
  =============================
  **Where errors come from.**  An expression that has no value owes that to one place: some
  expression that its evaluation came to, with the names as they were then, could not go on.

  `Demands` says what the evaluation of an expression evaluates next, with the conditions under
  which it gets there: an argument after those before it, a body after all arguments and below
  the limit.  `Blames` says what a single expression fails with by itself.  `denote_traced` puts
  the two together.  A property that demands keep therefore holds where an error arises, so that
  facts about errors need no induction of their own.
-/
import Abacus.Proofs.Ceiling

namespace Abacus.Eval

/-! ### Sites -/

/-- An expression to be evaluated, with what names mean there and how many calls are in
    progress. -/
structure Site where
  env : Env
  depth : Nat
  expr : Expr

/-- The evaluation at the first site comes to the second. -/
inductive Demands (limit : Nat) : Site → Site → Prop where
  | operand {env : Env} {depth : Nat} {operand : Expr} :
      Demands limit ⟨env, depth, .neg operand⟩ ⟨env, depth, operand⟩
  | left {env : Env} {depth : Nat} {op : Operator} {left right : Expr} :
      Demands limit ⟨env, depth, .bin op left right⟩ ⟨env, depth, left⟩
  | right {env : Env} {depth : Nat} {op : Operator} {left right : Expr} {x : Float}
      (hx : denote limit env depth left = .ok x) :
      Demands limit ⟨env, depth, .bin op left right⟩ ⟨env, depth, right⟩
  | arg {env : Env} {depth : Nat} {name : String} {args before after : List Expr} {arg : Expr}
      {f : Definition} {values : List Float} (hf : env.funs name = some f)
      (harity : f.arity = args.length) (hargs : args = before ++ arg :: after)
      (hvalues : denoteAll limit env depth before = .ok values) :
      Demands limit ⟨env, depth, .call name args⟩ ⟨env, depth, arg⟩
  | body {env : Env} {depth : Nat} {name : String} {args : List Expr} {f : Definition}
      {values : List Float} (hf : env.funs name = some f) (harity : f.arity = args.length)
      (hvalues : denoteAll limit env depth args = .ok values) (hlimit : depth < limit) :
      Demands limit ⟨env, depth, .call name args⟩
        ⟨env.bindVars (f.params.zip values), depth + 1, f.body⟩
  | rhs {env : Env} {depth : Nat} {name : String} {rhs next : Expr} :
      Demands limit ⟨env, depth, .letIn name rhs next⟩ ⟨env, depth, rhs⟩
  | afterLet {env : Env} {depth : Nat} {name : String} {rhs next : Expr} {x : Float}
      (hx : denote limit env depth rhs = .ok x) :
      Demands limit ⟨env, depth, .letIn name rhs next⟩ ⟨env.bindVar name x, depth, next⟩
  | afterFn {env : Env} {depth : Nat} {name : String} {params : List String} {body next : Expr} :
      Demands limit ⟨env, depth, .fnIn name params body next⟩
        ⟨env.bindFun ⟨name, params, body⟩, depth, next⟩

/-- The evaluation at the first site comes to the second sooner or later. -/
abbrev Reaches (limit : Nat) : Site → Site → Prop :=
  Relation.ReflTransGen (Demands limit)

/-- What every demand keeps holds at all sites that are reached. -/
theorem Reaches.keeps {limit : Nat} {P : Site → Prop}
    (hstep : ∀ {site site'}, Demands limit site site' → P site → P site') {site site' : Site}
    (h : Reaches limit site site') (hsite : P site) : P site' := by
  induction h with
  | refl => exact hsite
  | tail _ hdemands ih => exact hstep hdemands ih

/-! ### Errors and their sites -/

/-- The expression at a site fails by itself, before or after its parts. -/
inductive Blames (limit : Nat) : Site → EvalError → Prop where
  | unbound {env : Env} {depth : Nat} {name : String} (h : env.vars name = none) :
      Blames limit ⟨env, depth, .var name⟩ (.unboundVariable name)
  | undefined {env : Env} {depth : Nat} {name : String} {args : List Expr}
      (h : env.funs name = none) :
      Blames limit ⟨env, depth, .call name args⟩ (.undefinedFunction name)
  | arity {env : Env} {depth : Nat} {name : String} {args : List Expr} {f : Definition}
      (hf : env.funs name = some f) (harity : f.arity ≠ args.length) :
      Blames limit ⟨env, depth, .call name args⟩ (.arityMismatch name f.arity args.length)
  | ceiling {env : Env} {depth : Nat} {name : String} {args : List Expr} {f : Definition}
      (hf : env.funs name = some f) (harity : f.arity = args.length) (hlimit : limit ≤ depth) :
      Blames limit ⟨env, depth, .call name args⟩ (.depthExceeded (some name) limit)

/-- The error arises at a site that the evaluation comes to. -/
def Traced (limit : Nat) (site : Site) (err : EvalError) : Prop :=
  ∃ origin, Reaches limit site origin ∧ Blames limit origin err

theorem Traced.here {limit : Nat} {site : Site} {err : EvalError} (h : Blames limit site err) :
    Traced limit site err :=
  ⟨site, .refl, h⟩

theorem Traced.after {limit : Nat} {site site' : Site} {err : EvalError}
    (hdemands : Demands limit site site') (h : Traced limit site' err) :
    Traced limit site err := by
  obtain ⟨origin, hreaches, hblames⟩ := h
  exact ⟨origin, .head hdemands hreaches, hblames⟩

theorem bind_eq_error {α β : Type} {meaning : Except EvalError α} {next : α → Except EvalError β}
    {err : EvalError} (h : meaning >>= next = .error err) :
    meaning = .error err ∨ ∃ x, meaning = .ok x ∧ next x = .error err := by
  cases meaning with
  | error err' =>
    cases h
    exact Or.inl rfl
  | ok x => exact Or.inr ⟨x, rfl, h⟩

/-- The first argument without a value is the one whose error counts. -/
theorem exists_arg_of_denoteAll_eq_error {limit : Nat} {env : Env} {depth : Nat}
    {err : EvalError} : ∀ {args : List Expr}, denoteAll limit env depth args = .error err →
      ∃ before arg after values, args = before ++ arg :: after ∧
        denoteAll limit env depth before = .ok values ∧ denote limit env depth arg = .error err := by
  intro args
  induction args with
  | nil =>
    intro h
    rw [denoteAll] at h
    cases h
  | cons arg args ih =>
    intro h
    rw [denoteAll] at h
    rcases bind_eq_error h with hfirst | ⟨x, hx, hrest⟩
    · exact ⟨[], arg, args, [], rfl, by rw [denoteAll], hfirst⟩
    · rcases bind_eq_error hrest with hrest | ⟨xs, -, hpure⟩
      · obtain ⟨before, arg', after, values, rfl, hvalues, herr⟩ := ih hrest
        refine ⟨arg :: before, arg', after, x :: values, rfl, ?_, herr⟩
        rw [denoteAll, hx, hvalues]
        rfl
      · cases hpure

/-- **Every error has an origin**: a site that the evaluation comes to, where an expression
    fails with that error by itself. -/
theorem denote_traced (limit depth : Nat) (e : Expr) : ∀ {env : Env} {err : EvalError},
    denote limit env depth e = .error err → Traced limit ⟨env, depth, e⟩ err := by
  induction depth, e using meaning_induction limit with
  | num depth x =>
    intro env err h
    rw [denote] at h
    cases h
  | var depth name =>
    intro env err h
    rw [denote] at h
    cases hx : env.vars name with
    | some x =>
      rw [hx] at h
      cases h
    | none =>
      rw [hx] at h
      cases h
      exact .here (.unbound hx)
  | neg depth operand ih =>
    intro env err h
    rw [denote] at h
    rcases bind_eq_error h with herr | ⟨x, -, hpure⟩
    · exact (ih herr).after .operand
    · cases hpure
  | bin depth op left right ihleft ihright =>
    intro env err h
    rw [denote] at h
    rcases bind_eq_error h with herr | ⟨x, hx, hrest⟩
    · exact (ihleft herr).after .left
    · rcases bind_eq_error hrest with herr | ⟨y, -, hpure⟩
      · exact (ihright herr).after (.right hx)
      · cases hpure
  | call depth name args ihargs ihbody =>
    intro env err h
    rw [denote] at h
    cases hf : env.funs name with
    | none =>
      rw [hf] at h
      cases h
      exact .here (.undefined hf)
    | some f =>
      rw [hf] at h
      dsimp only at h
      by_cases harity : f.arity = args.length
      · rw [if_neg (not_not.mpr harity)] at h
        rcases bind_eq_error h with herr | ⟨values, hvalues, hrest⟩
        · obtain ⟨before, arg, after, values, hargs, hvalues, herr⟩ :=
            exists_arg_of_denoteAll_eq_error herr
          have harg : arg ∈ args := by
            rw [hargs]
            exact List.mem_append_right before List.mem_cons_self
          exact (ihargs arg harg herr).after (.arg hf harity hargs hvalues)
        · by_cases hlimit : limit ≤ depth
          · rw [if_pos hlimit] at hrest
            cases hrest
            exact .here (.ceiling hf harity hlimit)
          · rw [if_neg hlimit] at hrest
            exact (ihbody (depth + 1) f.body (by omega) (by omega) hrest).after
              (.body hf harity hvalues (by omega))
      · rw [if_pos harity] at h
        cases h
        exact .here (.arity hf harity)
  | letIn depth name rhs next ihrhs ihnext =>
    intro env err h
    rw [denote] at h
    rcases bind_eq_error h with herr | ⟨x, hx, hrest⟩
    · exact (ihrhs herr).after .rhs
    · exact (ihnext hrest).after (.afterLet hx)
  | fnIn depth name params body next ihnext =>
    intro env err h
    rw [denote] at h
    exact (ihnext h).after .afterFn

/-! ### Errors of an evaluation -/

/-- An evaluation that ends in an error has it from its meaning. -/
theorem interpret_traced {limit room : Nat} {within : Option String} {e : Expr} {st : State}
    {err : EvalError} (h : (interpret limit room within e st).1 = .error (.error err)) :
    Traced limit ⟨st.scope.env, st.depth, e⟩ err := by
  rcases (interpret_matches limit room within e st).result with ⟨name, hout⟩ | hanswer
  · rw [h] at hout
    cases hout
  · apply denote_traced
    rw [h] at hanswer
    cases hmeaning : denote limit st.scope.env st.depth e with
    | ok x =>
      rw [hmeaning] at hanswer
      cases hanswer
    | error err' =>
      rw [hmeaning] at hanswer
      cases hanswer
      rfl

/-- An error of a program is traced to a site, or reports that there was no room left. -/
theorem evaluate_traced {limit : Nat} {e : Expr} {err : EvalError}
    (h : (evaluate limit e).result = .error (.error err)) :
    Traced limit ⟨Scope.empty.env, 0, e⟩ err ∨ ∃ within, err = .depthExceeded within limit := by
  rw [evaluate_eq] at h
  rcases hresult : (interpret limit maxRoom none e .initial).1 with (err' | within | f) | x
  · rw [hresult] at h
    cases h
    exact Or.inl (interpret_traced hresult)
  · rw [hresult] at h
    cases h
    exact Or.inr ⟨within, rfl⟩
  · rw [hresult] at h
    cases h
  · rw [hresult] at h
    cases h

end Abacus.Eval
