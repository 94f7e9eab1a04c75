/-
  Abacus/Proofs/Testimony.lean
  ============================
  **Errors tell the truth about the program.**  An error names something that stands in the tree
  that was evaluated: a variable, a call, or a call and the declaration it was matched with.  This
  does not go without saying, since the expression that fails is usually the body of a function,
  fetched from a stack under a name that may have been declared many times.

  `Drawn` is the invariant behind it: whatever an evaluation comes to stands in the tree, and so do
  the declarations of all functions in force.  One demand keeps it, hence it holds where the error
  arises.
-/
import Abacus.Proofs.Closedness

namespace Abacus.Eval

/-- The expression stands somewhere in the tree, the bodies of functions included. -/
def Contains (tree e : Expr) : Prop :=
  ∃ names, Occurs ⟨.empty, tree⟩ ⟨names, e⟩

namespace Contains

variable {tree : Expr}

theorem part {e e' : Expr} (h : Contains tree e)
    (hpart : ∀ names, ∃ names', Part ⟨names, e⟩ ⟨names', e'⟩) : Contains tree e' := by
  obtain ⟨names, hoccurs⟩ := h
  obtain ⟨names', hpart⟩ := hpart names
  exact ⟨names', hoccurs.tail hpart⟩

theorem self : Contains tree tree :=
  ⟨.empty, .refl⟩

end Contains

/-- What an error says of the tree that was evaluated with this limit. -/
inductive Testifies (limit : Nat) (tree : Expr) : EvalError → Prop where
  | unbound {name : String} (hvar : Contains tree (.var name)) :
      Testifies limit tree (.unboundVariable name)
  | undefined {name : String} {args : List Expr} (hcall : Contains tree (.call name args)) :
      Testifies limit tree (.undefinedFunction name)
  | arity {name : String} {params : List String} {body next : Expr} {args : List Expr}
      (hfn : Contains tree (.fnIn name params body next))
      (hcall : Contains tree (.call name args)) (hne : params.length ≠ args.length) :
      Testifies limit tree (.arityMismatch name params.length args.length)
  | ceiling {name : String} {params : List String} {body next : Expr} {args : List Expr}
      (hfn : Contains tree (.fnIn name params body next))
      (hcall : Contains tree (.call name args)) (heq : params.length = args.length) :
      Testifies limit tree (.depthExceeded (some name) limit)

/-- The expression at a site stands in the tree, and every function in force is declared there
    under the name by which it is called. -/
structure Drawn (tree : Expr) (site : Site) : Prop where
  expr : Contains tree site.expr
  funs : ∀ name f, site.env.funs name = some f →
    ∃ next, Contains tree (.fnIn name f.params f.body next)

namespace Drawn

variable {tree : Expr} {limit : Nat} {site site' : Site}

theorem initial (tree : Expr) (depth : Nat) : Drawn tree ⟨Scope.empty.env, depth, tree⟩ := by
  constructor
  · exact .self
  · intro name f hf
    cases hf

theorem bindVars_funs (env : Env) (bindings : List (String × Float)) :
    (env.bindVars bindings).funs = env.funs :=
  (Env.Extends.by_bindVars env bindings).funs

/-- **One step keeps to the tree.** -/
theorem demanded (hdemands : Demands limit site site') (h : Drawn tree site) :
    Drawn tree site' := by
  cases hdemands with
  | operand => exact ⟨h.expr.part fun _ => ⟨_, .operand⟩, h.funs⟩
  | left => exact ⟨h.expr.part fun _ => ⟨_, .left⟩, h.funs⟩
  | right => exact ⟨h.expr.part fun _ => ⟨_, .right⟩, h.funs⟩
  | @arg env depth name args before after arg f values hf harity hargs hvalues =>
    have harg : arg ∈ args := by
      rw [hargs]
      exact List.mem_append_right before List.mem_cons_self
    exact ⟨h.expr.part fun _ => ⟨_, .arg harg⟩, h.funs⟩
  | @body env depth name args f values hf harity hvalues hlimit =>
    -- the body stands in the declaration of the function, not in the call
    obtain ⟨next, hfn⟩ := h.funs name f hf
    refine ⟨hfn.part fun _ => ⟨_, .body⟩, ?_⟩
    simpa only [bindVars_funs] using h.funs
  | rhs => exact ⟨h.expr.part fun _ => ⟨_, .rhs⟩, h.funs⟩
  | afterLet => exact ⟨h.expr.part fun _ => ⟨_, .afterLet⟩, h.funs⟩
  | @afterFn env depth name params body next =>
    refine ⟨h.expr.part fun _ => ⟨_, .afterFn⟩, ?_⟩
    intro other f hf
    simp only [Env.bindFun] at hf
    by_cases hname : other = name
    · rw [hname, Function.update_self] at hf
      cases hf
      rw [hname]
      exact ⟨next, h.expr⟩
    · rw [Function.update_of_ne hname] at hf
      exact h.funs other f hf

theorem testifies {err : EvalError} (h : Drawn tree site) (hblames : Blames limit site err) :
    Testifies limit tree err := by
  cases hblames with
  | unbound => exact .unbound h.expr
  | undefined => exact .undefined h.expr
  | @arity env depth name args f hf harity =>
    obtain ⟨next, hfn⟩ := h.funs name f hf
    exact .arity hfn h.expr harity
  | @ceiling env depth name args f hf harity hlimit =>
    obtain ⟨next, hfn⟩ := h.funs name f hf
    exact .ceiling hfn h.expr harity

end Drawn

theorem Traced.testifies {limit depth : Nat} {tree : Expr} {err : EvalError}
    (h : Traced limit ⟨Scope.empty.env, depth, tree⟩ err) : Testifies limit tree err := by
  obtain ⟨origin, hreaches, hblames⟩ := h
  have hdrawn := hreaches.keeps Drawn.demanded (Drawn.initial tree depth)
  exact hdrawn.testifies hblames

/-- **Errors tell the truth.**  An error of an evaluation from empty stacks names a variable, a call
    or a call with a declaration of its name that stand in the tree; the numbers of a wrong number
    of arguments are those of the declaration and of the call, and differ; a depth that is exceeded
    is the limit.  A program reports the same, unless it ran out of room. -/
theorem errors_testify {limit : Nat} {e : Expr} {err : EvalError} :
    (∀ room within depth calls,
      (interpret limit room within e ⟨.empty, depth, calls⟩).1 = .error (.error err) →
        Testifies limit e err) ∧
    ((evaluate limit e).result = .error (.error err) →
      ¬ RanOut (interpret limit maxRoom none e .initial).1 → Testifies limit e err) := by
  have hinterpret : ∀ room within depth calls,
      (interpret limit room within e ⟨.empty, depth, calls⟩).1 = .error (.error err) →
        Testifies limit e err := by
    intro room within depth calls h
    exact (interpret_traced h).testifies
  refine ⟨hinterpret, ?_⟩
  intro h hroom
  apply hinterpret maxRoom none 0 []
  rw [evaluate_eq] at h
  change (interpret limit maxRoom none e .initial).1 = _
  generalize (interpret limit maxRoom none e .initial).1 = result at h hroom
  rcases result with (err' | within | f) | x
  · cases h
    rfl
  · exact absurd ⟨within, rfl⟩ hroom
  · cases h
  · cases h

/-- `fn f x = <body>; f(1)`: the body is evaluated away from its place in the tree. -/
def inBody (body : Expr) : Expr :=
  .fnIn "f" ["x"] body (.call "f" [.num 1])

theorem errors_testify_inBody :
    ((evaluate 1 (inBody (.var "y"))).result = .error (.error (.unboundVariable "y")) ∧
      Testifies 1 (inBody (.var "y")) (.unboundVariable "y")) ∧
    ((evaluate 1 (inBody (.call "g" []))).result = .error (.error (.undefinedFunction "g")) ∧
      Testifies 1 (inBody (.call "g" [])) (.undefinedFunction "g")) ∧
    ((evaluate 1 (inBody (.call "f" []))).result = .error (.error (.arityMismatch "f" 1 0)) ∧
      Testifies 1 (inBody (.call "f" [])) (.arityMismatch "f" 1 0)) ∧
    ((evaluate 1 (inBody (.call "f" [.var "x"]))).result =
        .error (.error (.depthExceeded (some "f") 1)) ∧
      Testifies 1 (inBody (.call "f" [.var "x"])) (.depthExceeded (some "f") 1)) := by
  refine ⟨⟨rfl, ?_⟩, ⟨rfl, ?_⟩, ⟨rfl, ?_⟩, ⟨rfl, ?_⟩⟩
  · exact errors_testify.2 rfl (not_ranOut_error _)
  · exact errors_testify.2 rfl (not_ranOut_error _)
  · exact errors_testify.2 rfl (not_ranOut_error _)
  · exact errors_testify.2 rfl (not_ranOut_error _)

end Abacus.Eval
