/-
  Abacus/Proofs/Frame.lean
  ========================
  **What an evaluation does not look at cannot change it.**  Under dynamic scoping any function may
  read any variable that is bound where it is called, so the names that matter to an evaluation
  are not those of its tree alone.  They are the variables that the tree and the functions in force
  mention.  No step adds to them: what a declaration puts in force comes from the tree.

  `Env.Serves` compares what names mean to two runs, and `Beside` makes a coupling of it.  With no
  excuse, bindings that nothing mentions are unobservable.  With an excuse for every missing name,
  bindings beneath all others do not disturb an evaluation that found what it was looking for.
-/
import Abacus.Proofs.Closedness
import Abacus.Proofs.Coupling

namespace Abacus

/-! ### Names that are mentioned -/

namespace Expr

mutual

/-- The variables that occur in an expression, also in the bodies of its functions. -/
def mentions : Expr → List String
  | .num _ => []
  | .var name => [name]
  | .neg operand => operand.mentions
  | .bin _ left right => left.mentions ++ right.mentions
  | .call _ args => mentionsAll args
  | .letIn _ rhs next => rhs.mentions ++ next.mentions
  | .fnIn _ _ body next => body.mentions ++ next.mentions

def mentionsAll : List Expr → List String
  | [] => []
  | e :: rest => e.mentions ++ mentionsAll rest

end

theorem mem_mentionsAll {name : String} {args : List Expr} {arg : Expr} (harg : arg ∈ args)
    (h : name ∈ arg.mentions) : name ∈ mentionsAll args := by
  induction args with
  | nil => cases harg
  | cons first rest ih =>
    rw [mentionsAll, List.mem_append]
    rcases List.mem_cons.mp harg with rfl | hrest
    · exact .inl h
    · exact .inr (ih hrest)

end Expr

namespace Eval

/-! ### Names in two runs -/

section Runs

variable {live : Set String} {excused : EvalError → Prop}

/-- What names mean to a second run, if only the variables in `live` are read: the same as to the
    first, unless they mean nothing to that one and it is excused. -/
structure Env.Serves (live : Set String) (excused : EvalError → Prop) (env env' : Env) : Prop where
  vars : ∀ name ∈ live, env'.vars name = env.vars name ∨
    env.vars name = none ∧ excused (.unboundVariable name)
  funs : ∀ name, env'.funs name = env.funs name ∨
    env.funs name = none ∧ excused (.undefinedFunction name)
  bodies : ∀ name f, env.funs name = some f → ∀ x ∈ f.body.mentions, x ∈ live

namespace Env.Serves

variable {env env' : Env}

theorem bindVar (h : env.Serves live excused env') (name : String) (x : Float) :
    (env.bindVar name x).Serves live excused (env'.bindVar name x) := by
  refine ⟨?_, h.funs, h.bodies⟩
  intro other hother
  simp only [Env.bindVar]
  by_cases hname : other = name
  · rw [hname, Function.update_self, Function.update_self]
    exact .inl rfl
  · rw [Function.update_of_ne hname, Function.update_of_ne hname]
    exact h.vars other hother

theorem bindVars (h : env.Serves live excused env') (bindings : List (String × Float)) :
    (env.bindVars bindings).Serves live excused (env'.bindVars bindings) := by
  induction bindings generalizing env env' with
  | nil => exact h
  | cons binding bindings ih => exact ih (h.bindVar binding.1 binding.2)

theorem bindFun (h : env.Serves live excused env') {f : Definition}
    (hbody : ∀ x ∈ f.body.mentions, x ∈ live) :
    (env.bindFun f).Serves live excused (env'.bindFun f) := by
  refine ⟨h.vars, ?_, ?_⟩
  · intro other
    simp only [Env.bindFun]
    by_cases hname : other = f.name
    · rw [hname, Function.update_self, Function.update_self]
      exact .inl rfl
    · rw [Function.update_of_ne hname, Function.update_of_ne hname]
      exact h.funs other
  · intro other g hg
    simp only [Env.bindFun] at hg
    by_cases hname : other = f.name
    · rw [hname, Function.update_self] at hg
      cases hg
      exact hbody
    · rw [Function.update_of_ne hname] at hg
      exact h.bodies other g hg

end Env.Serves

/-! ### Runs side by side -/

variable {before before' : List Call}

/-- The states of two runs that have made the same calls since `before` and `before'`. -/
structure Beside (live : Set String) (excused : EvalError → Prop) (before before' : List Call)
    (st st' : State) : Prop where
  env : st.scope.env.Serves live excused st'.scope.env
  depth : st'.depth = st.depth
  calls : ∃ made, st.calls = made ++ before ∧ st'.calls = made ++ before'

/-- One tree, which mentions live variables only. -/
structure Mentions (live : Set String) (e e' : Expr) : Prop where
  same : e' = e
  live : ∀ x ∈ e.mentions, x ∈ live

theorem Mentions.parts {e e' : Expr} (h : Mentions live e e') :
    Corresponds (Mentions live) Eq e e' := by
  obtain ⟨rfl, hlive⟩ := h
  cases e' with
  | num x => exact .num rfl
  | var name => exact .var name
  | neg operand => exact .neg ⟨rfl, hlive⟩
  | bin op left right =>
    rw [Expr.mentions] at hlive
    exact .bin op ⟨rfl, fun x hx => hlive x (List.mem_append_left _ hx)⟩
      ⟨rfl, fun x hx => hlive x (List.mem_append_right _ hx)⟩
  | call name args =>
    refine .call name (List.forall₂_same.mpr fun arg harg => ⟨rfl, fun x hx => ?_⟩)
    exact hlive x (Expr.mem_mentionsAll harg hx)
  | letIn name rhs next =>
    rw [Expr.mentions] at hlive
    exact .letIn name ⟨rfl, fun x hx => hlive x (List.mem_append_left _ hx)⟩
      ⟨rfl, fun x hx => hlive x (List.mem_append_right _ hx)⟩
  | fnIn name params body next =>
    rw [Expr.mentions] at hlive
    exact .fnIn name params ⟨rfl, fun x hx => hlive x (List.mem_append_left _ hx)⟩
      ⟨rfl, fun x hx => hlive x (List.mem_append_right _ hx)⟩

/-- What is not live does not matter to either run. -/
theorem coupling_beside (limit : Nat) :
    Coupling limit limit (Mentions live) Eq (Beside live excused before before') excused where
  parts h := h.parts
  vars := by
    intro st st' name hname h
    have hvars : st'.scope.vars.lookup name = st.scope.vars.lookup name ∨
        st.scope.vars.lookup name = none ∧ excused (.unboundVariable name) :=
      h.env.vars name (hname.live name List.mem_cons_self)
    rcases hvars with hsame | hexcused
    · rw [hsame]
      exact .inl (optionRel_self fun _ _ => rfl)
    · exact .inr hexcused
  funs := by
    intro st st' name h
    have hfuns : st'.scope.funs.lookup name = st.scope.funs.lookup name ∨
        st.scope.funs.lookup name = none ∧ excused (.undefinedFunction name) := h.env.funs name
    rcases hfuns with hsame | hexcused
    · rw [hsame]
      exact .inl (optionRel_self fun f hf => ⟨rfl, rfl, h.env.bodies name f hf⟩)
    · exact .inr hexcused
  neg := by
    rintro x _ rfl
    rfl
  bin := by
    rintro x _ y _ op rfl rfl
    rfl
  enterVars := by
    intro st st' bindings bindings' h hnames
    obtain rfl := hnames.eq
    refine ⟨?_, h.depth, h.calls⟩
    rw [Scope.env_enter_vars, Scope.env_enter_vars]
    exact h.env.bindVars _
  enterFun := by
    rintro st st' body _ name params h ⟨rfl, hlive⟩
    refine ⟨?_, h.depth, h.calls⟩
    rw [Scope.env_enter_fun _ ⟨name, params, _⟩, Scope.env_enter_fun _ ⟨name, params, _⟩]
    exact h.env.bindFun hlive
  back h h₁ := ⟨h.env, h₁.depth, h₁.calls⟩
  depth h := h.depth
  call := by
    intro st st' args args' name h hargs
    obtain rfl : args = args' := List.forall₂_eq_eq_eq ▸ hargs
    obtain ⟨made, hcalls, hcalls'⟩ := h.calls
    refine ⟨h.env, congrArg (· + 1) h.depth, ⟨name, args, st.depth + 1⟩ :: made, ?_, ?_⟩
    · rw [hcalls, List.cons_append]
    · rw [hcalls', h.depth, List.cons_append]
  uncall h := ⟨h.env, congrArg (· - 1) h.depth, h.calls⟩
  limits := .inl rfl

/-- The second run ends as the first does, unless that ends in an error which is excused. -/
theorem interpret_retraces (limit room : Nat) (within : Option String) {e : Expr} {st st' : State}
    (he : ∀ x ∈ e.mentions, x ∈ live) (h : Beside live excused before before' st st') :
    (∃ err, excused err ∧ (interpret limit room within e st).1 = .error (.error err)) ∨
      (interpret limit room within e st').1 = (interpret limit room within e st).1 ∧
      Beside live excused before before' (interpret limit room within e st).2
        (interpret limit room within e st').2 := by
  rcases (coupling_beside limit).interpret room within e e st st' ⟨rfl, he⟩ h with
    hexcused | ⟨hending, hstate⟩
  · exact .inl hexcused
  · exact .inr ⟨hending.eq.symm, hstate⟩

end Runs

/-! ### Bindings that nothing mentions -/

/-- The variables that an evaluation may come to read: those that its expression mentions, and those
    that a function in force mentions. -/
def Live (scope : Scope) (e : Expr) : Set String :=
  { name | name ∈ e.mentions ∨
    ∃ function f, scope.funs.lookup function = some f ∧ name ∈ f.body.mentions }

/-- **Dead bindings are unobservable.**  If functions mean the same on two scopes, and so do the
    variables that the expression or a function in force mentions, an evaluation ends with the same
    value or the same error on both and makes the same calls on the way.  What else is bound, and in
    which order, is all one. -/
theorem interpret_ignores_dead {e : Expr} {st st' : State}
    (hfuns : ∀ name, st'.scope.funs.lookup name = st.scope.funs.lookup name)
    (hvars : ∀ name ∈ Live st.scope e,
      st'.scope.vars.lookup name = st.scope.vars.lookup name)
    (hdepth : st'.depth = st.depth) (limit room : Nat) (within : Option String) :
    (interpret limit room within e st').1 = (interpret limit room within e st).1 ∧
    ∃ made, (interpret limit room within e st).2.calls = made ++ st.calls ∧
      (interpret limit room within e st').2.calls = made ++ st'.calls := by
  have henv : st.scope.env.Serves (Live st.scope e) (fun _ => False) st'.scope.env := by
    constructor
    · intro name hname
      exact .inl (hvars name hname)
    · intro name
      exact .inl (hfuns name)
    · intro function f hf x hx
      exact .inr ⟨function, f, hf, hx⟩
  have hbeside : Beside (Live st.scope e) (fun _ => False) st.calls st'.calls st st' :=
    ⟨henv, hdepth, [], rfl, rfl⟩
  rcases interpret_retraces limit room within (fun x hx => .inl hx) hbeside with
    ⟨err, hnever, -⟩ | ⟨hresult, hended⟩
  · exact hnever.elim
  · exact ⟨hresult, hended.calls⟩

/-- `f z = g(z) * w`, which calls whatever `g` is in force. -/
def scaledCall : Definition :=
  ⟨"f", ["z"], .bin .mul (.call "g" [.var "z"]) (.var "w")⟩

/-- `fn g y = x + y; f(g(2))`. -/
def shiftedCall : Expr :=
  .fnIn "g" ["y"] (.bin .add (.var "x") (.var "y")) (.call "f" [.call "g" [.num 2]])

def State.plain : State :=
  ⟨⟨⟨[("x", 1), ("w", 3)]⟩, ⟨[("f", scaledCall)]⟩⟩, 0, []⟩

/-- The bindings of `plain` in another order, among others. -/
def State.cluttered : State :=
  ⟨⟨⟨[("dead", 0), ("w", 3), ("x", 1), ("x", 7), ("f", 2)]⟩,
    ⟨[("f", scaledCall), ("f", ⟨"f", [], .var "dead"⟩)]⟩⟩, 0, []⟩

theorem lookup_plain_funs (name : String) :
    State.cluttered.scope.funs.lookup name = State.plain.scope.funs.lookup name := by
  by_cases h : "f" = name
  · simp [State.cluttered, State.plain, Stack.lookup, h]
  · simp [State.cluttered, State.plain, Stack.lookup, h]

theorem lookup_plain_vars : ∀ name ∈ Live State.plain.scope shiftedCall,
    State.cluttered.scope.vars.lookup name = State.plain.scope.vars.lookup name := by
  rintro name (hname | ⟨function, f, hf, hname⟩)
  · have hcases : name = "x" ∨ name = "y" := by
      simpa [shiftedCall, Expr.mentions, Expr.mentionsAll] using hname
    rcases hcases with rfl | rfl <;> rfl
  · have hscaled : f = scaledCall := by
      simp only [State.plain, Stack.lookup, List.find?_cons, List.find?_nil] at hf
      split at hf <;> simp_all
    have hcases : name = "z" ∨ name = "w" := by
      simpa [hscaled, scaledCall, Expr.mentions, Expr.mentionsAll] using hname
    rcases hcases with rfl | rfl <;> rfl

theorem cluttered_ignored :
    (∀ name, State.cluttered.scope.funs.lookup name = State.plain.scope.funs.lookup name) ∧
    (∀ name ∈ Live State.plain.scope shiftedCall,
      State.cluttered.scope.vars.lookup name = State.plain.scope.vars.lookup name) ∧
    State.cluttered.depth = State.plain.depth ∧
    (interpret 2 9 none shiftedCall .cluttered).1 = (interpret 2 9 none shiftedCall .plain).1 :=
  ⟨lookup_plain_funs, lookup_plain_vars, rfl,
    (interpret_ignores_dead lookup_plain_funs lookup_plain_vars rfl 2 9 none).1⟩

end Eval

/-! ### Bindings beneath all others -/

namespace Stack

variable {α : Type}

/-- A stack on top of older bindings. -/
def above (s older : Stack α) : Stack α :=
  ⟨s.entries ++ older.entries⟩

theorem lookup_above (s older : Stack α) (name : String) :
    (s.above older).lookup name = (s.lookup name).or (older.lookup name) := by
  simp only [lookup, above, List.find?_append, Option.map_or]

theorem lookup_above_cases (s older : Stack α) (name : String) :
    (s.above older).lookup name = s.lookup name ∨ s.lookup name = none := by
  rw [lookup_above]
  cases s.lookup name with
  | none => exact .inr rfl
  | some value => exact .inl rfl

end Stack

/-- A scope on top of older variables and functions. -/
def Scope.above (s older : Scope) : Scope :=
  ⟨s.vars.above older.vars, s.funs.above older.funs⟩

namespace Eval

def State.above (st : State) (older : Scope) : State :=
  { st with scope := st.scope.above older }

/-- An evaluation that ends with a value, or in an error that is not about a missing name. -/
inductive Finished : Except Stop Float → Prop where
  | value (x : Float) : Finished (.ok x)
  | arity (name : String) (expected found : Int) :
      Finished (.error (.error (.arityMismatch name expected found)))
  | ceiling (function : Option String) (limit : Int) :
      Finished (.error (.error (.depthExceeded function limit)))

theorem beside_above (st : State) (older : Scope) :
    Beside Set.univ (fun err => ∃ side name, err = missing side name) st.calls st.calls st
      (st.above older) := by
  refine ⟨?_, rfl, [], rfl, rfl⟩
  constructor
  · intro name _
    rcases st.scope.vars.lookup_above_cases older.vars name with hsame | hnone
    · exact .inl hsame
    · exact .inr ⟨hnone, .vars, name, rfl⟩
  · intro name
    rcases st.scope.funs.lookup_above_cases older.funs name with hsame | hnone
    · exact .inl hsame
    · exact .inr ⟨hnone, .funs, name, rfl⟩
  · intro name f _ x _
    exact Set.mem_univ x

/-- **Outer bindings never disturb a finished run.**  An evaluation that ends with a value, with a
    wrong number of arguments or at the limit on nested calls ends in the same way on top of any
    further bindings, makes the same calls, and leaves these bindings where they were. -/
theorem interpret_above {limit room : Nat} {within : Option String} {e : Expr} {st : State}
    (h : Finished (interpret limit room within e st).1) (older : Scope) :
    interpret limit room within e (st.above older) =
      ((interpret limit room within e st).1, (interpret limit room within e st).2.above older) := by
  have hmatches := interpret_matches limit room within e st
  have hmatches' := interpret_matches limit room within e (st.above older)
  rcases interpret_retraces limit room within (fun x _ => Set.mem_univ x)
    (beside_above st older) with ⟨err, ⟨side, name, rfl⟩, herr⟩ | ⟨hresult, hended⟩
  · rw [herr] at h
    cases side <;> cases h
  · obtain ⟨made, hcalls, hcalls'⟩ := hended.calls
    have hscope := hmatches.scope
    have hscope' := hmatches'.scope
    have hdepth := hended.depth
    generalize interpret limit room within e (st.above older) = outcome' at *
    generalize interpret limit room within e st = outcome at *
    obtain ⟨result, scope, depth, calls⟩ := outcome
    obtain ⟨result', scope', depth', calls'⟩ := outcome'
    simp only at hresult hscope hscope' hdepth hcalls hcalls'
    simp only [State.above, hresult, hscope, hscope', hdepth, hcalls, hcalls']

/-- `x` is one and `f y = x + y`. -/
def State.inner : State :=
  ⟨⟨⟨[("x", 1)]⟩, ⟨[("f", ⟨"f", ["y"], .bin .add (.var "x") (.var "y")⟩)]⟩⟩, 0, []⟩

/-- Another `x` and another `f`, and more. -/
def outerScope : Scope :=
  ⟨⟨[("x", 7), ("y", 8)]⟩, ⟨[("f", ⟨"f", [], .var "y"⟩), ("g", ⟨"g", [], .num 0⟩)]⟩⟩

theorem inner_above_outerScope :
    (Finished (interpret 1 4 none (.call "f" [.num 2]) .inner).1 ∧
      (interpret 1 4 none (.call "f" [.num 2]) (State.inner.above outerScope)).1 = .ok (1 + 2)) ∧
    (Finished (interpret 1 4 none (.call "f" []) .inner).1 ∧
      (interpret 1 4 none (.call "f" []) (State.inner.above outerScope)).1 =
        .error (.error (.arityMismatch "f" 1 0))) ∧
    (Finished (interpret 0 4 none (.call "f" [.num 2]) .inner).1 ∧
      (interpret 0 4 none (.call "f" [.num 2]) (State.inner.above outerScope)).1 =
        .error (.error (.depthExceeded (some "f") 0))) := by
  have hvalue : Finished (interpret 1 4 none (.call "f" [.num 2]) .inner).1 := .value (1 + 2)
  have harity : Finished (interpret 1 4 none (.call "f" []) .inner).1 := .arity "f" 1 0
  have hceiling : Finished (interpret 0 4 none (.call "f" [.num 2]) .inner).1 :=
    .ceiling (some "f") 0
  refine ⟨⟨hvalue, ?_⟩, ⟨harity, ?_⟩, ⟨hceiling, ?_⟩⟩
  · rw [interpret_above hvalue outerScope]
    rfl
  · rw [interpret_above harity outerScope]
    rfl
  · rw [interpret_above hceiling outerScope]
    rfl

end Eval
end Abacus
