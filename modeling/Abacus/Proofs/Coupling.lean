/-
  Abacus/Proofs/Coupling.lean
  ===========================
  **Two evaluations side by side.**  A second run may have another tree, other stacks or another
  limit than the first.  What is compared, and how far, differs from one question to the next: the
  trees up to their literals, the stacks up to bindings that nothing reads, everything up to the
  first call that a limit refuses.  How the comparison is carried through an evaluation does not
  differ.

  `Coupling` lists what relations between trees, values and states must respect, one field for
  each thing that an evaluation does to a state.  `Coupled` compares two outcomes; errors of the
  first run that are excused end the comparison.  One induction then serves every coupling.
-/
import Abacus.Proofs.Refinement

namespace Abacus.Eval

/-! ### What is compared -/

/-- Both have a value, or both stop for the same reason. -/
inductive SameEnding {ε α : Type} (similar : α → α → Prop) : Except ε α → Except ε α → Prop where
  | ok {x x' : α} (h : similar x x') : SameEnding similar (.ok x) (.ok x')
  | error (err : ε) : SameEnding similar (.error err) (.error err)

theorem SameEnding.eq {ε α : Type} {result result' : Except ε α}
    (h : SameEnding Eq result result') : result = result' := by
  cases h with
  | ok hx => rw [hx]
  | error err => rfl

/-- The same names in the same order, bound to values that are related. -/
def SameNames (values : Float → Float → Prop) :
    List (String × Float) → List (String × Float) → Prop :=
  List.Forall₂ fun binding binding' => binding'.1 = binding.1 ∧ values binding.2 binding'.2

theorem SameNames.eq {bindings bindings' : List (String × Float)}
    (h : SameNames Eq bindings bindings') : bindings = bindings' := by
  refine (List.forall₂_eq_eq_eq ▸ h.imp ?_ : bindings = bindings')
  rintro ⟨name, x⟩ ⟨name', x'⟩ ⟨hname, hx⟩
  exact Prod.ext hname.symm hx

/-- The same construct with the same names, of parts that are related. -/
inductive Corresponds (trees : Expr → Expr → Prop) (values : Float → Float → Prop) :
    Expr → Expr → Prop where
  | num {x x' : Float} (h : values x x') : Corresponds trees values (.num x) (.num x')
  | var (name : String) : Corresponds trees values (.var name) (.var name)
  | neg {operand operand' : Expr} (h : trees operand operand') :
      Corresponds trees values (.neg operand) (.neg operand')
  | bin (op : Operator) {left left' right right' : Expr} (hleft : trees left left')
      (hright : trees right right') :
      Corresponds trees values (.bin op left right) (.bin op left' right')
  | call (name : String) {args args' : List Expr} (hargs : List.Forall₂ trees args args') :
      Corresponds trees values (.call name args) (.call name args')
  | letIn (name : String) {rhs rhs' next next' : Expr} (hrhs : trees rhs rhs')
      (hnext : trees next next') :
      Corresponds trees values (.letIn name rhs next) (.letIn name rhs' next')
  | fnIn (name : String) (params : List String) {body body' next next' : Expr}
      (hbody : trees body body') (hnext : trees next next') :
      Corresponds trees values (.fnIn name params body next) (.fnIn name params body' next')

theorem optionRel_self {α : Type} {r : α → α → Prop} {found : Option α}
    (h : ∀ x, found = some x → r x x) : Option.Rel r found found := by
  cases found with
  | none => exact .none
  | some x => exact .some (h x rfl)

/-- Functions with the same parameters and related bodies. -/
structure SameFunction (trees : Expr → Expr → Prop) (f f' : Definition) : Prop where
  params : f'.params = f.params
  body : trees f.body f'.body

/-- Relations that an evaluation respects. -/
structure Coupling (limit limit' : Nat) (trees : Expr → Expr → Prop) (values : Float → Float → Prop)
    (states : State → State → Prop) (excused : EvalError → Prop) : Prop where
  parts : ∀ {e e'}, trees e e' → Corresponds trees values e e'
  /-- A name that a tree reads means related values, or nothing to the first run. -/
  vars : ∀ {st st' name}, trees (.var name) (.var name) → states st st' →
    Option.Rel values (st.scope.vars.lookup name) (st'.scope.vars.lookup name) ∨
      st.scope.vars.lookup name = none ∧ excused (.unboundVariable name)
  funs : ∀ {st st'} name, states st st' →
    Option.Rel (SameFunction trees) (st.scope.funs.lookup name) (st'.scope.funs.lookup name) ∨
      st.scope.funs.lookup name = none ∧ excused (.undefinedFunction name)
  neg : ∀ {x x'}, values x x' → values (-x) (-x')
  bin : ∀ {x x' y y'} (op : Operator), values x x' → values y y' →
    values (op.value x y) (op.value x' y')
  enterVars : ∀ {st st' bindings bindings'}, states st st' → SameNames values bindings bindings' →
    states { st with scope := st.scope.enter .vars bindings }
      { st' with scope := st'.scope.enter .vars bindings' }
  enterFun : ∀ {st st' body body'} name params, states st st' → trees body body' →
    states { st with scope := st.scope.enter .funs [(name, ⟨name, params, body⟩)] }
      { st' with scope := st'.scope.enter .funs [(name, ⟨name, params, body'⟩)] }
  /-- The end of a block brings back the scopes from before it. -/
  back : ∀ {st st' st₁ st₁'}, states st st' → states st₁ st₁' →
    states { st₁ with scope := st.scope } { st₁' with scope := st'.scope }
  depth : ∀ {st st'}, states st st' → st'.depth = st.depth
  call : ∀ {st st' args args'} name, states st st' → List.Forall₂ values args args' →
    states { st with depth := st.depth + 1, calls := ⟨name, args, st.depth + 1⟩ :: st.calls }
      { st' with depth := st'.depth + 1, calls := ⟨name, args', st'.depth + 1⟩ :: st'.calls }
  uncall : ∀ {st st'}, states st st' →
    states { st with depth := st.depth - 1 } { st' with depth := st'.depth - 1 }
  /-- The second run is refused the same calls, or fewer if refusals are excused. -/
  limits : limit' = limit ∨
    limit ≤ limit' ∧ ∀ function, excused (.depthExceeded function limit)

/-! ### Outcomes side by side -/

/-- The first outcome is an error that is excused, or the second ends alike. -/
def Coupled {α : Type} (states : State → State → Prop) (excused : EvalError → Prop)
    (values : α → α → Prop) (outcome outcome' : Outcome α) : Prop :=
  (∃ err, excused err ∧ outcome.1 = .error (.error err)) ∨
    SameEnding values outcome.1 outcome'.1 ∧ states outcome.2 outcome'.2

variable {limit limit' : Nat} {trees : Expr → Expr → Prop} {values : Float → Float → Prop}
  {states : State → State → Prop} {excused : EvalError → Prop}

namespace Coupled

variable {α β : Type} {similar : α → α → Prop} {similar' : β → β → Prop}

theorem ok {x x' : α} {st st' : State} (hvalue : similar x x') (hstate : states st st') :
    Coupled states excused similar (.ok x, st) (.ok x', st') :=
  .inr ⟨.ok hvalue, hstate⟩

theorem stop {st st' : State} (stop : Stop) (hstate : states st st') :
    Coupled states excused similar (.error stop, st) (.error stop, st') :=
  .inr ⟨.error stop, hstate⟩

theorem excuse {err : EvalError} {st : State} {outcome' : Outcome α} (h : excused err) :
    Coupled states excused similar (.error (.error err), st) outcome' :=
  .inl ⟨err, h, rfl⟩

theorem andThen {outcome outcome' : Outcome α} {next next' : α → State → Outcome β}
    (h : Coupled states excused similar outcome outcome')
    (hnext : ∀ x x' st st', similar x x' → states st st' →
      Coupled states excused similar' (next x st) (next' x' st')) :
    Coupled states excused similar' (andThen outcome next) (andThen outcome' next') := by
  obtain ⟨result, st⟩ := outcome
  obtain ⟨result', st'⟩ := outcome'
  rcases h with ⟨err, hexcused, herr⟩ | ⟨hending, hstate⟩
  · obtain rfl : result = _ := herr
    exact excuse hexcused
  · simp only at hending hstate
    cases hending with
    | ok hvalue => exact hnext _ _ _ _ hvalue hstate
    | error reason => exact stop reason hstate

/-- Every evaluation gives its scope back, so a block ends with the scopes it began with. -/
theorem inBlock (hK : Coupling limit limit' trees values states excused) {side : Side}
    {bindings bindings' : List (String × side.Value)} {block block' : State → Outcome α}
    {st st' : State} (hscope : ∀ st, (block st).2.scope = st.scope)
    (hscope' : ∀ st, (block' st).2.scope = st.scope) (h : states st st')
    (hblock : Coupled states excused similar
      (block { st with scope := st.scope.enter side bindings })
      (block' { st' with scope := st'.scope.enter side bindings' })) :
    Coupled states excused similar (inBlock side bindings block st)
      (inBlock side bindings' block' st') := by
  have hback := hscope { st with scope := st.scope.enter side bindings }
  have hback' := hscope' { st' with scope := st'.scope.enter side bindings' }
  unfold Eval.inBlock
  generalize block { st with scope := st.scope.enter side bindings } = outcome at hblock hback
  generalize block' { st' with scope := st'.scope.enter side bindings' } = outcome' at hblock hback'
  obtain ⟨result, st₁⟩ := outcome
  obtain ⟨result', st₁'⟩ := outcome'
  simp only at hback hback'
  simp only [hback, hback', Scope.leave_enter]
  rcases hblock with hexcused | ⟨hending, hstate⟩
  · exact .inl hexcused
  · exact .inr ⟨hending, hK.back h hstate⟩

theorem evalAll {eval eval' : Expr → State → Outcome Float}
    (heval : ∀ e e' st st', trees e e' → states st st' →
      Coupled states excused values (eval e st) (eval' e' st'))
    {args args' : List Expr} (hargs : List.Forall₂ trees args args') :
    ∀ {st st' : State}, states st st' →
      Coupled states excused (List.Forall₂ values) (evalAll eval args st)
        (evalAll eval' args' st') := by
  induction hargs with
  | nil =>
    intro st st' h
    exact ok .nil h
  | @cons arg arg' rest rest' harg _ ih =>
    intro st st' h
    rw [Eval.evalAll, Eval.evalAll]
    apply (heval arg arg' st st' harg h).andThen
    intro x x' st₁ st₁' hx h₁
    apply (ih h₁).andThen
    intro xs xs' st₂ st₂' hxs h₂
    exact ok (.cons hx hxs) h₂

end Coupled

theorem pair?_sameNames : ∀ (params : List String) {args args' : List Float},
    List.Forall₂ values args args' →
      Option.Rel (SameNames values) (pair? params args) (pair? params args')
  | [], [], [], _ => .some .nil
  | [], _ :: _, _ :: _, _ => .none
  | _ :: _, [], [], _ => .none
  | param :: params, arg :: args, arg' :: args', .cons harg hargs => by
    have hrest := pair?_sameNames params hargs
    rw [pair?, pair?]
    generalize pair? params args = bindings at hrest ⊢
    generalize pair? params args' = bindings' at hrest ⊢
    cases hrest with
    | none => exact .none
    | some h => exact .some (.cons ⟨rfl, harg⟩ h)

theorem Coupled.enterCall (hK : Coupling limit limit' trees values states excused) {name : String}
    {f f' : Definition} {args args' : List Float} {body body' : State → Outcome Float}
    {st st' : State} (hscope : ∀ st, (body st).2.scope = st.scope)
    (hscope' : ∀ st, (body' st).2.scope = st.scope) (hparams : f'.params = f.params)
    (hargs : List.Forall₂ values args args') (h : states st st')
    (hbody : ∀ st st', states st st' → Coupled states excused values (body st) (body' st')) :
    Coupled states excused values (enterCall name f args body st)
      (enterCall name f' args' body' st') := by
  have hpairs := pair?_sameNames f.params hargs
  unfold Eval.enterCall
  rw [hparams]
  generalize pair? f.params args = bindings at hpairs ⊢
  generalize pair? f.params args' = bindings' at hpairs ⊢
  cases hpairs with
  | none => exact .stop _ h
  | some hbindings =>
    have hcalled := hK.call name h hargs
    have hentered := hbody _ _ (hK.enterVars hcalled hbindings)
    rcases Coupled.inBlock hK hscope hscope' hcalled hentered with hexcused | ⟨hending, hstate⟩
    · exact .inl hexcused
    · exact .inr ⟨hending, hK.uncall hstate⟩

/-! ### The interpreter -/

/-- **Coupled runs end alike.**  The induction is on the room, since a body is no part of the call
    that leads to it. -/
theorem Coupling.interpret (hK : Coupling limit limit' trees values states excused) :
    ∀ (room : Nat) (within : Option String) (e e' : Expr) (st st' : State), trees e e' →
      states st st' → Coupled states excused values (interpret limit room within e st)
        (interpret limit' room within e' st') := by
  intro room
  induction room with
  | zero =>
    intro within e e' st st' _ h
    exact .stop _ h
  | succ room ih =>
    intro within e e' st st' he h
    have hscope : ∀ limit within e st, (Eval.interpret limit room within e st).2.scope = st.scope :=
      fun limit within e st => (interpret_matches limit room within e st).scope
    cases hK.parts he with
    | num hx => exact .ok hx h
    | var name =>
      rw [interpret_var, interpret_var]
      rcases hK.vars he h with hlookup | ⟨hnone, hexcused⟩
      · generalize st.scope.vars.lookup name = found at hlookup ⊢
        generalize st'.scope.vars.lookup name = found' at hlookup ⊢
        cases hlookup with
        | none => exact .stop _ h
        | some hx => exact .ok hx h
      · rw [hnone]
        exact .excuse hexcused
    | neg hoperand =>
      rw [interpret_neg, interpret_neg]
      apply (ih within _ _ st st' hoperand h).andThen
      intro x x' st₁ st₁' hx h₁
      exact .ok (hK.neg hx) h₁
    | bin op hleft hright =>
      rw [interpret_bin, interpret_bin]
      apply (ih within _ _ st st' hleft h).andThen
      intro x x' st₁ st₁' hx h₁
      apply (ih within _ _ st₁ st₁' hright h₁).andThen
      intro y y' st₂ st₂' hy h₂
      rw [Operator.apply_eq, Operator.apply_eq]
      exact .ok (hK.bin op hx hy) h₂
    | letIn name hrhs hnext =>
      rw [interpret_letIn, interpret_letIn]
      apply (ih within _ _ st st' hrhs h).andThen
      intro x x' st₁ st₁' hx h₁
      apply Coupled.inBlock hK (hscope limit within _) (hscope limit' within _) h₁
      exact ih within _ _ _ _ hnext (hK.enterVars h₁ (.cons ⟨rfl, hx⟩ .nil))
    | fnIn name params hbody hnext =>
      rw [interpret_fnIn, interpret_fnIn]
      apply Coupled.inBlock hK (hscope limit within _) (hscope limit' within _) h
      exact ih within _ _ _ _ hnext (hK.enterFun name params h hbody)
    | call name hargs =>
      rw [interpret_call, interpret_call]
      rcases hK.funs name h with hlookup | ⟨hnone, hexcused⟩
      · generalize st.scope.funs.lookup name = found at hlookup ⊢
        generalize st'.scope.funs.lookup name = found' at hlookup ⊢
        cases hlookup with
        | none => exact .stop _ h
        | @some f f' hf =>
          have harity : f'.arity = f.arity := congrArg List.length hf.params
          simp only [harity, ← hargs.length_eq]
          split
          · exact .stop _ h
          · apply (Coupled.evalAll (ih within) hargs h).andThen
            intro args args' st₁ st₁' hvalues h₁
            have hcall : Coupled states excused values
                (Eval.enterCall name f args (Eval.interpret limit room (some name) f.body) st₁)
                (Eval.enterCall name f' args'
                  (Eval.interpret limit' room (some name) f'.body) st₁') :=
              .enterCall hK (hscope limit (some name) f.body) (hscope limit' (some name) f'.body)
                hf.params hvalues h₁ fun st₂ st₂' => ih (some name) f.body f'.body st₂ st₂' hf.body
            -- the one place where the limits are looked at
            rw [hK.depth h₁]
            rcases hK.limits with rfl | ⟨hle, hexcused⟩
            · split
              · exact .stop _ h₁
              · exact hcall
            · by_cases hlimit : limit ≤ st₁.depth
              · rw [if_pos hlimit]
                exact .excuse (hexcused _)
              · rw [if_neg hlimit, if_neg (by omega)]
                exact hcall
      · rw [hnone]
        exact .excuse hexcused

end Abacus.Eval
