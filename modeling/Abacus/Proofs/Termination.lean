/-
  Abacus/Proofs/Termination.lean
  ==============================
  **Every evaluation ends.**  The body of a function is fetched from a stack; it may be larger than
  the call and may call the function again, so an evaluation does not just go down a tree.  What
  bounds it is how many calls may still be nested.  Between two calls an evaluation does go down
  one tree, so each expression of that tree is evaluated at most once.

  `steps` counts the expressions that an evaluation evaluates.  It costs at most

      (expressions of the tree) * (expressions in sight) ^ (calls that may still be nested)

  steps, whatever room it is given: an argument is paid for by the tree it stands in, and a call
  pays for its body out of the power that the nested call uses up.  An evaluation that is cut
  short has nested as many expressions as it had room for, so with more room than this none is.
-/
import Abacus.Proofs.Refinement

namespace Abacus

/-! ### Sizes -/

namespace Expr

mutual

/-- How many expressions a tree is made of. -/
def size : Expr → Nat
  | .num _ | .var _ => 1
  | .neg operand => operand.size + 1
  | .bin _ left right => left.size + right.size + 1
  | .call _ args => sizeAll args + 1
  | .letIn _ rhs next => rhs.size + next.size + 1
  | .fnIn _ _ body next => body.size + next.size + 1

def sizeAll : List Expr → Nat
  | [] => 0
  | e :: rest => e.size + sizeAll rest

end

theorem size_pos (e : Expr) : 0 < e.size := by
  cases e <;> simp [size]

end Expr

namespace Eval

/-- How many expressions there are in a tree and in the bodies of the functions in force. -/
def codeSize (scope : Scope) (e : Expr) : Nat :=
  e.size + (scope.funs.entries.map fun entry => entry.2.body.size).sum

/-! ### Counting steps -/

/-- Steps after an outcome: none if it has no value. -/
def stepsAfter {α : Type} (outcome : Outcome α) (next : α → State → Nat) : Nat :=
  match outcome with
  | (.ok value, st) => next value st
  | (.error _, _) => 0

/-- Steps inside a block. -/
def stepsInBlock (side : Side) (bindings : List (String × side.Value)) (block : State → Nat)
    (st : State) : Nat :=
  block { st with scope := st.scope.enter side bindings }

/-- Steps inside the body of a function. -/
def stepsInCall (name : String) (f : Definition) (values : List Float) (body : State → Nat)
    (st : State) : Nat :=
  match pair? f.params values with
  | none => 0
  | some bindings =>
    stepsInBlock .vars bindings body
      { st with depth := st.depth + 1, calls := ⟨name, values, st.depth + 1⟩ :: st.calls }

/-- Steps of expressions from left to right. -/
def stepsAll (eval : Expr → State → Outcome Float) (steps : Expr → State → Nat) :
    List Expr → State → Nat
  | [], _ => 0
  | e :: rest, st => steps e st + stepsAfter (eval e st) fun _ st => stepsAll eval steps rest st

/-- How many expressions the interpreter evaluates, the given one included. -/
def steps (limit : Nat) : (room : Nat) → (within : Option String) → Expr → State → Nat
  | 0, _, _, _ => 0
  | room + 1, within, e, st =>
    match e with
    | .num _ | .var _ => 1
    | .neg operand => steps limit room within operand st + 1
    | .bin _ left right =>
      steps limit room within left st +
        stepsAfter (interpret limit room within left st) (fun _ st =>
          steps limit room within right st) + 1
    | .call name args =>
      match st.scope.funs.lookup name with
      | none => 1
      | some f =>
        if f.arity ≠ args.length then 1
        else
          stepsAll (interpret limit room within) (steps limit room within) args st +
            stepsAfter (evalAll (interpret limit room within) args st) (fun values st =>
              if limit ≤ st.depth then 0
              else stepsInCall name f values (steps limit room (some name) f.body) st) + 1
    | .letIn name rhs next =>
      steps limit room within rhs st +
        stepsAfter (interpret limit room within rhs st) (fun x st =>
          stepsInBlock .vars [(name, x)] (steps limit room within next) st) + 1
    | .fnIn name params body next =>
      stepsInBlock .funs [(name, ⟨name, params, body⟩)] (steps limit room within next) st + 1

/-! ### The bound -/

/-- At least as many steps as any evaluation of an expression takes. -/
def stepBound (limit : Nat) (e : Expr) (st : State) : Nat :=
  e.size * codeSize st.scope e ^ (limit - st.depth)

/-- All bodies of the functions in force are smaller than `code`. -/
def BodiesBelow (code : Nat) (scope : Scope) : Prop :=
  ∀ entry ∈ scope.funs.entries, entry.2.body.size < code

theorem bodiesBelow_codeSize (scope : Scope) (e : Expr) :
    BodiesBelow (codeSize scope e) scope := by
  intro entry hentry
  have hmem : entry.2.body.size ∈ scope.funs.entries.map fun entry => entry.2.body.size :=
    List.mem_map_of_mem hentry
  have hsum := List.le_sum_of_mem hmem
  have hpos := e.size_pos
  unfold codeSize
  omega

theorem BodiesBelow.of_lookup {code : Nat} {scope : Scope} (h : BodiesBelow code scope)
    {name : String} {f : Definition} (hf : scope.funs.lookup name = some f) :
    f.body.size < code := by
  obtain ⟨entry, hfind, rfl⟩ := Option.map_eq_some_iff.mp hf
  exact h entry (List.mem_of_find?_eq_some hfind)

theorem BodiesBelow.enterFun {code : Nat} {scope : Scope} (h : BodiesBelow code scope)
    {name : String} {f : Definition} (hf : f.body.size < code) :
    BodiesBelow code (scope.enter .funs [(name, f)]) := by
  intro entry hentry
  rcases List.mem_cons.mp hentry with rfl | hmem
  · exact hf
  · exact h entry hmem

/-- What comes after an outcome starts with the scope and the depth of the first step. -/
theorem stepsAfter_le {α : Type} {meaning : Except EvalError α} {st : State}
    {outcome : Outcome α} {next : α → State → Nat} {bound : Nat}
    (h : Matches 0 meaning st outcome)
    (hnext : ∀ x st', meaning = .ok x → st'.scope = st.scope → st'.depth = st.depth →
      next x st' ≤ bound) : stepsAfter outcome next ≤ bound := by
  obtain ⟨result, st'⟩ := outcome
  cases result with
  | ok x => exact hnext x st' (h.eq_ok rfl) h.scope h.depth
  | error stop => exact Nat.zero_le _

/-- The steps of an expression are at most its size times what a step may cost. -/
def Costs (limit code : Nat) (steps : Expr → State → Nat) : Prop :=
  ∀ e st, BodiesBelow code st.scope → e.size ≤ code →
    steps e st ≤ e.size * code ^ (limit - st.depth)

theorem stepsAll_le {limit room code : Nat} {within : Option String}
    (h : Costs limit code (steps limit room within)) :
    ∀ (es : List Expr) (st : State), BodiesBelow code st.scope → Expr.sizeAll es ≤ code →
      stepsAll (interpret limit room within) (steps limit room within) es st ≤
        Expr.sizeAll es * code ^ (limit - st.depth) := by
  intro es
  induction es with
  | nil =>
    intro st _ _
    exact Nat.zero_le _
  | cons e rest ih =>
    intro st hbodies hsize
    rw [Expr.sizeAll] at hsize
    rw [stepsAll, Expr.sizeAll, Nat.add_mul]
    apply Nat.add_le_add
    · exact h e st hbodies (by omega)
    · apply stepsAfter_le (interpret_matches limit room within e st)
      intro x st' _ hscope hdepth
      rw [← hdepth]
      exact ih st' (hscope ▸ hbodies) (by omega)

theorem stepsInCall_le {limit code : Nat} {steps : Expr → State → Nat} (h : Costs limit code steps)
    {name : String} {f : Definition} {values : List Float} {st : State}
    (hbodies : BodiesBelow code st.scope) (hsize : f.body.size < code) :
    stepsInCall name f values (steps f.body) st ≤
      f.body.size * code ^ (limit - (st.depth + 1)) := by
  unfold stepsInCall
  cases pair? f.params values with
  | none => exact Nat.zero_le _
  | some bindings => exact h f.body _ hbodies hsize.le

/-- A body is paid for by the call: one power is worth a body and the call itself. -/
theorem body_le_pow {limit depth code size : Nat} (hsize : size < code) (hlimit : depth < limit) :
    size * code ^ (limit - (depth + 1)) + 1 ≤ code ^ (limit - depth) := by
  obtain ⟨left, hleft⟩ : ∃ left, limit - depth = left + 1 := ⟨limit - depth - 1, by omega⟩
  have hrest : limit - (depth + 1) = left := by omega
  have hpos : 0 < code ^ left := Nat.pow_pos (by omega)
  rw [hleft, hrest]
  calc size * code ^ left + 1 ≤ size * code ^ left + code ^ left := by omega
    _ = (size + 1) * code ^ left := by ring
    _ ≤ code * code ^ left := Nat.mul_le_mul_right _ hsize
    _ = code ^ (left + 1) := by ring

/-- **No evaluation takes more steps than the bound**, whatever room it is given. -/
theorem steps_le (limit code : Nat) : ∀ (room : Nat) (within : Option String),
    Costs limit code (steps limit room within) := by
  intro room
  induction room with
  | zero =>
    intro within e st _ _
    exact Nat.zero_le _
  | succ room ih =>
    intro within e st hbodies hsize
    have hcode : 0 < code := e.size_pos.trans_le hsize
    have hpow : 1 ≤ code ^ (limit - st.depth) := Nat.pow_pos hcode
    cases e with
    | num x =>
      rw [steps, Expr.size]
      omega
    | var name =>
      rw [steps, Expr.size]
      omega
    | neg operand =>
      rw [Expr.size] at hsize
      rw [steps, Expr.size, Nat.succ_mul]
      exact Nat.add_le_add (ih within operand st hbodies (by omega)) hpow
    | bin op left right =>
      rw [Expr.size] at hsize
      rw [steps, Expr.size, Nat.succ_mul, Nat.add_mul]
      refine Nat.add_le_add (Nat.add_le_add (ih within left st hbodies (by omega)) ?_) hpow
      apply stepsAfter_le (interpret_matches limit room within left st)
      intro x st₁ _ hscope hdepth
      rw [← hdepth]
      exact ih within right st₁ (hscope ▸ hbodies) (by omega)
    | call name args =>
      rw [Expr.size] at hsize
      rw [steps, Expr.size, Nat.succ_mul]
      cases hf : st.scope.funs.lookup name with
      | none =>
        dsimp only
        omega
      | some f =>
        dsimp only
        split
        · omega
        · have hargs := stepsAll_le (ih within) args st hbodies (by omega)
          rw [Nat.add_assoc]
          refine Nat.add_le_add hargs ?_
          -- what is left are the body and the call itself
          have hmatches := Matches.evalAll (interpret_matches limit room within) args st
          by_cases hlimit : limit ≤ st.depth
          · refine le_trans (Nat.add_le_add_right (stepsAfter_le hmatches ?_ : _ ≤ 0) 1) hpow
            intro values st₁ _ _ hdepth
            rw [hdepth, if_pos hlimit]
          · have hsmall := hbodies.of_lookup hf
            refine le_trans (Nat.add_le_add_right (stepsAfter_le hmatches ?_) 1)
              (body_le_pow hsmall (Nat.lt_of_not_le hlimit))
            intro values st₁ _ hscope hdepth
            rw [hdepth, if_neg hlimit, ← hdepth]
            exact stepsInCall_le (ih (some name)) (hscope ▸ hbodies) hsmall
    | letIn name rhs next =>
      rw [Expr.size] at hsize
      rw [steps, Expr.size, Nat.succ_mul, Nat.add_mul]
      refine Nat.add_le_add (Nat.add_le_add (ih within rhs st hbodies (by omega)) ?_) hpow
      apply stepsAfter_le (interpret_matches limit room within rhs st)
      intro x st₁ _ hscope hdepth
      rw [← hdepth]
      have hbodies₁ : BodiesBelow code (st₁.scope.enter .vars [(name, x)]) := hscope ▸ hbodies
      exact ih within next { st₁ with scope := st₁.scope.enter .vars [(name, x)] } hbodies₁ (by omega)
    | fnIn name params body next =>
      rw [Expr.size] at hsize
      rw [steps, Expr.size, Nat.succ_mul]
      refine Nat.add_le_add ?_ hpow
      have hsmall : body.size < code := by omega
      have hentered : BodiesBelow code (st.scope.enter .funs [(name, ⟨name, params, body⟩)]) :=
        hbodies.enterFun hsmall
      have hnext := ih within next
        { st with scope := st.scope.enter .funs [(name, ⟨name, params, body⟩)] } hentered (by omega)
      exact hnext.trans (Nat.mul_le_mul_right _ (Nat.le_add_left _ _))

/-! ### Room -/

/-- What ran out of room did so in its first part or after it. -/
theorem le_add_stepsAfter {α β : Type} {outcome : Outcome α} {next : α → State → Outcome β}
    {more : α → State → Nat} {n first : Nat} (h : RanOut (andThen outcome next).1)
    (hfirst : RanOut outcome.1 → n ≤ first)
    (hmore : ∀ x st, RanOut (next x st).1 → n ≤ more x st) :
    n ≤ first + stepsAfter outcome more := by
  obtain ⟨result, st⟩ := outcome
  cases result with
  | ok x => exact (hmore x st h).trans (Nat.le_add_left _ _)
  | error stop =>
    obtain ⟨within, hstop⟩ := h
    cases hstop
    exact hfirst ⟨within, rfl⟩

theorem RanOut.of_andThen_ok {α β : Type} {outcome : Outcome α} {value : α → β}
    (h : RanOut (andThen outcome fun x st => (.ok (value x), st)).1) : RanOut outcome.1 := by
  obtain ⟨result, st⟩ := outcome
  cases result with
  | ok x => exact absurd h (not_ranOut_ok _)
  | error stop =>
    obtain ⟨within, hstop⟩ := h
    cases hstop
    exact ⟨within, rfl⟩

theorem RanOut.of_inBlock {α : Type} {side : Side} {bindings : List (String × side.Value)}
    {block : State → Outcome α} {st : State} (h : RanOut (inBlock side bindings block st).1) :
    RanOut (block { st with scope := st.scope.enter side bindings }).1 := by
  by_contra hnot
  exact not_ranOut_inBlock hnot h

theorem le_stepsInCall {name : String} {f : Definition} {values : List Float}
    {body : State → Outcome Float} {bodySteps : State → Nat} {st : State} {n : Nat}
    (h : RanOut (enterCall name f values body st).1)
    (hbody : ∀ st, RanOut (body st).1 → n ≤ bodySteps st) :
    n ≤ stepsInCall name f values bodySteps st := by
  unfold enterCall at h
  unfold stepsInCall
  cases hpair : pair? f.params values with
  | none =>
    rw [hpair] at h
    obtain ⟨within, hstop⟩ := h
    cases hstop
  | some bindings =>
    rw [hpair] at h
    exact hbody _ h.of_inBlock

theorem le_stepsAll {eval : Expr → State → Outcome Float} {steps : Expr → State → Nat} {n : Nat}
    (heval : ∀ e st, RanOut (eval e st).1 → n ≤ steps e st) :
    ∀ (es : List Expr) (st : State), RanOut (evalAll eval es st).1 →
      n ≤ stepsAll eval steps es st := by
  intro es
  induction es with
  | nil =>
    intro st h
    exact absurd h (not_ranOut_ok _)
  | cons e rest ih =>
    intro st h
    rw [evalAll] at h
    rw [stepsAll]
    apply le_add_stepsAfter h (heval e st)
    intro x st₁ hrest
    exact ih st₁ hrest.of_andThen_ok

/-- An evaluation that runs out of room has taken a step for each level of it. -/
theorem room_le_steps (limit : Nat) : ∀ (room : Nat) (within : Option String) (e : Expr)
    (st : State), RanOut (interpret limit room within e st).1 →
      room ≤ steps limit room within e st := by
  intro room
  induction room with
  | zero =>
    intro within e st _
    exact Nat.zero_le _
  | succ room ih =>
    intro within e st h
    cases e with
    | num x => exact absurd h (not_ranOut_ok x)
    | var name =>
      rw [interpret_var] at h
      cases hx : st.scope.vars.lookup name with
      | none =>
        rw [hx] at h
        exact absurd h (not_ranOut_error _)
      | some x =>
        rw [hx] at h
        exact absurd h (not_ranOut_ok x)
    | neg operand =>
      rw [interpret_neg] at h
      rw [steps]
      exact Nat.succ_le_succ (ih within operand st h.of_andThen_ok)
    | bin op left right =>
      rw [interpret_bin] at h
      rw [steps]
      apply Nat.succ_le_succ
      apply le_add_stepsAfter h (ih within left st)
      intro x st₁ hright
      apply ih within right st₁
      simp only [Operator.apply_eq] at hright
      exact hright.of_andThen_ok
    | letIn name rhs next =>
      rw [interpret_letIn] at h
      rw [steps]
      apply Nat.succ_le_succ
      apply le_add_stepsAfter h (ih within rhs st)
      intro x st₁ hnext
      exact ih within next _ hnext.of_inBlock
    | fnIn name params body next =>
      rw [interpret_fnIn] at h
      rw [steps]
      exact Nat.succ_le_succ (ih within next _ h.of_inBlock)
    | call name args =>
      rw [interpret_call] at h
      rw [steps]
      cases hf : st.scope.funs.lookup name with
      | none =>
        rw [hf] at h
        exact absurd h (not_ranOut_error _)
      | some f =>
        rw [hf] at h
        dsimp only at h ⊢
        by_cases harity : f.arity ≠ args.length
        · rw [if_pos harity] at h
          exact absurd h (not_ranOut_error _)
        · rw [if_neg harity] at h ⊢
          apply Nat.succ_le_succ
          apply le_add_stepsAfter h (le_stepsAll (ih within) args st)
          intro values st₁ hbody
          by_cases hlimit : limit ≤ st₁.depth
          · rw [if_pos hlimit] at hbody
            exact absurd hbody (not_ranOut_error _)
          · rw [if_neg hlimit] at hbody ⊢
            exact le_stepsInCall hbody (ih (some name) f.body)

theorem steps_le_stepBound (limit room : Nat) (within : Option String) (e : Expr) (st : State) :
    steps limit room within e st ≤ stepBound limit e st :=
  steps_le limit (codeSize st.scope e) room within e st (bodiesBelow_codeSize st.scope e)
    (Nat.le_add_right _ _)

/-- **Every evaluation ends.**  Whatever the tree, the stacks, the depth and the limit, there is
    a number of steps that no evaluation exceeds, with however much room; and a value or an error
    that every evaluation with more room than that ends in. -/
theorem interpret_terminates (limit : Nat) (e : Expr) (st : State) :
    (∀ room within, steps limit room within e st ≤ stepBound limit e st) ∧
    ∃ ending : Except EvalError Float, ∀ room within, stepBound limit e st < room →
      (interpret limit room within e st).1 = answer ending := by
  refine ⟨fun room within => steps_le_stepBound limit room within e st, ?_⟩
  refine ⟨denote limit st.scope.env st.depth e, ?_⟩
  intro room within hroom
  rcases (interpret_matches limit room within e st).result with hout | hanswer
  · have hsteps := room_le_steps limit room within e st hout
    have hbound := steps_le_stepBound limit room within e st
    omega
  · exact hanswer

end Eval
end Abacus
