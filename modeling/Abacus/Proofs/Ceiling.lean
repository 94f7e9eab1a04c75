/-
  Abacus/Proofs/Ceiling.lean
  ==========================
  **A higher limit changes nothing but refusals.**  Two evaluations of one tree that differ in
  the limit alone run in step: they make the same calls and look up the same names until the
  lower limit refuses a call.  One that was not refused is therefore repeated under every
  higher limit, down to the record of its calls.

  As a coupling this is equality of trees, values and states, with an excuse for refusals;
  `Follows` says what it comes to.

  The last section packages the induction over an evaluation for properties of states, and uses
  it once: no call is made past the limit.
-/
import Abacus.Eval
import Abacus.Proofs.Coupling
import Abacus.Proofs.Restoration

namespace Abacus.Eval

/-! ### Refusals -/

/-- The limit on nested calls refused a call. -/
def HitCeiling {α : Type} (result : Except Stop α) : Prop :=
  ∃ function limit, result = .error (.error (.depthExceeded function limit))

/-- A program was reported to nest too deeply. -/
def Run.Exceeded (run : Run) : Prop :=
  ∃ function limit, run.result = .error (.error (.depthExceeded function limit))

/-- The limit refused a call, or there was no room left for a nested expression. -/
def CutShort {α : Type} (result : Except Stop α) : Prop :=
  HitCeiling result ∨ RanOut result

theorem evaluate_exceeded_iff (limit : Nat) (e : Expr) :
    (evaluate limit e).Exceeded ↔ CutShort (interpret limit maxRoom none e .initial).1 := by
  rw [evaluate_eq]
  generalize (interpret limit maxRoom none e .initial).1 = result
  constructor
  · rintro ⟨function, l, h⟩
    rcases result with (err | within | f) | x
    · cases h
      exact Or.inl ⟨function, l, rfl⟩
    · exact Or.inr ⟨within, rfl⟩
    · cases h
    · cases h
  · rintro (⟨function, l, rfl⟩ | ⟨within, rfl⟩)
    · exact ⟨function, l, rfl⟩
    · exact ⟨within, limit, rfl⟩

/-- The limit on nested calls refuses a call in what an expression means. -/
def Exceeds {α : Type} (meaning : Except EvalError α) : Prop :=
  ∃ function limit, meaning = .error (.depthExceeded function limit)

theorem Exceeds.bind {α β : Type} {meaning : Except EvalError α} (h : Exceeds meaning)
    (next : α → Except EvalError β) : Exceeds (meaning >>= next) := by
  obtain ⟨function, limit, rfl⟩ := h
  exact ⟨function, limit, rfl⟩

theorem hitCeiling_answer_iff {α : Type} {meaning : Except EvalError α} :
    HitCeiling (answer meaning) ↔ Exceeds meaning := by
  constructor
  · rintro ⟨function, limit, h⟩
    cases meaning with
    | ok x => cases h
    | error e =>
      cases h
      exact ⟨function, limit, rfl⟩
  · rintro ⟨function, limit, rfl⟩
    exact ⟨function, limit, rfl⟩

/-! ### The interpreter under two limits -/

/-- The second outcome is the first, unless the first was refused a call. -/
def Follows {α : Type} (outcome outcome' : Outcome α) : Prop :=
  HitCeiling outcome.1 ∨ outcome' = outcome

/-- Everything is the same to both runs but the limit. -/
theorem coupling_limits {limit limit' : Nat} (hle : limit ≤ limit') :
    Coupling limit limit' Eq Eq Eq fun err => ∃ function l, err = .depthExceeded function l where
  parts := by
    rintro e _ rfl
    cases e with
    | num x => exact .num rfl
    | var name => exact .var name
    | neg operand => exact .neg rfl
    | bin op left right => exact .bin op rfl rfl
    | call name args => exact .call name (List.forall₂_refl args)
    | letIn name rhs next => exact .letIn name rfl rfl
    | fnIn name params body next => exact .fnIn name params rfl rfl
  vars := by
    rintro st _ name - rfl
    exact .inl (optionRel_self fun _ _ => rfl)
  funs := by
    rintro st _ name rfl
    exact .inl (optionRel_self fun _ _ => ⟨rfl, rfl⟩)
  neg := by
    rintro x _ rfl
    rfl
  bin := by
    rintro x _ y _ op rfl rfl
    rfl
  enterVars := by
    rintro st _ bindings bindings' rfl hnames
    rw [hnames.eq]
  enterFun := by
    rintro st _ body _ name params rfl rfl
    rfl
  back := by
    rintro st _ st₁ _ rfl rfl
    rfl
  depth := by
    rintro st _ rfl
    rfl
  call := by
    rintro st _ args args' name rfl hargs
    obtain rfl : args = args' := List.forall₂_eq_eq_eq ▸ hargs
    rfl
  uncall := by
    rintro st _ rfl
    rfl
  limits := .inr ⟨hle, fun function => ⟨function, limit, rfl⟩⟩

theorem interpret_follows {limit limit' : Nat} (hle : limit ≤ limit') (room : Nat)
    (within : Option String) (e : Expr) (st : State) :
    Follows (interpret limit room within e st) (interpret limit' room within e st) := by
  rcases (coupling_limits hle).interpret room within e e st st rfl rfl with
    ⟨err, ⟨function, l, rfl⟩, herr⟩ | ⟨hending, hstate⟩
  · exact .inl ⟨function, l, herr⟩
  · exact .inr (Prod.ext hending.eq.symm hstate.symm)

theorem evaluate_eq_of_follows {limit limit' : Nat} {e : Expr}
    (h : ¬ (evaluate limit e).Exceeded)
    (hfollows : interpret limit' maxRoom none e .initial =
      interpret limit maxRoom none e .initial) :
    evaluate limit' e = evaluate limit e := by
  rw [evaluate_exceeded_iff] at h
  have hroom : ¬ RanOut (interpret limit maxRoom none e .initial).1 := fun hout => h (Or.inr hout)
  rw [evaluate_eq, evaluate_eq, hfollows]
  -- the limit shows in the report of an evaluation that ran out of room, and nowhere else
  generalize (interpret limit maxRoom none e .initial).1 = result at hroom
  rcases result with (err | within | f) | x
  · rfl
  · exact absurd ⟨within, rfl⟩ hroom
  · rfl
  · rfl

/-- **The limit is monotone.**  An evaluation that no limit refused is repeated under every
    higher limit, with its value or error, its state and its calls; what is refused under the
    higher limit is refused under the lower. -/
theorem interpret_limit_monotone {limit limit' : Nat} (hle : limit ≤ limit') (e : Expr) :
    (∀ room within st,
      (¬ HitCeiling (interpret limit room within e st).1 →
        interpret limit' room within e st = interpret limit room within e st) ∧
      (HitCeiling (interpret limit' room within e st).1 →
        HitCeiling (interpret limit room within e st).1)) ∧
    (¬ (evaluate limit e).Exceeded → evaluate limit' e = evaluate limit e) ∧
    ((evaluate limit' e).Exceeded → (evaluate limit e).Exceeded) := by
  have hprogram : ¬ (evaluate limit e).Exceeded → evaluate limit' e = evaluate limit e := by
    intro h
    refine evaluate_eq_of_follows h ?_
    rw [evaluate_exceeded_iff] at h
    exact (interpret_follows hle maxRoom none e .initial).resolve_left fun hstop => h (Or.inl hstop)
  refine ⟨?_, hprogram, ?_⟩
  · intro room within st
    have hfollows := interpret_follows hle room within e st
    constructor
    · intro h
      exact hfollows.resolve_left h
    · intro h
      rcases hfollows with hstop | heq
      · exact hstop
      · rwa [heq] at h
  · intro h
    by_contra hnot
    rw [hprogram hnot] at h
    exact hnot h

/-- Two calls, one inside the other. -/
def nestedCalls (x : Float) : Expr :=
  .fnIn "f" ["x"] (.neg (.var "x")) (.fnIn "g" ["y"] (.call "f" [.var "y"]) (.call "g" [.num x]))

theorem not_exceeded_nestedCalls (x : Float) : ¬ (evaluate 2 (nestedCalls x)).Exceeded := by
  have hvalue : (evaluate 2 (nestedCalls x)).result = .ok (-x) := rfl
  rintro ⟨function, limit, h⟩
  rw [hvalue] at h
  cases h

theorem nestedCalls_limit_monotone : 2 ≤ 3 ∧ ¬ (evaluate 2 (nestedCalls 1)).Exceeded ∧
    evaluate 3 (nestedCalls 1) = evaluate 2 (nestedCalls 1) := by
  have hdone := not_exceeded_nestedCalls 1
  exact ⟨by decide, hdone, (interpret_limit_monotone (by decide) (nestedCalls 1)).2.1 hdone⟩

/-! ### What no step of an evaluation breaks -/

/-- A property of states that survives a change of scope, the start of a call within the limit
    and the end of one. -/
structure KeptBySteps (limit : Nat) (P : State → Prop) : Prop where
  rescope : ∀ {st} scope, P st → P { st with scope := scope }
  enter : ∀ {st} name values, P st → st.depth < limit →
    P { st with depth := st.depth + 1, calls := ⟨name, values, st.depth + 1⟩ :: st.calls }
  leave : ∀ {st}, P st → P { st with depth := st.depth - 1 }

theorem andThen_keeps {α β : Type} {P : State → Prop} {outcome : Outcome α}
    {next : α → State → Outcome β} (h : P outcome.2) (hnext : ∀ x st, P st → P (next x st).2) :
    P (andThen outcome next).2 := by
  obtain ⟨result, st⟩ := outcome
  cases result with
  | ok x => exact hnext x st h
  | error stop => exact h

namespace KeptBySteps

variable {limit : Nat} {P : State → Prop} {st : State}

theorem inBlock {α : Type} {side : Side} {bindings : List (String × side.Value)}
    {block : State → Outcome α} (hP : KeptBySteps limit P) (hblock : ∀ st, P st → P (block st).2)
    (h : P st) : P (inBlock side bindings block st).2 := by
  have hentered := hblock _ (hP.rescope (st.scope.enter side bindings) h)
  unfold Eval.inBlock
  generalize block { st with scope := st.scope.enter side bindings } = outcome at hentered
  obtain ⟨result, st'⟩ := outcome
  dsimp only
  cases st'.scope.leave side bindings.length with
  | ok scope => exact hP.rescope scope hentered
  | error e => exact hentered

theorem enterCall {name : String} {f : Definition} {values : List Float}
    {body : State → Outcome Float} (hP : KeptBySteps limit P) (hbody : ∀ st, P st → P (body st).2)
    (h : P st) (hdepth : st.depth < limit) : P (enterCall name f values body st).2 := by
  unfold Eval.enterCall
  cases pair? f.params values with
  | none => exact h
  | some bindings =>
    apply hP.leave
    exact hP.inBlock hbody (hP.enter name values h hdepth)

theorem evalAll {eval : Expr → State → Outcome Float} (heval : ∀ e st, P st → P (eval e st).2) :
    ∀ (es : List Expr) (st : State), P st → P (evalAll eval es st).2 := by
  intro es
  induction es with
  | nil =>
    intro st h
    exact h
  | cons e rest ih =>
    intro st h
    rw [Eval.evalAll]
    apply andThen_keeps (heval e st h)
    intro x st₁ h₁
    apply andThen_keeps (ih st₁ h₁)
    intro xs st₂ h₂
    exact h₂

/-- What no step breaks, no evaluation breaks. -/
theorem interpret (hP : KeptBySteps limit P) :
    ∀ (room : Nat) (within : Option String) (e : Expr) (st : State), P st →
      P (interpret limit room within e st).2 := by
  intro room
  induction room with
  | zero =>
    intro within e st h
    exact h
  | succ room ih =>
    intro within e st h
    cases e with
    | num x => exact h
    | var name =>
      rw [Eval.interpret_var]
      cases st.scope.vars.lookup name with
      | none => exact h
      | some x => exact h
    | neg operand =>
      rw [Eval.interpret_neg]
      apply andThen_keeps (ih within operand st h)
      intro x st₁ h₁
      exact h₁
    | bin op left right =>
      rw [Eval.interpret_bin]
      apply andThen_keeps (ih within left st h)
      intro x st₁ h₁
      apply andThen_keeps (ih within right st₁ h₁)
      intro y st₂ h₂
      rw [Operator.apply_eq]
      exact h₂
    | letIn name rhs next =>
      rw [Eval.interpret_letIn]
      apply andThen_keeps (ih within rhs st h)
      intro x st₁ h₁
      exact hP.inBlock (ih within next) h₁
    | fnIn name params body next =>
      rw [Eval.interpret_fnIn]
      exact hP.inBlock (ih within next) h
    | call name args =>
      rw [Eval.interpret_call]
      cases st.scope.funs.lookup name with
      | none => exact h
      | some f =>
        dsimp only
        split
        · exact h
        · apply andThen_keeps (evalAll (ih within) args st h)
          intro values st₁ h₁
          split
          · exact h₁
          · rename_i hlimit
            exact hP.enterCall (ih (some name) f.body) h₁ (Nat.lt_of_not_le hlimit)

end KeptBySteps

/-- No call is made past the limit. -/
theorem depth_le_limit (limit room : Nat) (e : Expr) :
    ∀ call ∈ (interpret limit room none e .initial).2.calls, call.depth ≤ limit := by
  have hkept : KeptBySteps limit fun st => ∀ call ∈ st.calls, call.depth ≤ limit := by
    refine ⟨fun scope h => h, ?_, fun h => h⟩
    intro st name values h hdepth call hcall
    rcases List.mem_cons.mp hcall with rfl | hmem
    · exact hdepth
    · exact h call hmem
  apply hkept.interpret room none e .initial
  intro call hcall
  cases hcall

end Abacus.Eval
