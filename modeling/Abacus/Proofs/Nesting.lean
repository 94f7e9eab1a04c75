/-
  Abacus/Proofs/Nesting.lean
  ==========================
  **The calls of an evaluation are well nested.**  The depth of a call is a counter that goes up
  around the body of a function and comes down again however the body ends.  What is left of this
  in the list of calls is a walk: it starts one above the calls in progress, goes up one at a time
  and down at will, and stays within the limit.

  A call is listed after its arguments, which make calls themselves, and before its body.  `Trail`
  says of one evaluation which calls it adds, that they are such a walk, where each was made, and
  that a refused call comes right after one at the limit.  It follows the parts of the interpreter.
-/
import Abacus.Program
import Abacus.Proofs.Provenance

namespace Abacus

theorem Settings.one_le_environmentDepth (env : Environment) : 1 ≤ (environmentDepth env).1 := by
  have hdefault : 1 ≤ defaultMaxDepth := by decide
  unfold environmentDepth
  dsimp only
  split
  · exact hdefault
  · split
    · exact Nat.succ_pos _
    · exact hdefault

/-- Every limit that the settings give lets a call be made. -/
theorem Settings.one_le_of_maxDepth {env : Environment} {given : Option Int} {limit : Nat}
    {records : List Record} (h : maxDepth env given = (.ok limit, records)) : 1 ≤ limit := by
  unfold maxDepth at h
  split at h
  · rename_i value
    by_cases hvalue : value < 1
    · rw [if_pos hvalue] at h
      cases h
    · rw [if_neg hvalue] at h
      cases h
      omega
  · simp only [Prod.mk.injEq, Except.ok.injEq] at h
    rw [← h.1]
    exact one_le_environmentDepth env

namespace Eval

/-! ### Walks -/

/-- Calls made one after another while at least `base` calls are in progress. -/
structure Walk (limit base : Nat) (calls : List Call) : Prop where
  start : ∀ call ∈ calls.head?, call.depth = base + 1
  steps : calls.IsChain fun call next => next.depth ≤ call.depth + 1
  above : ∀ call ∈ calls, base < call.depth
  below : ∀ call ∈ calls, call.depth ≤ limit

/-- The depth of the last call, if there is one. -/
def lastDepth (base : Nat) (calls : List Call) : Nat :=
  (calls.getLast?.map Call.depth).getD base

theorem lastDepth_append (base : Nat) (calls calls' : List Call) :
    lastDepth base (calls ++ calls') = lastDepth (lastDepth base calls) calls' := by
  unfold lastDepth
  rw [List.getLast?_append]
  cases calls'.getLast? <;> rfl

namespace Walk

variable {limit base : Nat} {calls calls' : List Call}

theorem nil : Walk limit base [] := by
  constructor <;> simp

/-- One walk after another: the first ends above the base, where the second starts. -/
theorem append (h : Walk limit base calls) (h' : Walk limit base calls') :
    Walk limit base (calls ++ calls') := by
  constructor
  · intro call hcall
    rw [List.head?_append] at hcall
    cases hhead : calls.head? with
    | none =>
      rw [hhead] at hcall
      exact h'.start call hcall
    | some first =>
      rw [hhead] at hcall
      cases hcall
      exact h.start call hhead
  · rw [List.isChain_append]
    refine ⟨h.steps, h'.steps, ?_⟩
    intro last hlast next hnext
    have habove := h.above last (List.mem_of_getLast? hlast)
    have hstart := h'.start next hnext
    omega
  · intro call hcall
    rcases List.mem_append.mp hcall with hmem | hmem
    · exact h.above call hmem
    · exact h'.above call hmem
  · intro call hcall
    rcases List.mem_append.mp hcall with hmem | hmem
    · exact h.below call hmem
    · exact h'.below call hmem

/-- A call before the calls of its body. -/
theorem enter {call : Call} (hcall : call.depth = base + 1) (hlimit : base < limit)
    (h : Walk limit (base + 1) calls) : Walk limit base (call :: calls) := by
  constructor
  · rintro _ ⟨⟩
    exact hcall
  · rw [List.isChain_cons]
    refine ⟨?_, h.steps⟩
    intro next hnext
    have hstart := h.start next hnext
    omega
  · intro inner hinner
    rcases List.mem_cons.mp hinner with rfl | hmem
    · omega
    · have habove := h.above inner hmem
      omega
  · intro inner hinner
    rcases List.mem_cons.mp hinner with rfl | hmem
    · omega
    · exact h.below inner hmem

/-- There is no walk above the limit. -/
theorem eq_nil (h : Walk limit limit calls) : calls = [] := by
  apply List.eq_nil_iff_forall_not_mem.mpr
  intro call hcall
  have habove := h.above call hcall
  have hbelow := h.below call hcall
  omega

/-- What ends at the limit does so after any walk from the same base. -/
theorem lastDepth_append (h : Walk limit base calls) (hlast : lastDepth base calls' = limit) :
    lastDepth base (calls ++ calls') = limit := by
  rw [Eval.lastDepth_append]
  cases calls' with
  | nil =>
    obtain rfl : base = limit := hlast
    rw [h.eq_nil]
    rfl
  | cons first rest =>
    rw [← hlast]
    simp [lastDepth, List.getLast?_cons]

end Walk

/-! ### Where calls are made -/

/-- The call at a site gets past all checks and is made with these values. -/
inductive Makes (limit : Nat) : Site → Call → Prop where
  | call {env : Env} {depth : Nat} {name : String} {args : List Expr} {f : Definition}
      {values : List Float} (hf : env.funs name = some f) (harity : f.arity = args.length)
      (hvalues : denoteAll limit env depth args = .ok values) (hlimit : depth < limit) :
      Makes limit ⟨env, depth, .call name args⟩ ⟨name, values, depth + 1⟩

/-- The call is made at a site that the evaluation comes to. -/
def Made (limit : Nat) (site : Site) (call : Call) : Prop :=
  ∃ origin, Reaches limit site origin ∧ Makes limit origin call

theorem Made.after {limit : Nat} {site site' : Site} {call : Call}
    (hdemands : Demands limit site site') (h : Made limit site' call) : Made limit site call := by
  obtain ⟨origin, hreaches, hmakes⟩ := h
  exact ⟨origin, .head hdemands hreaches, hmakes⟩

/-- A call has a value for every parameter of the function it calls. -/
theorem Makes.exists_function {limit : Nat} {site : Site} {call : Call}
    (h : Makes limit site call) :
    ∃ f args, site.expr = .call call.function args ∧ site.env.funs call.function = some f ∧
      call.args.length = f.params.length := by
  obtain @⟨env, depth, name, args, f, values, hf, harity, hvalues, -⟩ := h
  refine ⟨f, args, rfl, hf, ?_⟩
  exact (length_of_denoteAll hvalues).trans harity.symm

/-! ### The calls of an evaluation -/

/-- An evaluation at a site made these calls, in this order, after those before. -/
structure Trail {α : Type} (limit : Nat) (site : Site) (before made : List Call)
    (outcome : Outcome α) : Prop where
  calls : outcome.2.calls = made.reverse ++ before
  walk : Walk limit site.depth made
  origins : ∀ call ∈ made, Made limit site call
  ceiling : HitCeiling outcome.1 → lastDepth site.depth made = limit

def Trails {α : Type} (limit : Nat) (site : Site) (before : List Call) (outcome : Outcome α) :
    Prop :=
  ∃ made, Trail limit site before made outcome

namespace Trails

variable {α β : Type} {limit : Nat} {site : Site} {before : List Call}

theorem none {result : Except Stop α} {st : State}
    (hceiling : HitCeiling result → site.depth = limit) :
    Trails limit site st.calls (result, st) :=
  ⟨[], rfl, .nil, nofun, hceiling⟩

theorem ok (value : α) (st : State) : Trails limit site st.calls (.ok value, st) := by
  apply none
  rintro ⟨_, _, h⟩
  cases h

theorem stopped {stop : Stop} {st : State}
    (h : ∀ function limit, stop ≠ .error (.depthExceeded function limit)) :
    Trails limit site st.calls ((.error stop : Except Stop α), st) := by
  apply none
  rintro ⟨function, limit', hstop⟩
  exact absurd (Except.error.inj hstop) (h function limit')

theorem demanded {site' : Site} {outcome : Outcome α} (h : Trails limit site' before outcome)
    (hdemands : Demands limit site site') (hdepth : site'.depth = site.depth) :
    Trails limit site before outcome := by
  obtain ⟨made, htrail⟩ := h
  refine ⟨made, htrail.calls, hdepth ▸ htrail.walk, ?_, hdepth ▸ htrail.ceiling⟩
  intro call hcall
  exact (htrail.origins call hcall).after hdemands

theorem andThen {outcome : Outcome α} {next : α → State → Outcome β}
    (h : Trails limit site before outcome)
    (hnext : ∀ value st, outcome = (.ok value, st) → Trails limit site st.calls (next value st)) :
    Trails limit site before (andThen outcome next) := by
  obtain ⟨result, st⟩ := outcome
  obtain ⟨made, htrail⟩ := h
  cases result with
  | error stop =>
    refine ⟨made, htrail.calls, htrail.walk, htrail.origins, ?_⟩
    rintro ⟨function, limit', hstop⟩
    cases hstop
    exact htrail.ceiling ⟨function, limit', rfl⟩
  | ok value =>
    obtain ⟨made', htrail'⟩ := hnext value st rfl
    refine ⟨made ++ made', ?_, htrail.walk.append htrail'.walk, ?_, ?_⟩
    · have hcalls : st.calls = made.reverse ++ before := htrail.calls
      rw [List.reverse_append, List.append_assoc, ← hcalls]
      exact htrail'.calls
    · intro call hcall
      rcases List.mem_append.mp hcall with hmem | hmem
      · exact htrail.origins call hmem
      · exact htrail'.origins call hmem
    · intro hceiling
      exact htrail.walk.lastDepth_append (htrail'.ceiling hceiling)

/-- A block adds the calls made inside it. -/
theorem inBlock {side : Side} {bindings : List (String × side.Value)}
    {block : State → Outcome α} {st : State}
    (h : Trails limit site before (block { st with scope := st.scope.enter side bindings })) :
    Trails limit site before (inBlock side bindings block st) := by
  unfold Eval.inBlock
  generalize block { st with scope := st.scope.enter side bindings } = outcome at h
  obtain ⟨result, st'⟩ := outcome
  obtain ⟨made, htrail⟩ := h
  dsimp only
  cases st'.scope.leave side bindings.length with
  | ok scope => exact ⟨made, htrail.calls, htrail.walk, htrail.origins, htrail.ceiling⟩
  | error e =>
    refine ⟨made, htrail.calls, htrail.walk, htrail.origins, ?_⟩
    rintro ⟨function, limit', hstop⟩
    cases hstop

/-- A call adds itself and the calls of its body, which is one deeper. -/
theorem enterCall {env : Env} {name : String} {args : List Expr} {f : Definition}
    {values : List Float} {body : State → Outcome Float} {st : State}
    (hf : env.funs name = some f) (harity : f.arity = args.length)
    (hvalues : denoteAll limit env st.depth args = .ok values) (hlimit : st.depth < limit)
    (hbody : ∀ st', st'.scope.env = st.scope.env.bindVars (f.params.zip values) →
      st'.depth = st.depth + 1 →
      Trails limit ⟨env.bindVars (f.params.zip values), st.depth + 1, f.body⟩ st'.calls (body st')) :
    Trails limit ⟨env, st.depth, .call name args⟩ st.calls (enterCall name f values body st) := by
  have hlength : f.params.length = values.length := by
    rw [length_of_denoteAll hvalues]
    exact harity
  let call : Call := ⟨name, values, st.depth + 1⟩
  let called : State := { st with depth := st.depth + 1, calls := call :: st.calls }
  have hinside : Trails limit ⟨env.bindVars (f.params.zip values), st.depth + 1, f.body⟩
      (call :: st.calls) (Eval.inBlock .vars (f.params.zip values) body called) := by
    apply inBlock
    exact hbody { called with scope := st.scope.enter .vars (f.params.zip values) }
      (Scope.env_enter_vars st.scope (f.params.zip values)) rfl
  obtain ⟨made, htrail⟩ := hinside
  unfold Eval.enterCall
  rw [pair?_eq_zip hlength]
  refine ⟨call :: made, ?_, htrail.walk.enter rfl hlimit, ?_, ?_⟩
  · rw [List.reverse_cons, List.append_assoc]
    exact htrail.calls
  · intro inner hinner
    rcases List.mem_cons.mp hinner with rfl | hmem
    · exact ⟨_, .refl, .call hf harity hvalues hlimit⟩
    · exact (htrail.origins inner hmem).after (.body hf harity hvalues hlimit)
  · intro hceiling
    have hlast := htrail.ceiling hceiling
    rw [← List.singleton_append, Eval.lastDepth_append]
    exact hlast

end Trails

theorem denoteAll_concat {limit : Nat} {env : Env} {depth : Nat} {arg : Expr} {x : Float}
    (hx : denote limit env depth arg = .ok x) : ∀ {args : List Expr} {values : List Float},
      denoteAll limit env depth args = .ok values →
      denoteAll limit env depth (args ++ [arg]) = .ok (values ++ [x])
  | [], values, h => by
    rw [denoteAll] at h
    cases h
    rw [List.nil_append, denoteAll, denoteAll, hx]
    rfl
  | first :: rest, values, h => by
    rw [denoteAll] at h
    cases hfirst : denote limit env depth first with
    | error err =>
      rw [hfirst] at h
      cases h
    | ok y =>
      cases hrest : denoteAll limit env depth rest with
      | error err =>
        rw [hfirst, hrest] at h
        cases h
      | ok ys =>
        rw [hfirst, hrest] at h
        cases h
        rw [List.cons_append, denoteAll, hfirst, denoteAll_concat hx hrest]
        rfl

/-- The arguments of a call, each demanded after those before it. -/
theorem Trails.evalAll {limit : Nat} {env : Env} {depth : Nat} {name : String} {f : Definition}
    {args : List Expr} {eval : Expr → State → Outcome Float}
    (hf : env.funs name = some f) (harity : f.arity = args.length)
    (hmatches : ∀ e st, Matches 0 (denote limit st.scope.env st.depth e) st (eval e st))
    (heval : ∀ e st, st.depth ≤ limit →
      Trails limit ⟨st.scope.env, st.depth, e⟩ st.calls (eval e st)) (hdepth : depth ≤ limit) :
    ∀ (rest done : List Expr) (values : List Float) (st : State), args = done ++ rest →
      denoteAll limit env depth done = .ok values → st.scope.env = env → st.depth = depth →
      Trails limit ⟨env, depth, .call name args⟩ st.calls (evalAll eval rest st) := by
  intro rest
  induction rest with
  | nil =>
    intro done values st _ _ _ _
    exact .ok [] st
  | cons arg rest ih =>
    rintro done values st hargs hvalues rfl rfl
    rw [Eval.evalAll]
    have hfirst := heval arg st hdepth
    refine (hfirst.demanded (.arg hf harity hargs hvalues) rfl).andThen ?_
    intro x st₁ hx
    have hmatch := hmatches arg st
    rw [hx] at hmatch
    have hscope : st₁.scope = st.scope := hmatch.scope
    have hvalues' := denoteAll_concat (hmatch.eq_ok rfl) hvalues
    have hrest := ih (done ++ [arg]) (values ++ [x]) st₁ (by rw [hargs]; simp) hvalues'
      (by rw [hscope]) hmatch.depth
    refine hrest.andThen ?_
    intro xs st₂ _
    exact .ok (x :: xs) st₂

/-- **Every evaluation leaves a trail.**  The induction is on the room, since a body is no part of
    the call that leads to it. -/
theorem interpret_trails (limit : Nat) : ∀ (room : Nat) (within : Option String) (e : Expr)
    (st : State), st.depth ≤ limit →
      Trails limit ⟨st.scope.env, st.depth, e⟩ st.calls (interpret limit room within e st) := by
  intro room
  induction room with
  | zero =>
    intro within e st _
    exact .stopped (by simp)
  | succ room ih =>
    intro within e st hdepth
    have hmatches := interpret_matches limit room within
    cases e with
    | num x => exact .ok x st
    | var name =>
      rw [interpret_var]
      cases st.scope.vars.lookup name with
      | some x => exact .ok x st
      | none => exact .stopped (by simp)
    | neg operand =>
      rw [interpret_neg]
      refine ((ih within operand st hdepth).demanded .operand rfl).andThen ?_
      intro x st₁ _
      exact .ok (-x) st₁
    | bin op left right =>
      rw [interpret_bin]
      refine ((ih within left st hdepth).demanded .left rfl).andThen ?_
      intro x st₁ hx
      have hmatch := hmatches left st
      rw [hx] at hmatch
      have hscope : st₁.scope = st.scope := hmatch.scope
      have hdepth₁ : st₁.depth = st.depth := hmatch.depth
      have hright := ih within right st₁ (hdepth₁ ▸ hdepth)
      rw [hscope, hdepth₁] at hright
      refine (hright.demanded (.right (hmatch.eq_ok rfl)) rfl).andThen ?_
      intro y st₂ _
      rw [Operator.apply_eq]
      exact .ok (op.value x y) st₂
    | letIn name rhs next =>
      rw [interpret_letIn]
      refine ((ih within rhs st hdepth).demanded .rhs rfl).andThen ?_
      intro x st₁ hx
      have hmatch := hmatches rhs st
      rw [hx] at hmatch
      have hscope : st₁.scope = st.scope := hmatch.scope
      have hdepth₁ : st₁.depth = st.depth := hmatch.depth
      have henv : (st₁.scope.enter .vars [(name, x)]).env = st.scope.env.bindVar name x := by
        rw [hscope]
        exact Scope.env_enter_vars st.scope [(name, x)]
      have hnext := ih within next { st₁ with scope := st₁.scope.enter .vars [(name, x)] }
        (hdepth₁ ▸ hdepth)
      rw [henv] at hnext
      refine .inBlock (hnext.demanded ?_ hdepth₁)
      rw [hdepth₁]
      exact .afterLet (hmatch.eq_ok rfl)
    | fnIn name params body next =>
      rw [interpret_fnIn]
      have hnext := ih within next
        { st with scope := st.scope.enter .funs [(name, ⟨name, params, body⟩)] } hdepth
      rw [Scope.env_enter_fun st.scope ⟨name, params, body⟩] at hnext
      exact .inBlock (hnext.demanded .afterFn rfl)
    | call name args =>
      rw [interpret_call]
      cases hf : st.scope.funs.lookup name with
      | none => exact .stopped (by simp)
      | some f =>
        dsimp only
        by_cases harity : f.arity = args.length
        · rw [if_neg (not_not.mpr harity)]
          have hfuns : st.scope.env.funs name = some f := hf
          have hargs := Trails.evalAll hfuns harity hmatches (ih within) hdepth args [] [] st rfl
            (by rw [denoteAll]) rfl rfl
          refine hargs.andThen ?_
          intro values st₁ hvalues
          have hmatch := Matches.evalAll hmatches args st
          rw [hvalues] at hmatch
          have hscope : st₁.scope = st.scope := hmatch.scope
          have hdepth₁ : st₁.depth = st.depth := hmatch.depth
          by_cases hlimit : limit ≤ st₁.depth
          · rw [if_pos hlimit]
            have hfull : st.depth = limit := by omega
            exact .none fun _ => hfull
          · rw [if_neg hlimit]
            have hmeaning := hmatch.eq_ok rfl
            rw [← hdepth₁] at hmeaning ⊢
            refine .enterCall hfuns harity hmeaning (Nat.lt_of_not_le hlimit) ?_
            intro st₂ henv hdepth₂
            have hbody := ih (some name) f.body st₂ (by omega)
            rwa [henv, hdepth₂, hscope] at hbody
        · rw [if_pos harity]
          exact .stopped (by simp)

/-! ### Whole evaluations -/

/-- What holds of the calls of every evaluation from empty stacks. -/
structure WellNested (limit : Nat) (e : Expr) (calls : List Call) : Prop where
  walk : Walk limit 0 calls
  arguments : ∀ call ∈ calls, ∃ site f args, Reaches limit ⟨Scope.empty.env, 0, e⟩ site ∧
    site.expr = .call call.function args ∧ site.env.funs call.function = some f ∧
    call.args.length = f.params.length

theorem Trail.wellNested {α : Type} {limit : Nat} {e : Expr} {made : List Call}
    {outcome : Outcome α} (h : Trail limit ⟨Scope.empty.env, 0, e⟩ [] made outcome) :
    WellNested limit e made := by
  refine ⟨h.walk, ?_⟩
  intro call hcall
  obtain ⟨site, hreaches, hmakes⟩ := h.origins call hcall
  obtain ⟨f, args, hexpr, hf, hlength⟩ := hmakes.exists_function
  exact ⟨site, f, args, hreaches, hexpr, hf, hlength⟩

theorem exists_getLast?_of_lastDepth {limit : Nat} {calls : List Call}
    (h : lastDepth 0 calls = limit) (hlimit : 1 ≤ limit) :
    ∃ last ∈ calls.getLast?, last.depth = limit := by
  unfold lastDepth at h
  cases hlast : calls.getLast? with
  | none =>
    rw [hlast] at h
    obtain rfl : 0 = limit := h
    omega
  | some last =>
    rw [hlast] at h
    exact ⟨last, rfl, h⟩

theorem interpret_wellNested (limit room : Nat) (e : Expr) :
    WellNested limit e (interpret limit room none e .initial).2.calls.reverse ∧
    (HitCeiling (interpret limit room none e .initial).1 → 1 ≤ limit →
      ∃ last ∈ (interpret limit room none e .initial).2.calls.reverse.getLast?,
        last.depth = limit) := by
  obtain ⟨made, htrail⟩ := interpret_trails limit room none e .initial (Nat.zero_le limit)
  have hcalls : (interpret limit room none e .initial).2.calls.reverse = made := by
    rw [htrail.calls]
    simp [State.initial]
  rw [hcalls]
  refine ⟨htrail.wellNested, ?_⟩
  intro hceiling hlimit
  exact exists_getLast?_of_lastDepth (htrail.ceiling hceiling) hlimit

theorem evaluateIn_empty {options : Program.Options} {e : Expr} {run : Run} {records : List Record}
    (h : Program.evaluateIn options .empty e = (.ok run, records)) :
    ∃ limit warnings, Settings.maxDepth options.environment options.depth = (.ok limit, warnings) ∧
      run = evaluate limit e ∧ records = warnings ++ Program.callRecords options.verbose run := by
  unfold Program.evaluateIn at h
  rw [if_neg (by decide)] at h
  split at h
  · cases h
  · rename_i limit warnings hdepth
    cases h
    exact ⟨limit, warnings, hdepth, rfl, rfl⟩

/-- What a record says of a call: the function, the values of its arguments, and the depth. -/
structure Tells (call : Call) (record : Record) : Prop where
  level : record.level = .debug
  origin : record.origin = .evaluator
  text : record.text = "Calling " ++ call.function ++ "(" ++
    ", ".intercalate (call.args.map Number.traced) ++
    (if call.args.length = 1 then ",)" else ")") ++ " at depth " ++ toString call.depth

theorem argumentText_eq (args : List Float) :
    Program.argumentText args = "(" ++ ", ".intercalate (args.map Number.traced) ++
      if args.length = 1 then ",)" else ")" := by
  match args with
  | [] => rfl
  | [x] => rfl
  | x :: y :: rest =>
    have hlong : ¬ (x :: y :: rest).length = 1 := by simp
    rw [if_neg hlong]
    rfl

theorem tells_callRecord (call : Call) : Tells call (Program.callRecord call) := by
  refine ⟨rfl, rfl, ?_⟩
  simp only [Program.callRecord, argumentText_eq, String.append_assoc]

/-- **The calls of an evaluation are well nested.**  The first has depth one, no depth is above the
    limit, and each is at most one more than the last; each call has as many values as the function
    it calls has parameters; and if the limit refuses a call, the last one made is at the limit.
    With records of calls turned on, these are the calls that a program records, each with its
    function, its values and its depth. -/
theorem calls_well_nested (e : Expr) :
    (∀ limit room,
      WellNested limit e (interpret limit room none e .initial).2.calls.reverse ∧
      (HitCeiling (interpret limit room none e .initial).1 → 1 ≤ limit →
        ∃ last ∈ (interpret limit room none e .initial).2.calls.reverse.getLast?,
          last.depth = limit)) ∧
    (∀ call, Tells call (Program.callRecord call)) ∧
    ∀ options run records, Program.evaluateIn options .empty e = (.ok run, records) →
      ∃ limit warnings,
        Settings.maxDepth options.environment options.depth = (.ok limit, warnings) ∧
        (options.verbose = true → records = warnings ++ run.calls.map Program.callRecord) ∧
        WellNested limit e run.calls ∧
        (run.Exceeded → ¬ RanOut (interpret limit maxRoom none e .initial).1 →
          ∃ last ∈ run.calls.getLast?, last.depth = limit) := by
  refine ⟨fun limit room => interpret_wellNested limit room e, tells_callRecord, ?_⟩
  intro options run records h
  obtain ⟨limit, warnings, hdepth, rfl, rfl⟩ := evaluateIn_empty h
  obtain ⟨hnested, hlast⟩ := interpret_wellNested limit maxRoom e
  have hcalls : (evaluate limit e).calls =
      (interpret limit maxRoom none e .initial).2.calls.reverse := by rw [evaluate_eq]
  refine ⟨limit, warnings, hdepth, ?_, ?_, ?_⟩
  · intro hverbose
    rw [hverbose]
    rfl
  · rw [hcalls]
    exact hnested
  · intro hexceeded hroom
    rw [hcalls]
    rcases (evaluate_exceeded_iff limit e).mp hexceeded with hceiling | hout
    · exact hlast hceiling (Settings.one_le_of_maxDepth hdepth)
    · exact absurd hout hroom

/-- `fn f x = f(f(x)); f(1)`: the refused call is the argument of another. -/
def nestedArgument : Expr :=
  .fnIn "f" ["x"] (.call "f" [.call "f" [.var "x"]]) (.call "f" [.num 1])

theorem nestedArgument_well_nested :
    (evaluate 3 nestedArgument).result = .error (.error (.depthExceeded (some "f") 3)) ∧
    (evaluate 3 nestedArgument).calls = [⟨"f", [1], 1⟩, ⟨"f", [1], 2⟩, ⟨"f", [1], 3⟩] ∧
    WellNested 3 nestedArgument (evaluate 3 nestedArgument).calls ∧
    ∃ last ∈ (evaluate 3 nestedArgument).calls.getLast?, last.depth = 3 := by
  have hrun : Program.evaluateIn ⟨.empty, some 3, false⟩ .empty nestedArgument =
      (.ok (evaluate 3 nestedArgument), []) := rfl
  obtain ⟨limit, warnings, hdepth, -, hnested, hlast⟩ :=
    (calls_well_nested nestedArgument).2.2 _ _ _ hrun
  cases hdepth
  exact ⟨rfl, rfl, hnested, hlast ⟨some "f", 3, rfl⟩ (not_ranOut_error _)⟩

end Eval
end Abacus
