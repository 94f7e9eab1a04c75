/-
  Abacus/Proofs/Refinement.lean
  =============================
  **The interpreter computes the meaning.**  The interpreter puts bindings on shared stacks,
  counts calls in a state and looks names up from the top; `denote` has none of this.  They
  agree because every evaluation gives back the scope and the depth it was started with, so
  that what is evaluated next starts where the meaning says it does.

  `Matches` says both at once of one outcome and follows the structure of the interpreter.  It
  allows for running out of room.  With an upkeep, an evaluation that does may leave bindings
  behind, but only above those it found.  The second half of the file shows that there is always
  enough room, by the recursion of `denote`.
-/
import Abacus.Proofs.Semantics

namespace Abacus

/-! ### Stacks as functions from names -/

namespace Stack

variable {α : Type}

@[simp]
theorem lookup_push (s : Stack α) (name : String) (value : α) :
    (s.push name value).lookup = Function.update s.lookup name (some value) := by
  funext other
  by_cases h : other = name
  · subst h
    simp [lookup, push]
  · have hne : ¬ name = other := fun heq => h heq.symm
    simp [lookup, push, Function.update_of_ne h, hne]

theorem pushAll_cons (s : Stack α) (binding : String × α) (bindings : List (String × α)) :
    s.pushAll (binding :: bindings) = (s.push binding.1 binding.2).pushAll bindings := by
  simp [pushAll, push]

@[simp]
theorem pop_pushAll (s : Stack α) (bindings : List (String × α)) :
    (s.pushAll bindings).pop bindings.length = .ok s := by
  have hcount : ¬ ((bindings.length : Int) < 0 ∨
      ((s.pushAll bindings).size : Int) < bindings.length) := by
    simp only [size, pushAll, List.length_append, List.length_reverse]
    omega
  have hdrop : (s.pushAll bindings).entries.drop bindings.length = s.entries := by
    simp [pushAll, List.drop_left']
  simp only [pop, if_neg hcount, Int.toNat_natCast, hdrop]

/-- However much was left on top, there is enough to take off what was put on. -/
theorem pop_of_pushAll_suffix {s s' : Stack α} {bindings : List (String × α)}
    (h : (s.pushAll bindings).entries <:+ s'.entries) :
    ∃ left, s'.pop bindings.length = .ok left ∧ s.entries <:+ left.entries := by
  obtain ⟨extra, hextra⟩ := h
  have hsize : bindings.length ≤ (extra ++ bindings.reverse).length := by simp
  have hentries : s'.entries = extra ++ bindings.reverse ++ s.entries := by
    rw [← hextra, pushAll, List.append_assoc]
  have hcount : ¬ ((bindings.length : Int) < 0 ∨ (s'.size : Int) < bindings.length) := by
    simp only [size, hentries, List.length_append, List.length_reverse]
    omega
  refine ⟨⟨s'.entries.drop bindings.length⟩, ?_, ?_⟩
  · simp only [pop, if_neg hcount, Int.toNat_natCast]
  · rw [hentries, List.drop_append_of_le_length hsize]
    exact List.suffix_append _ _

end Stack

/-- What the names of a scope mean. -/
def Scope.env (s : Scope) : Eval.Env :=
  ⟨s.vars.lookup, s.funs.lookup⟩

@[simp]
theorem Scope.env_enter_vars (s : Scope) (bindings : List (String × Float)) :
    (s.enter .vars bindings).env = s.env.bindVars bindings := by
  induction bindings generalizing s with
  | nil => rfl
  | cons binding bindings ih =>
    have hpush := ih (s.enter .vars [binding])
    have hone : (s.enter .vars [binding]).env = s.env.bindVar binding.1 binding.2 := by
      simp only [env, enter, withStack, stack, Eval.Env.bindVar]
      rw [← Stack.lookup_push]
      rfl
    rw [Eval.Env.bindVars, List.foldl_cons, ← hone, ← Eval.Env.bindVars, ← hpush]
    simp only [enter, withStack, stack, Stack.pushAll_cons]
    rfl

@[simp]
theorem Scope.env_enter_fun (s : Scope) (f : Definition) :
    (s.enter .funs [(f.name, f)]).env = s.env.bindFun f := by
  simp only [env, enter, withStack, stack, Eval.Env.bindFun]
  rw [← Stack.lookup_push]
  rfl

/-- Leaving a block undoes entering it. -/
@[simp]
theorem Scope.leave_enter (s : Scope) (side : Side) (bindings : List (String × side.Value)) :
    (s.enter side bindings).leave side bindings.length = .ok s := by
  cases side with
  | vars =>
    have hpop := s.vars.pop_pushAll bindings
    simp only [enter, leave, stack, withStack] at hpop ⊢
    rw [hpop]
  | funs =>
    have hpop := s.funs.pop_pushAll bindings
    simp only [enter, leave, stack, withStack] at hpop ⊢
    rw [hpop]

/-- What the stacks of a scope hold is still there, beneath everything else. -/
def Scope.Under (s s' : Scope) : Prop :=
  ∀ side, (s.stack side).entries <:+ (s'.stack side).entries

namespace Scope.Under

variable {s s' s'' : Scope}

theorem refl (s : Scope) : s.Under s :=
  fun _ => List.suffix_refl _

theorem trans (h : s.Under s') (h' : s'.Under s'') : s.Under s'' :=
  fun side => (h side).trans (h' side)

theorem withStack (h : s.Under s') {side : Side} {stack : Stack side.Value}
    (hstack : (s.stack side).entries <:+ stack.entries) : s.Under (s'.withStack side stack) := by
  intro other
  cases side with
  | vars =>
    cases other with
    | vars => exact hstack
    | funs => exact h .funs
  | funs =>
    cases other with
    | vars => exact h .vars
    | funs => exact hstack

theorem enter (s : Scope) (side : Side) (bindings : List (String × side.Value)) :
    s.Under (s.enter side bindings) :=
  (refl s).withStack (List.suffix_append _ _)

/-- A block is never refused its bindings back, whatever was left on top of them. -/
theorem leave {side : Side} {bindings : List (String × side.Value)}
    (h : (s.enter side bindings).Under s') :
    ∃ left, s'.leave side bindings.length = .ok left ∧ s.Under left := by
  have hstack : ((s.stack side).pushAll bindings).entries <:+ (s'.stack side).entries := by
    cases side <;> exact h _
  obtain ⟨left, hpop, hleft⟩ := Stack.pop_of_pushAll_suffix hstack
  refine ⟨s'.withStack side left, ?_, ((enter s side bindings).trans h).withStack hleft⟩
  rw [Scope.leave, hpop]

end Scope.Under

namespace Eval

/-! ### Outcomes that match a meaning -/

def answer {α : Type} : Except EvalError α → Except Stop α
  | .ok value => .ok value
  | .error e => .error (.error e)

/-- The evaluation was cut short. -/
def RanOut {α : Type} (result : Except Stop α) : Prop :=
  ∃ within, result = .error (.outOfRoom within)

/-- An outcome has the result of a meaning, unless it was cut short, and gives back the scope
    and the depth of the state it was started in.  With an upkeep it need not do so where it was
    cut short; what it was started with is still there. -/
structure Matches {α : Type} (upkeep : Nat) (meaning : Except EvalError α) (st : State)
    (outcome : Outcome α) : Prop where
  under : st.scope.Under outcome.2.scope
  restored : (RanOut outcome.1 → upkeep = 0) →
    outcome.2.scope = st.scope ∧ outcome.2.depth = st.depth
  result : RanOut outcome.1 ∨ outcome.1 = answer meaning

theorem not_ranOut_ok {α : Type} (value : α) : ¬ RanOut (.ok value : Except Stop α) := by
  rintro ⟨within, h⟩
  cases h

theorem not_ranOut_error {α : Type} (e : EvalError) :
    ¬ RanOut (.error (.error e) : Except Stop α) := by
  rintro ⟨within, h⟩
  cases h

theorem ranOut_error_iff {α β : Type} {stop : Stop} :
    RanOut (.error stop : Except Stop α) ↔ RanOut (.error stop : Except Stop β) := by
  constructor
  · rintro ⟨within, h⟩
    exact ⟨within, by cases h; rfl⟩
  · rintro ⟨within, h⟩
    exact ⟨within, by cases h; rfl⟩

namespace Matches

variable {α β : Type} {upkeep room : Nat}

theorem answered (meaning : Except EvalError α) (st : State) :
    Matches upkeep meaning st (answer meaning, st) :=
  ⟨.refl _, fun _ => ⟨rfl, rfl⟩, Or.inr rfl⟩

theorem eq_ok {meaning : Except EvalError α} {st : State} {outcome : Outcome α}
    (h : Matches upkeep meaning st outcome) {value : α} (hvalue : outcome.1 = .ok value) :
    meaning = .ok value := by
  rcases h.result with ⟨within, hout⟩ | hanswer
  · rw [hvalue] at hout
    cases hout
  · rw [hvalue] at hanswer
    cases meaning with
    | ok x =>
      simp only [answer, Except.ok.injEq] at hanswer
      rw [hanswer]
    | error e => cases hanswer

theorem scope {meaning : Except EvalError α} {st : State} {outcome : Outcome α}
    (h : Matches 0 meaning st outcome) : outcome.2.scope = st.scope :=
  (h.restored fun _ => rfl).1

theorem depth {meaning : Except EvalError α} {st : State} {outcome : Outcome α}
    (h : Matches 0 meaning st outcome) : outcome.2.depth = st.depth :=
  (h.restored fun _ => rfl).2

/-- What comes next starts with the scope and the depth of the first step. -/
theorem andThen {meaning : Except EvalError α} {after : α → Except EvalError β} {st : State}
    {outcome : Outcome α} {next : α → State → Outcome β} (h : Matches upkeep meaning st outcome)
    (hnext : ∀ value st', meaning = .ok value → st'.scope = st.scope → st'.depth = st.depth →
      Matches upkeep (after value) st' (next value st')) :
    Matches upkeep (meaning >>= after) st (andThen outcome next) := by
  obtain ⟨result, st'⟩ := outcome
  cases result with
  | ok value =>
    have hmeaning : meaning = .ok value := h.eq_ok rfl
    obtain ⟨hscope, hdepth⟩ := h.restored fun hout => absurd hout (not_ranOut_ok value)
    have hrest := hnext value st' hmeaning hscope hdepth
    subst hmeaning
    refine ⟨hscope ▸ hrest.under, ?_, hrest.result⟩
    intro hout
    exact ⟨(hrest.restored hout).1.trans hscope, (hrest.restored hout).2.trans hdepth⟩
  | error stop =>
    refine ⟨h.under, fun hout => h.restored fun hfirst => hout (ranOut_error_iff.mp hfirst), ?_⟩
    rcases h.result with hout | hanswer
    · exact Or.inl (ranOut_error_iff.mp hout)
    · right
      cases meaning with
      | ok x => cases hanswer
      | error e => cases hanswer; rfl

/-- The bindings of a block are gone after it. -/
theorem inBlock {meaning : Except EvalError α} {side : Side}
    {bindings : List (String × side.Value)} {block : State → Outcome α} {st : State}
    (h : Matches upkeep meaning { st with scope := st.scope.enter side bindings }
      (block { st with scope := st.scope.enter side bindings })) :
    Matches upkeep meaning st (inBlock side bindings block st) := by
  unfold Eval.inBlock
  generalize block { st with scope := st.scope.enter side bindings } = outcome at h
  obtain ⟨result, st'⟩ := outcome
  have hunder : (st.scope.enter side bindings).Under st'.scope := h.under
  obtain ⟨left, hleave, hleft⟩ := hunder.leave
  simp only [hleave]
  refine ⟨hleft, ?_, h.result⟩
  intro hout
  obtain ⟨hscope, hdepth⟩ := h.restored hout
  simp only at hscope
  rw [hscope, Scope.leave_enter] at hleave
  exact ⟨(Except.ok.inj hleave).symm, hdepth⟩

/-- Without room to leave it, a block leaves its bindings behind. -/
theorem inBlockWith {meaning : Except EvalError α} {within : Option String} {side : Side}
    {bindings : List (String × side.Value)} {block : State → Outcome α} {st : State}
    (h : Matches upkeep meaning { st with scope := st.scope.enter side bindings }
      (block { st with scope := st.scope.enter side bindings })) :
    Matches upkeep meaning st (inBlockWith upkeep room within side bindings block st) := by
  unfold Eval.inBlockWith
  split
  · exact h.inBlock
  · rename_i hroom
    refine ⟨(Scope.Under.enter _ _ _).trans h.under, ?_, Or.inl ⟨within, rfl⟩⟩
    intro hout
    have hzero := hout ⟨within, rfl⟩
    omega

end Matches

/-! ### Calls -/

theorem pair?_eq_zip : ∀ {params : List String} {values : List Float},
    params.length = values.length → pair? params values = some (params.zip values)
  | [], [], _ => rfl
  | param :: params, value :: values, h => by
    have hrest : params.length = values.length := Nat.succ.inj h
    rw [pair?, pair?_eq_zip hrest]
    rfl

theorem length_of_denoteAll {limit : Nat} {env : Env} {depth : Nat} :
    ∀ {es : List Expr} {values : List Float},
      denoteAll limit env depth es = .ok values → values.length = es.length
  | [], values, h => by
    rw [denoteAll] at h
    cases h
    rfl
  | e :: rest, values, h => by
    rw [denoteAll] at h
    cases hfirst : denote limit env depth e with
    | error err =>
      rw [hfirst] at h
      cases h
    | ok x =>
      cases hrest : denoteAll limit env depth rest with
      | error err =>
        rw [hfirst, hrest] at h
        cases h
      | ok xs =>
        rw [hfirst, hrest] at h
        cases h
        simp [length_of_denoteAll hrest]

theorem Matches.evalAll {upkeep limit : Nat} {eval : Expr → State → Outcome Float}
    (heval : ∀ e st, Matches upkeep (denote limit st.scope.env st.depth e) st (eval e st)) :
    ∀ (es : List Expr) (st : State),
      Matches upkeep (denoteAll limit st.scope.env st.depth es) st (evalAll eval es st)
  | [], st => by
    rw [denoteAll, Eval.evalAll]
    exact .answered (.ok []) st
  | e :: rest, st => by
    rw [denoteAll, Eval.evalAll]
    refine (heval e st).andThen ?_
    intro x st₁ _ hscope hdepth
    rw [← hscope, ← hdepth]
    refine (Matches.evalAll heval rest st₁).andThen ?_
    intro xs st₂ _ _ _
    exact .answered (.ok (x :: xs)) st₂

theorem Matches.enterCall {upkeep : Nat} {meaning : Except EvalError Float} {name : String}
    {f : Definition} {values : List Float} {body : State → Outcome Float} {st : State}
    (hlength : f.params.length = values.length)
    (hbody : ∀ st', st'.scope.env = st.scope.env.bindVars (f.params.zip values) →
      st'.depth = st.depth + 1 → Matches upkeep meaning st' (body st')) :
    Matches upkeep meaning st (enterCall name f values body st) := by
  unfold Eval.enterCall
  rw [pair?_eq_zip hlength]
  dsimp only
  generalize hcalled : ({ st with depth := st.depth + 1, calls := _ } : State) = called
  have hscope : called.scope = st.scope := by rw [← hcalled]
  have hdepth : called.depth = st.depth + 1 := by rw [← hcalled]
  have hblock : Matches upkeep meaning called
      (Eval.inBlock .vars (f.params.zip values) body called) := by
    refine .inBlock (hbody _ ?_ hdepth)
    rw [← hscope]
    exact Scope.env_enter_vars called.scope (f.params.zip values)
  refine ⟨hscope ▸ hblock.under, ?_, hblock.result⟩
  intro hout
  obtain ⟨hscope', hdepth'⟩ := hblock.restored hout
  refine ⟨hscope'.trans hscope, ?_⟩
  show (Eval.inBlock .vars (f.params.zip values) body called).2.depth - 1 = st.depth
  rw [hdepth', hdepth]
  rfl

/-- Without room to record it, a call stays counted. -/
theorem Matches.enterCallWith {upkeep room : Nat} {within : Option String}
    {meaning : Except EvalError Float} {name : String} {f : Definition} {values : List Float}
    {body : State → Outcome Float} {st : State} (hlength : f.params.length = values.length)
    (hbody : ∀ st', st'.scope.env = st.scope.env.bindVars (f.params.zip values) →
      st'.depth = st.depth + 1 → Matches upkeep meaning st' (body st')) :
    Matches upkeep meaning st (enterCallWith upkeep room within name f values body st) := by
  unfold Eval.enterCallWith
  split
  · exact .enterCall hlength hbody
  · rename_i hroom
    refine ⟨.refl _, ?_, Or.inl ⟨within, rfl⟩⟩
    intro hout
    have hzero := hout ⟨within, rfl⟩
    omega

/-! ### The interpreter matches the meaning -/

/-- Every evaluation matches the meaning of its expression, whatever room it is given. -/
theorem interpretWith_matches (upkeep limit : Nat) : ∀ (room : Nat) (within : Option String)
    (e : Expr) (st : State), Matches upkeep (denote limit st.scope.env st.depth e) st
      (interpretWith upkeep limit room within e st) := by
  intro room
  induction room with
  | zero =>
    intro within e st
    exact ⟨.refl _, fun _ => ⟨rfl, rfl⟩, Or.inl ⟨within, rfl⟩⟩
  | succ room ih =>
    intro within e st
    cases e with
    | num x =>
      rw [denote, interpretWith]
      exact .answered (.ok x) st
    | var name =>
      have hvars : st.scope.env.vars name = st.scope.vars.lookup name := rfl
      rw [denote, interpretWith, hvars]
      cases st.scope.vars.lookup name with
      | some x => exact .answered (.ok x) st
      | none => exact .answered (.error (.unboundVariable name)) st
    | neg operand =>
      rw [denote, interpretWith]
      refine (ih within operand st).andThen ?_
      intro x st₁ _ _ _
      exact .answered (.ok (-x)) st₁
    | bin op left right =>
      rw [denote, interpretWith]
      refine (ih within left st).andThen ?_
      intro x st₁ _ hscope hdepth
      rw [← hscope, ← hdepth]
      refine (ih within right st₁).andThen ?_
      intro y st₂ _ _ _
      rw [Operator.apply_eq]
      exact .answered (.ok (op.value x y)) st₂
    | letIn name rhs next =>
      rw [denote, interpretWith]
      refine (ih within rhs st).andThen ?_
      intro x st₁ _ hscope hdepth
      rw [← hscope, ← hdepth]
      have henv : (st₁.scope.enter .vars [(name, x)]).env = st₁.scope.env.bindVar name x :=
        Scope.env_enter_vars st₁.scope [(name, x)]
      rw [← henv]
      exact .inBlockWith (ih within next { st₁ with scope := st₁.scope.enter .vars [(name, x)] })
    | fnIn name params body next =>
      rw [denote, interpretWith, ← Scope.env_enter_fun]
      exact .inBlockWith (ih within next
        { st with scope := st.scope.enter .funs [(name, ⟨name, params, body⟩)] })
    | call name args =>
      have hfuns : st.scope.env.funs name = st.scope.funs.lookup name := rfl
      rw [denote, interpretWith, hfuns]
      cases st.scope.funs.lookup name with
      | none => exact .answered (.error (.undefinedFunction name)) st
      | some f =>
        dsimp only
        split
        · exact .answered (.error (.arityMismatch name f.arity args.length)) st
        · rename_i harity
          refine (Matches.evalAll (ih within) args st).andThen ?_
          intro values st₁ hvalues hscope hdepth
          rw [← hdepth]
          split
          · exact .answered (.error (.depthExceeded (some name) limit)) st₁
          · have hlength : f.params.length = values.length := by
              rw [length_of_denoteAll hvalues]
              exact Decidable.not_not.mp harity
            refine .enterCallWith hlength ?_
            intro st₂ henv hdepth₂
            rw [← hscope, ← henv, ← hdepth₂]
            exact ih (some name) f.body st₂

theorem interpret_matches (limit room : Nat) (within : Option String) (e : Expr) (st : State) :
    Matches 0 (denote limit st.scope.env st.depth e) st (interpret limit room within e st) :=
  interpretWith_matches 0 limit room within e st

/-! ### There is always enough room -/

/-- With this room, no evaluation that starts with these meanings of names is cut short. -/
def Fits (upkeep limit room : Nat) (env : Env) (depth : Nat) (e : Expr) : Prop :=
  ∀ within (st : State), st.scope.env = env → st.depth = depth →
    ¬ RanOut (interpretWith upkeep limit room within e st).1

def FitsAll (upkeep limit room : Nat) (env : Env) (depth : Nat) (es : List Expr) : Prop :=
  ∀ within (st : State), st.scope.env = env → st.depth = depth →
    ¬ RanOut (evalAll (interpretWith upkeep limit room within) es st).1

theorem not_ranOut_andThen {α β : Type} {upkeep : Nat} {meaning : Except EvalError α} {st : State}
    {outcome : Outcome α} {next : α → State → Outcome β} (h : Matches upkeep meaning st outcome)
    (hfirst : ¬ RanOut outcome.1)
    (hnext : ∀ value st', meaning = .ok value → st'.scope = st.scope → st'.depth = st.depth →
      ¬ RanOut (next value st').1) :
    ¬ RanOut (andThen outcome next).1 := by
  obtain ⟨result, st'⟩ := outcome
  cases result with
  | ok value =>
    obtain ⟨hscope, hdepth⟩ := h.restored fun hout => absurd hout hfirst
    exact hnext value st' (h.eq_ok rfl) hscope hdepth
  | error stop => exact fun hout => hfirst (ranOut_error_iff.mp hout)

theorem not_ranOut_inBlock {α : Type} {side : Side} {bindings : List (String × side.Value)}
    {block : State → Outcome α} {st : State}
    (h : ¬ RanOut (block { st with scope := st.scope.enter side bindings }).1) :
    ¬ RanOut (inBlock side bindings block st).1 := by
  unfold inBlock
  generalize block { st with scope := st.scope.enter side bindings } = outcome at h
  obtain ⟨result, st'⟩ := outcome
  dsimp only
  cases st'.scope.leave side bindings.length with
  | ok scope => exact h
  | error e =>
    rintro ⟨within, hout⟩
    cases hout

namespace Fits

variable {upkeep limit room : Nat} {env : Env} {depth : Nat}

theorem num (x : Float) : Fits upkeep limit (room + 1) env depth (.num x) := by
  intro within st _ _
  exact not_ranOut_ok x

theorem var (name : String) : Fits upkeep limit (room + 1) env depth (.var name) := by
  intro within st _ _
  rw [interpretWith]
  cases st.scope.vars.lookup name with
  | some x => exact not_ranOut_ok x
  | none => exact not_ranOut_error (.unboundVariable name)

theorem neg {operand : Expr} (h : Fits upkeep limit room env depth operand) :
    Fits upkeep limit (room + 1) env depth (.neg operand) := by
  intro within st henv hdepth
  rw [interpretWith]
  refine not_ranOut_andThen (interpretWith_matches upkeep limit room within operand st)
    (h within st henv hdepth) ?_
  intro x st₁ _ _ _
  exact not_ranOut_ok (-x)

theorem bin {op : Operator} {left right : Expr} (hleft : Fits upkeep limit room env depth left)
    (hright : Fits upkeep limit room env depth right) :
    Fits upkeep limit (room + 1) env depth (.bin op left right) := by
  intro within st henv hdepth
  rw [interpretWith]
  refine not_ranOut_andThen (interpretWith_matches upkeep limit room within left st)
    (hleft within st henv hdepth) ?_
  intro x st₁ _ hscope₁ hdepth₁
  refine not_ranOut_andThen (interpretWith_matches upkeep limit room within right st₁)
    (hright within st₁ (hscope₁ ▸ henv) (hdepth₁.trans hdepth)) ?_
  intro y st₂ _ _ _
  rw [Operator.apply_eq]
  exact not_ranOut_ok (op.value x y)

theorem letIn {name : String} {rhs next : Expr} (hroom : upkeep ≤ room)
    (hrhs : Fits upkeep limit room env depth rhs)
    (hnext : ∀ x, denote limit env depth rhs = .ok x →
      Fits upkeep limit room (env.bindVar name x) depth next) :
    Fits upkeep limit (room + 1) env depth (.letIn name rhs next) := by
  intro within st henv hdepth
  rw [interpretWith]
  refine not_ranOut_andThen (interpretWith_matches upkeep limit room within rhs st)
    (hrhs within st henv hdepth) ?_
  intro x st₁ hx hscope₁ hdepth₁
  rw [henv, hdepth] at hx
  rw [inBlockWith, if_pos hroom]
  refine not_ranOut_inBlock (hnext x hx within _ ?_ (hdepth₁.trans hdepth))
  rw [← henv, ← hscope₁]
  exact Scope.env_enter_vars st₁.scope [(name, x)]

theorem fnIn {name : String} {params : List String} {body next : Expr} (hroom : upkeep ≤ room)
    (hnext : Fits upkeep limit room (env.bindFun ⟨name, params, body⟩) depth next) :
    Fits upkeep limit (room + 1) env depth (.fnIn name params body next) := by
  intro within st henv hdepth
  rw [interpretWith, inBlockWith, if_pos hroom]
  refine not_ranOut_inBlock (hnext within _ ?_ hdepth)
  rw [← henv]
  exact Scope.env_enter_fun st.scope ⟨name, params, body⟩

theorem call {name : String} {args : List Expr} (hroom : upkeep ≤ room)
    (hargs : FitsAll upkeep limit room env depth args)
    (hbody : ∀ f, env.funs name = some f → ∀ values, denoteAll limit env depth args = .ok values →
      depth < limit →
      Fits upkeep limit room (env.bindVars (f.params.zip values)) (depth + 1) f.body) :
    Fits upkeep limit (room + 1) env depth (.call name args) := by
  intro within st henv hdepth
  have hfuns : st.scope.funs.lookup name = env.funs name := by rw [← henv]; rfl
  rw [interpretWith, hfuns]
  cases hf : env.funs name with
  | none => exact not_ranOut_error (.undefinedFunction name)
  | some f =>
    dsimp only
    split
    · exact not_ranOut_error (.arityMismatch name f.arity args.length)
    · rename_i harity
      refine not_ranOut_andThen
        (Matches.evalAll (interpretWith_matches upkeep limit room within) args st)
        (hargs within st henv hdepth) ?_
      intro values st₁ hvalues hscope₁ hdepth₁
      split
      · exact not_ranOut_error (.depthExceeded (some name) limit)
      · rename_i hlimit
        have hlength : f.params.length = values.length := by
          rw [length_of_denoteAll hvalues]
          exact Decidable.not_not.mp harity
        rw [henv, hdepth] at hvalues
        have hfits := hbody f hf values hvalues (by omega)
        rw [enterCallWith, if_pos hroom]
        unfold enterCall
        rw [pair?_eq_zip hlength]
        refine not_ranOut_inBlock (hfits (some name) _ ?_ ?_)
        · rw [← henv, ← hscope₁]
          exact Scope.env_enter_vars st₁.scope (f.params.zip values)
        · rw [← hdepth, ← hdepth₁]

end Fits

theorem FitsAll.cons {upkeep limit room : Nat} {env : Env} {depth : Nat} {e : Expr}
    {rest : List Expr} (hfirst : Fits upkeep limit room env depth e)
    (hrest : FitsAll upkeep limit room env depth rest) :
    FitsAll upkeep limit room env depth (e :: rest) := by
  intro within st henv hdepth
  rw [evalAll]
  refine not_ranOut_andThen (interpretWith_matches upkeep limit room within e st)
    (hfirst within st henv hdepth) ?_
  intro x st₁ _ hscope₁ hdepth₁
  refine not_ranOut_andThen
    (Matches.evalAll (interpretWith_matches upkeep limit room within) rest st₁)
    (hrest within st₁ (hscope₁ ▸ henv) (hdepth₁.trans hdepth)) ?_
  intro xs st₂ _ _ _
  exact not_ranOut_ok (x :: xs)

/-- From some room on. -/
def WithEnough (P : Nat → Prop) : Prop :=
  ∃ enough, ∀ room, enough ≤ room → P room

namespace WithEnough

variable {P Q : Nat → Prop}

theorem and (hp : WithEnough P) (hq : WithEnough Q) : WithEnough fun room => P room ∧ Q room := by
  obtain ⟨n, hn⟩ := hp
  obtain ⟨m, hm⟩ := hq
  refine ⟨max n m, fun room hroom => ⟨hn room ?_, hm room ?_⟩⟩
  · exact (Nat.max_le.mp hroom).1
  · exact (Nat.max_le.mp hroom).2

theorem one_more (hp : WithEnough P) (h : ∀ room, P room → Q (room + 1)) : WithEnough Q := by
  obtain ⟨n, hn⟩ := hp
  refine ⟨n + 1, fun room hroom => ?_⟩
  obtain ⟨k, rfl⟩ : ∃ k, room = k + 1 := ⟨room - 1, by omega⟩
  exact h k (hn k (by omega))

/-- The room for what comes next may depend on the value it starts with, if there is at most
    one such value. -/
theorem of_unique {α : Type} {Starts : α → Prop} {P : α → Nat → Prop}
    (hunique : ∀ a b, Starts a → Starts b → a = b)
    (h : ∀ value, Starts value → WithEnough (P value)) :
    WithEnough fun room => ∀ value, Starts value → P value room := by
  by_cases hex : ∃ x, Starts x
  · obtain ⟨x, hx⟩ := hex
    obtain ⟨n, hn⟩ := h x hx
    refine ⟨n, fun room hroom value hvalue => ?_⟩
    rw [hunique value x hvalue hx]
    exact hn room hroom
  · exact ⟨0, fun room _ value hvalue => absurd ⟨value, hvalue⟩ hex⟩

theorem of_ok {α : Type} {meaning : Except EvalError α} {P : α → Nat → Prop}
    (h : ∀ value, WithEnough (P value)) :
    WithEnough fun room => ∀ value, meaning = .ok value → P value room :=
  of_unique (fun _ _ ha hb => Except.ok.inj (ha.symm.trans hb)) fun value _ => h value

end WithEnough

mutual

/-- The recursion is the one of `denote`: a body is evaluated with more calls in progress. -/
theorem fits_withEnough (upkeep limit : Nat) (env : Env) (depth : Nat) (e : Expr) :
    WithEnough fun room => Fits upkeep limit room env depth e := by
  have hroom : WithEnough fun room => upkeep ≤ room := ⟨upkeep, fun _ hle => hle⟩
  match e with
  | .num x => exact hroom.one_more fun room _ => .num x
  | .var name => exact hroom.one_more fun room _ => .var name
  | .neg operand =>
    exact (fits_withEnough upkeep limit env depth operand).one_more fun room h => h.neg
  | .bin op left right =>
    have hleft := fits_withEnough upkeep limit env depth left
    have hright := fits_withEnough upkeep limit env depth right
    exact (hleft.and hright).one_more fun room h => .bin h.1 h.2
  | .letIn name rhs next =>
    have hrhs := fits_withEnough upkeep limit env depth rhs
    have hnext : WithEnough fun room => ∀ x, denote limit env depth rhs = .ok x →
        Fits upkeep limit room (env.bindVar name x) depth next :=
      .of_ok fun x => fits_withEnough upkeep limit (env.bindVar name x) depth next
    exact (hroom.and (hrhs.and hnext)).one_more fun room h => .letIn h.1 h.2.1 h.2.2
  | .fnIn name params body next =>
    have hnext := fits_withEnough upkeep limit (env.bindFun ⟨name, params, body⟩) depth next
    exact (hroom.and hnext).one_more fun room h => .fnIn h.1 h.2
  | .call name args =>
    have hargs := fitsAll_withEnough upkeep limit env depth args
    by_cases hlimit : depth < limit
    · have hbody : WithEnough fun room => ∀ f, env.funs name = some f →
          ∀ values, denoteAll limit env depth args = .ok values →
            Fits upkeep limit room (env.bindVars (f.params.zip values)) (depth + 1) f.body := by
        refine .of_unique (fun _ _ ha hb => Option.some.inj (ha.symm.trans hb)) fun f _ => ?_
        exact .of_ok fun values =>
          fits_withEnough upkeep limit (env.bindVars (f.params.zip values)) (depth + 1) f.body
      exact (hroom.and (hargs.and hbody)).one_more fun room h =>
        .call h.1 h.2.1 fun f hf values hvalues _ => h.2.2 f hf values hvalues
    · exact (hroom.and hargs).one_more fun room h =>
        .call h.1 h.2 fun f _ values _ hless => absurd hless hlimit
termination_by (limit - depth, sizeOf e)

theorem fitsAll_withEnough (upkeep limit : Nat) (env : Env) (depth : Nat) (es : List Expr) :
    WithEnough fun room => FitsAll upkeep limit room env depth es := by
  match es with
  | [] => exact ⟨0, fun room _ within st _ _ => not_ranOut_ok []⟩
  | e :: rest =>
    have hfirst := fits_withEnough upkeep limit env depth e
    have hrest := fitsAll_withEnough upkeep limit env depth rest
    obtain ⟨enough, h⟩ := hfirst.and hrest
    exact ⟨enough, fun room hroom => .cons (h room hroom).1 (h room hroom).2⟩
termination_by (limit - depth, sizeOf es)

end

/-- **The interpreter computes the meaning.**  Whatever the tree, the stacks, the depth and the
    limit, an evaluation that is not cut short ends with the value or the error that the
    expression means, and with enough room none is cut short. -/
theorem interpret_eq_denote (limit : Nat) (e : Expr) (st : State) :
    (∀ room within, RanOut (interpret limit room within e st).1 ∨
      (interpret limit room within e st).1 = answer (denote limit st.scope.env st.depth e)) ∧
    ∃ enough, ∀ room, enough ≤ room → ∀ within,
      (interpret limit room within e st).1 = answer (denote limit st.scope.env st.depth e) := by
  have hresult := fun room within => (interpret_matches limit room within e st).result
  refine ⟨hresult, ?_⟩
  obtain ⟨enough, hfits⟩ := fits_withEnough 0 limit st.scope.env st.depth e
  refine ⟨enough, fun room hroom within => ?_⟩
  exact (hresult room within).resolve_left (hfits room hroom within st rfl rfl)

end Eval

end Abacus
