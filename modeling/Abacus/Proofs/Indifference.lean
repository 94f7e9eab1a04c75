/-
  Abacus/Proofs/Indifference.lean
  ===============================
  **Failure does not depend on numbers.**  Two trees that differ in their literals only, started
  on stacks that differ in values and literals only, run in step: they look up the same names,
  make the same calls at the same depths, and both have a value or both stop for the same
  reason.  A zero, an infinity or something that is not a number is a value like any other; it
  is never taken for a missing binding, and no quotient stops an evaluation.

  `SameShape` compares trees, stacks and scopes up to numbers.  As a coupling it needs no excuse:
  a name is bound in both scopes or in neither.
-/
import Abacus.Proofs.Coupling
import Abacus.Proofs.Restoration

namespace Abacus

/-! ### Equal up to numbers -/

/-- Trees that differ in the values of their literals only. -/
inductive Expr.SameShape : Expr → Expr → Prop where
  | num (x x' : Float) : SameShape (.num x) (.num x')
  | var (name : String) : SameShape (.var name) (.var name)
  | neg {operand operand' : Expr} (h : SameShape operand operand') :
      SameShape (.neg operand) (.neg operand')
  | bin (op : Operator) {left left' right right' : Expr} (hleft : SameShape left left')
      (hright : SameShape right right') : SameShape (.bin op left right) (.bin op left' right')
  | call (function : String) {args args' : List Expr} (hargs : List.Forall₂ SameShape args args') :
      SameShape (.call function args) (.call function args')
  | letIn (name : String) {rhs rhs' next next' : Expr} (hrhs : SameShape rhs rhs')
      (hnext : SameShape next next') : SameShape (.letIn name rhs next) (.letIn name rhs' next')
  | fnIn (name : String) (params : List String) {body body' next next' : Expr}
      (hbody : SameShape body body') (hnext : SameShape next next') :
      SameShape (.fnIn name params body next) (.fnIn name params body' next')

/-- Functions with the same parameters and bodies of one shape. -/
abbrev Definition.SameShape : Definition → Definition → Prop :=
  Eval.SameFunction Expr.SameShape

/-- What two values on a stack have in common: nothing if they are numbers. -/
def Side.SameShape : (side : Side) → side.Value → side.Value → Prop
  | .vars, _, _ => True
  | .funs, f, f' => Definition.SameShape f f'

/-- The same names in the same order, bound to values of one shape. -/
def SameBindings (side : Side) : List (String × side.Value) → List (String × side.Value) → Prop :=
  List.Forall₂ fun entry entry' => entry'.1 = entry.1 ∧ side.SameShape entry.2 entry'.2

def Scope.SameShape (s s' : Scope) : Prop :=
  ∀ side, SameBindings side (s.stack side).entries (s'.stack side).entries

namespace Eval

/-- A call without the values of its arguments. -/
def Call.head (call : Call) : String × Nat :=
  (call.function, call.depth)

/-- The calls added to what each run had recorded before are the same but for the values of
    their arguments. -/
def SameCalls (before before' calls calls' : List Call) : Prop :=
  ∃ made made', calls = made ++ before ∧ calls' = made' ++ before' ∧
    made'.map Call.head = made.map Call.head

end Eval

/-! ### Stacks -/

section Stacks

variable {side : Side}

theorem SameBindings.lookup {s s' : Stack side.Value} (h : SameBindings side s.entries s'.entries)
    (name : String) : Option.Rel side.SameShape (s.lookup name) (s'.lookup name) := by
  obtain ⟨entries⟩ := s
  obtain ⟨entries'⟩ := s'
  simp only [Stack.lookup] at h ⊢
  induction h with
  | nil => exact .none
  | @cons entry entry' rest rest' hentry _ ih =>
    obtain ⟨hname, hvalue⟩ := hentry
    rw [List.find?_cons, List.find?_cons, hname]
    by_cases hfound : entry.1 = name
    · simp only [hfound, decide_true, Option.map_some]
      exact .some hvalue
    · simp only [hfound, decide_false]
      exact ih

theorem SameBindings.pushAll {s s' : Stack side.Value}
    {bindings bindings' : List (String × side.Value)}
    (h : SameBindings side s.entries s'.entries) (hbindings : SameBindings side bindings bindings') :
    SameBindings side (s.pushAll bindings).entries (s'.pushAll bindings').entries :=
  List.rel_append (List.forall₂_reverse_iff.mpr hbindings) h

end Stacks

theorem Scope.SameShape.enter {s s' : Scope} (h : s.SameShape s') {side : Side}
    {bindings bindings' : List (String × side.Value)}
    (hbindings : SameBindings side bindings bindings') :
    (s.enter side bindings).SameShape (s'.enter side bindings') := by
  intro other
  cases side with
  | vars =>
    cases other with
    | vars => exact (h .vars).pushAll hbindings
    | funs => exact h .funs
  | funs =>
    cases other with
    | vars => exact h .vars
    | funs => exact (h .funs).pushAll hbindings

namespace Eval

/-! ### Runs in step -/

/-- States that two runs have come to, after the same calls since `before` and `before'`. -/
structure State.SameShape (before before' : List Call) (st st' : State) : Prop where
  scope : st.scope.SameShape st'.scope
  depth : st'.depth = st.depth
  calls : SameCalls before before' st.calls st'.calls

/-- Two numbers, which have nothing in common. -/
abbrev AnyNumbers : Float → Float → Prop :=
  fun _ _ => True

theorem SameCalls.cons {before before' calls calls' : List Call}
    (h : SameCalls before before' calls calls') {call call' : Call}
    (hcall : call'.head = call.head) :
    SameCalls before before' (call :: calls) (call' :: calls') := by
  obtain ⟨made, made', rfl, rfl, hmade⟩ := h
  refine ⟨call :: made, call' :: made', rfl, rfl, ?_⟩
  rw [List.map_cons, List.map_cons, hcall, hmade]

/-- Numbers do not matter to either run. -/
theorem coupling_shapes (limit : Nat) (before before' : List Call) :
    Coupling limit limit Expr.SameShape AnyNumbers (State.SameShape before before')
      fun _ => False where
  parts := by
    intro e e' he
    cases he with
    | num x x' => exact .num trivial
    | var name => exact .var name
    | neg h => exact .neg h
    | bin op hleft hright => exact .bin op hleft hright
    | call name hargs => exact .call name hargs
    | letIn name hrhs hnext => exact .letIn name hrhs hnext
    | fnIn name params hbody hnext => exact .fnIn name params hbody hnext
  vars := by
    intro st st' name _ h
    exact .inl ((h.scope .vars).lookup name)
  funs := by
    intro st st' name h
    exact .inl ((h.scope .funs).lookup name)
  neg _ := trivial
  bin _ _ _ := trivial
  enterVars := by
    intro st st' bindings bindings' h hnames
    exact ⟨h.scope.enter hnames, h.depth, h.calls⟩
  enterFun := by
    intro st st' body body' name params h hbody
    exact ⟨h.scope.enter (.cons ⟨rfl, rfl, hbody⟩ .nil), h.depth, h.calls⟩
  back h h₁ := ⟨h.scope, h₁.depth, h₁.calls⟩
  depth h := h.depth
  call := by
    intro st st' args args' name h _
    refine ⟨h.scope, congrArg (· + 1) h.depth, h.calls.cons ?_⟩
    rw [Call.head, Call.head, h.depth]
  uncall h := ⟨h.scope, congrArg (· - 1) h.depth, h.calls⟩
  limits := .inl rfl

theorem interpret_inStep (limit room : Nat) (within : Option String) {before before' : List Call}
    {e e' : Expr} {st st' : State} (he : e.SameShape e')
    (h : State.SameShape before before' st st') :
    SameEnding AnyNumbers (interpret limit room within e st).1
      (interpret limit room within e' st').1 ∧
    State.SameShape before before' (interpret limit room within e st).2
      (interpret limit room within e' st').2 := by
  rcases (coupling_shapes limit before before').interpret room within e e' st st' he h with
    ⟨err, hnever, -⟩ | hended
  · exact hnever.elim
  · exact hended

theorem evaluate_sameEnding (limit : Nat) {e e' : Expr} (he : e.SameShape e') :
    SameEnding AnyNumbers (evaluate limit e).result (evaluate limit e').result ∧
    (evaluate limit e').calls.map Call.head = (evaluate limit e).calls.map Call.head := by
  have hempty : Scope.empty.SameShape Scope.empty := by
    intro side
    cases side <;> exact .nil
  have hinitial : State.SameShape [] [] .initial .initial :=
    ⟨hempty, rfl, [], [], rfl, rfl, rfl⟩
  obtain ⟨hending, hstate⟩ := interpret_inStep limit maxRoom none he hinitial
  rw [evaluate_eq, evaluate_eq]
  constructor
  · simp only
    generalize (interpret limit maxRoom none e .initial).1 = result at hending ⊢
    generalize (interpret limit maxRoom none e' .initial).1 = result' at hending ⊢
    cases hending with
    | ok => exact .ok trivial
    | error stop => exact .error _
  · obtain ⟨made, made', hmade, hmade', hcalls⟩ := hstate.calls
    simp only [hmade, hmade', List.append_nil, List.map_reverse, hcalls]

/-- **Failure never depends on numbers.**  Trees that differ in their literals only, evaluated
    with as many calls in progress on stacks that differ in values and in the literals of bodies
    only, both have a value or both end in the same error; and they make the same calls at the
    same depths.  The same goes for whole programs. -/
theorem interpret_indifferent {e e' : Expr} (he : e.SameShape e') (limit : Nat) :
    (∀ room within (st st' : State), st.scope.SameShape st'.scope → st'.depth = st.depth →
      SameEnding AnyNumbers (interpret limit room within e st).1
        (interpret limit room within e' st').1 ∧
      SameCalls st.calls st'.calls (interpret limit room within e st).2.calls
        (interpret limit room within e' st').2.calls) ∧
    SameEnding AnyNumbers (evaluate limit e).result (evaluate limit e').result ∧
    (evaluate limit e').calls.map Call.head = (evaluate limit e).calls.map Call.head := by
  refine ⟨?_, evaluate_sameEnding limit he⟩
  intro room within st st' hscope hdepth
  have hstart : State.SameShape st.calls st'.calls st st' :=
    ⟨hscope, hdepth, [], [], rfl, rfl, rfl⟩
  obtain ⟨hending, hstate⟩ := interpret_inStep limit room within he hstart
  exact ⟨hending, hstate.calls⟩

/-- `fn f y = x / y; f(z) + f(w)`, with numbers for `z` and `w`. -/
def quotients (z w : Float) : Expr :=
  .fnIn "f" ["y"] (.bin .div (.var "x") (.var "y"))
    (.bin .add (.call "f" [.num z]) (.call "f" [.num w]))

def State.withX (x : Float) : State :=
  ⟨⟨⟨[("x", x)]⟩, .empty⟩, 0, []⟩

theorem quotients_sameShape (z w z' w' : Float) :
    (quotients z w).SameShape (quotients z' w') := by
  refine .fnIn "f" ["y"] (.bin .div (.var "x") (.var "y")) (.bin .add ?_ ?_)
  · exact .call "f" (.cons (.num z z') .nil)
  · exact .call "f" (.cons (.num w w') .nil)

theorem withX_sameShape (x x' : Float) :
    (State.withX x).scope.SameShape (State.withX x').scope := by
  intro side
  cases side with
  | vars => exact .cons ⟨rfl, trivial⟩ .nil
  | funs => exact .nil

/-- Ordinary numbers against zero by zero and a divisor that is not a number: where `x` is bound
    the two end alike, and as programs both lack `x`. -/
theorem quotients_indifferent :
    (quotients 1 2).SameShape (quotients 0 Binary64.nan) ∧
    (State.withX 1).scope.SameShape (State.withX 0).scope ∧
    SameEnding AnyNumbers (interpret 1 9 none (quotients 1 2) (.withX 1)).1
      (interpret 1 9 none (quotients 0 Binary64.nan) (.withX 0)).1 ∧
    SameEnding AnyNumbers (evaluate 1 (quotients 1 2)).result
      (evaluate 1 (quotients 0 Binary64.nan)).result ∧
    (evaluate 1 (quotients 1 2)).result = .error (.error (.unboundVariable "x")) := by
  have htrees := quotients_sameShape 1 2 0 Binary64.nan
  have hscopes := withX_sameShape 1 0
  obtain ⟨hruns, hprograms, -⟩ := interpret_indifferent htrees 1
  exact ⟨htrees, hscopes, (hruns 9 none _ _ hscopes rfl).1, hprograms, rfl⟩

end Eval
end Abacus
