/-
  Abacus/Eval/Interpret.lean
  ==========================
  **The interpreter.**  An expression is evaluated in a state: the two stacks, the number
  of calls in progress and the calls made so far.  Scoping is dynamic: a call puts its
  arguments on top of the caller's variables, so a body sees every variable that is bound
  where it is called from.  Blocks put bindings on a stack and take them off again on
  every way out, so that a state after an error is as good as one after a value.

  A call checks, in this order, that the function exists, that the number of arguments is
  right, the arguments themselves from left to right, and that fewer than `limit` calls
  are in progress.

  At most `room` expressions are nested into one another, the bodies of called functions
  included.  Running out of room is told apart from all errors of the program; it names the
  function whose body is being evaluated.

  Recording a call and leaving a block may take room too, beyond what entering took: the
  `upkeep`.  Where there is none left for it, a call stays counted without a record and a
  block keeps its bindings, and room has run out.  Programs run without upkeep: what could
  be entered can be left.
-/
import Abacus.Eval.Arithmetic
import Abacus.Eval.Error
import Abacus.Scope

namespace Abacus.Eval

/-! ### States and outcomes -/

/-- A call: the function, the values of its arguments, and how many calls are in progress
    with it. -/
structure Call where
  function : String
  args : List Float
  depth : Nat
deriving DecidableEq, Repr

/-- What an evaluation works on. -/
structure State where
  scope : Scope
  /-- The number of calls in progress. -/
  depth : Nat
  /-- The calls made so far, the latest first. -/
  calls : List Call
deriving DecidableEq, Repr

/-- Why an evaluation stopped. -/
inductive Stop where
  | error (e : EvalError)
  /-- No room was left in the body of a function, or outside all bodies. -/
  | outOfRoom (within : Option String)
  | fault (f : Fault)
deriving DecidableEq, Repr

/-- A value or the reason for stopping, and the state reached. -/
abbrev Outcome (α : Type) := Except Stop α × State

/-- Goes on with the value of an outcome, if it has one. -/
def andThen {α β : Type} (outcome : Outcome α) (next : α → State → Outcome β) : Outcome β :=
  match outcome with
  | (.ok value, st) => next value st
  | (.error stop, st) => (.error stop, st)

/-- Takes the answer of an operation that reads no state. -/
def lift {α : Type} (answer : Except Fault α) (st : State) : Outcome α :=
  match answer with
  | .ok value => (.ok value, st)
  | .error f => (.error (.fault f), st)

/-- Evaluates a block with bindings on one of the stacks, and takes them off again however
    the block ends. -/
def inBlock {α : Type} (side : Side) (bindings : List (String × side.Value))
    (block : State → Outcome α) (st : State) : Outcome α :=
  match block { st with scope := st.scope.enter side bindings } with
  | (result, st) =>
    match st.scope.leave side bindings.length with
    | .ok scope => (result, { st with scope := scope })
    | .error _ => (.error (.fault .scopeUnderflow), st)

/-- A block that is left only if there is room for the upkeep. -/
def inBlockWith {α : Type} (upkeep room : Nat) (within : Option String) (side : Side)
    (bindings : List (String × side.Value)) (block : State → Outcome α) (st : State) : Outcome α :=
  if upkeep ≤ room then inBlock side bindings block st
  else (.error (.outOfRoom within), (block { st with scope := st.scope.enter side bindings }).2)

/-! ### Calls -/

/-- Evaluates expressions from left to right. -/
def evalAll (eval : Expr → State → Outcome Float) : List Expr → State → Outcome (List Float)
  | [], st => (.ok [], st)
  | e :: rest, st =>
    andThen (eval e st) fun value st =>
    andThen (evalAll eval rest st) fun values st =>
    (.ok (value :: values), st)

/-- Parameters with their values; nothing if their numbers differ. -/
def pair? : List String → List Float → Option (List (String × Float))
  | [], [] => some []
  | param :: params, value :: values => (pair? params values).map ((param, value) :: ·)
  | _, _ => none

/-- Evaluates the body of a function: one more call is in progress, and the parameters
    are bound. -/
def enterCall (name : String) (f : Definition) (values : List Float)
    (body : State → Outcome Float) (st : State) : Outcome Float :=
  match pair? f.params values with
  | none => (.error (.fault .unpaired), st)
  | some bindings =>
    let call : Call := ⟨name, values, st.depth + 1⟩
    let (result, st) := inBlock .vars bindings body
      { st with depth := st.depth + 1, calls := call :: st.calls }
    (result, { st with depth := st.depth - 1 })

/-- A call that is made only if there is room for the upkeep; it is counted all the same. -/
def enterCallWith (upkeep room : Nat) (within : Option String) (name : String) (f : Definition)
    (values : List Float) (body : State → Outcome Float) (st : State) : Outcome Float :=
  if upkeep ≤ room then enterCall name f values body st
  else (.error (.outOfRoom within), { st with depth := st.depth + 1 })

/-! ### Expressions -/

/-- Evaluates an expression with `room` for nested ones, in the body of the function
    `within` or outside all bodies. -/
def interpretWith (upkeep limit : Nat) :
    (room : Nat) → (within : Option String) → Expr → State → Outcome Float
  | 0, within, _, st => (.error (.outOfRoom within), st)
  | room + 1, within, e, st =>
    match e with
    | .num value => (.ok value, st)
    | .var name =>
      match st.scope.vars.lookup name with
      | some value => (.ok value, st)
      | none => (.error (.error (.unboundVariable name)), st)
    | .neg operand =>
      andThen (interpretWith upkeep limit room within operand st) fun x st =>
      (.ok (-x), st)
    | .bin op left right =>
      andThen (interpretWith upkeep limit room within left st) fun x st =>
      andThen (interpretWith upkeep limit room within right st) fun y st =>
      lift (op.apply x y) st
    | .call name args =>
      match st.scope.funs.lookup name with
      | none => (.error (.error (.undefinedFunction name)), st)
      | some f =>
        if f.arity ≠ args.length then
          (.error (.error (.arityMismatch name f.arity args.length)), st)
        else
          andThen (evalAll (interpretWith upkeep limit room within) args st) fun values st =>
          if limit ≤ st.depth then (.error (.error (.depthExceeded (some name) limit)), st)
          else
            enterCallWith upkeep room within name f values
              (interpretWith upkeep limit room (some name) f.body) st
    | .letIn name value next =>
      andThen (interpretWith upkeep limit room within value st) fun x st =>
      inBlockWith upkeep room within .vars [(name, x)]
        (interpretWith upkeep limit room within next) st
    | .fnIn name params body next =>
      inBlockWith upkeep room within .funs [(name, ⟨name, params, body⟩)]
        (interpretWith upkeep limit room within next) st

/-- Evaluates an expression without upkeep. -/
def interpret (limit room : Nat) (within : Option String) (e : Expr) (st : State) :
    Outcome Float :=
  interpretWith 0 limit room within e st

section Equations

variable (limit room : Nat) (within : Option String) (st : State)

@[simp]
theorem inBlockWith_zero {α : Type} (side : Side) (bindings : List (String × side.Value))
    (block : State → Outcome α) :
    inBlockWith 0 room within side bindings block st = inBlock side bindings block st :=
  if_pos (Nat.zero_le room)

@[simp]
theorem enterCallWith_zero (name : String) (f : Definition) (values : List Float)
    (body : State → Outcome Float) :
    enterCallWith 0 room within name f values body st = enterCall name f values body st :=
  if_pos (Nat.zero_le room)

theorem interpret_var (name : String) :
    interpret limit (room + 1) within (.var name) st =
      match st.scope.vars.lookup name with
      | some value => (.ok value, st)
      | none => (.error (.error (.unboundVariable name)), st) :=
  rfl

theorem interpret_neg (operand : Expr) :
    interpret limit (room + 1) within (.neg operand) st =
      andThen (interpret limit room within operand st) fun x st => (.ok (-x), st) :=
  rfl

theorem interpret_bin (op : Operator) (left right : Expr) :
    interpret limit (room + 1) within (.bin op left right) st =
      andThen (interpret limit room within left st) fun x st =>
      andThen (interpret limit room within right st) fun y st => lift (op.apply x y) st :=
  rfl

theorem interpret_call (name : String) (args : List Expr) :
    interpret limit (room + 1) within (.call name args) st =
      match st.scope.funs.lookup name with
      | none => (.error (.error (.undefinedFunction name)), st)
      | some f =>
        if f.arity ≠ args.length then
          (.error (.error (.arityMismatch name f.arity args.length)), st)
        else
          andThen (evalAll (interpret limit room within) args st) fun values st =>
          if limit ≤ st.depth then (.error (.error (.depthExceeded (some name) limit)), st)
          else enterCall name f values (interpret limit room (some name) f.body) st := by
  simp only [interpret, interpretWith, enterCallWith_zero]
  rfl

theorem interpret_letIn (name : String) (rhs next : Expr) :
    interpret limit (room + 1) within (.letIn name rhs next) st =
      andThen (interpret limit room within rhs st) fun x st =>
      inBlock .vars [(name, x)] (interpret limit room within next) st := by
  simp only [interpret, interpretWith, inBlockWith_zero]
  rfl

theorem interpret_fnIn (name : String) (params : List String) (body next : Expr) :
    interpret limit (room + 1) within (.fnIn name params body next) st =
      inBlock .funs [(name, ⟨name, params, body⟩)] (interpret limit room within next) st := by
  simp only [interpret, interpretWith, inBlockWith_zero]
  rfl

end Equations

end Abacus.Eval
