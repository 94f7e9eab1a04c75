/-
  Abacus/Scope/Script.lean
  ========================
  **Scripts on a scope.**  A script is a list of actions on the two stacks of a scope.
  An action that fails changes nothing, and the script goes on after it.  A block adds
  bindings, runs actions of its own and takes as many entries off again, also when it is
  broken off; a removal that fails at the end of a block hides the reason for breaking
  off.
-/
import Abacus.Program

namespace Abacus.Script

/-- Actions on a scope. -/
inductive Action where
  /-- Adds bindings in order. -/
  | push (side : Side) (bindings : List (String × side.Value))
  /-- Takes entries off. -/
  | pop (side : Side) (count : Int)
  /-- Looks a name up. -/
  | lookup (side : Side) (name : String)
  /-- Lists the bound names. -/
  | names (side : Side)
  /-- Runs a source in the scope. -/
  | run (source : String) (depth : Option Int)
  /-- Runs actions with bindings of their own, and breaks off after them if told so. -/
  | block (side : Side) (bindings : List (String × side.Value)) (actions : List Action)
      (breaksOff : Bool)
  /-- Fails, because a function in its bindings cannot be read. -/
  | unreadable (r : Rejection)

instance : Inhabited Action := ⟨.names .vars⟩

/-- Why an action failed. -/
inductive Error where
  | pop (e : Stack.PopError)
  /-- A block was broken off. -/
  | brokenOff
  | rejected (r : Rejection)
  | refused (r : Program.Refusal)
  | failed (f : Eval.Failure)

/-- What an action answers. -/
inductive Answer where
  | done
  | found (side : Side) (value : Option side.Value)
  | names (list : List String)
  | value (x : Float)

/-- What an action did: its answer, the steps of its block if it has one, and the scope
    after it. -/
inductive Step where
  | mk (answer : Except Error Answer) (inner : Option (List Step)) (after : Scope)

/-- Runs a source in a scope. -/
def runSource (source : String) (depth : Option Int) (scope : Scope) : Except Error Answer × Scope :=
  match Parse.parse source with
  | .error r => (.error (.rejected r), scope)
  | .ok e =>
    match Program.evaluateIn ⟨.empty, depth, false⟩ scope e with
    | (.error r, _) => (.error (.refused r), scope)
    | (.ok run, _) =>
      match run.result with
      | .ok x => (.ok (.value x), run.scope)
      | .error f => (.error (.failed f), run.scope)

mutual

/-- Runs an action. -/
def Action.perform (scope : Scope) : Action → Step
  | .push side bindings => .mk (.ok .done) none (scope.enter side bindings)
  | .pop side count =>
    match scope.leave side count with
    | .ok after => .mk (.ok .done) none after
    | .error e => .mk (.error (.pop e)) none scope
  | .lookup side name => .mk (.ok (.found side ((scope.stack side).lookup name))) none scope
  | .names side => .mk (.ok (.names (scope.stack side).names)) none scope
  | .run source depth =>
    let (answer, after) := runSource source depth scope
    .mk answer none after
  | .block side bindings actions breaksOff =>
    let (steps, reached) := performAll (scope.enter side bindings) actions
    match reached.leave side bindings.length with
    | .error e => .mk (.error (.pop e)) (some steps) reached
    | .ok after => .mk (if breaksOff then .error .brokenOff else .ok .done) (some steps) after
  | .unreadable r => .mk (.error (.rejected r)) none scope

/-- Runs actions one after the other; gives their steps and the scope reached. -/
def performAll (scope : Scope) : List Action → List Step × Scope
  | [] => ([], scope)
  | action :: rest =>
    let step := action.perform scope
    match step with
    | .mk _ _ after =>
      let (steps, reached) := performAll after rest
      (step :: steps, reached)

end

end Abacus.Script
