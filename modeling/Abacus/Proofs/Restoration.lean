/-
  Abacus/Proofs/Restoration.lean
  ==============================
  **Evaluation gives back what it was started with.**  Whatever the tree and however its
  evaluation ends, both stacks hold the entries they held before, in the same order, and as
  many calls are in progress.  Every block finds its own bindings on top of its stack when it
  is left, so taking them off is never refused.

  Leaving a block may take more room than entering it did.  Where that room is missing the
  block stays open, and the blocks around it, which take off entries by their number, take off
  the wrong ones.  Even so none of them is refused, and what was there at the start is never
  taken off.  All of this is in `Matches`; here it is put together with what leaving a block
  needs and with what a whole program starts from.
-/
import Abacus.Program
import Abacus.Proofs.Refinement

namespace Abacus

theorem Scope.eq_empty_of_isEmpty {s : Scope} (h : s.isEmpty = true) : s = .empty := by
  obtain ⟨⟨vars⟩, ⟨funs⟩⟩ := s
  simp only [isEmpty, Bool.and_eq_true, List.isEmpty_iff] at h
  obtain ⟨rfl, rfl⟩ := h
  rfl

namespace Eval

/-- What matches a meaning is no fault: it is cut short or ends as the expression means. -/
theorem Matches.ne_fault {α : Type} {upkeep : Nat} {meaning : Except EvalError α} {st : State}
    {outcome : Outcome α} (h : Matches upkeep meaning st outcome) (fault : Fault) :
    outcome.1 ≠ .error (.fault fault) := by
  intro hfault
  rcases h.result with ⟨name, hout⟩ | hanswer
  · rw [hfault] at hout
    cases hout
  · rw [hfault] at hanswer
    cases meaning with
    | ok x => cases hanswer
    | error err => cases hanswer

theorem interpret_ne_fault (limit room : Nat) (within : Option String) (e : Expr) (st : State)
    (fault : Fault) : (interpret limit room within e st).1 ≠ .error (.fault fault) :=
  (interpret_matches limit room within e st).ne_fault fault

/-- A block around any expression is left with its own bindings still on top. -/
theorem leave_interpret (limit room : Nat) (within : Option String) (e : Expr) (st : State)
    (side : Side) (bindings : List (String × side.Value)) :
    (interpret limit room within e
      { st with scope := st.scope.enter side bindings }).2.scope.leave side bindings.length =
      .ok st.scope := by
  rw [(interpret_matches limit room within e _).scope]
  exact st.scope.leave_enter side bindings

/-- What a program starts from. -/
def State.initial : State :=
  ⟨.empty, 0, []⟩

theorem evaluate_eq (limit : Nat) (e : Expr) :
    evaluate limit e =
      ⟨(interpret limit maxRoom none e .initial).1.mapError (Stop.failure limit),
        (interpret limit maxRoom none e .initial).2.scope,
        (interpret limit maxRoom none e .initial).2.calls.reverse⟩ := by
  unfold evaluate
  rw [← State.initial]
  generalize interpret limit maxRoom none e .initial = outcome
  obtain ⟨result, st⟩ := outcome
  cases result <;> rfl

theorem evaluate_scope (limit : Nat) (e : Expr) : (evaluate limit e).scope = .empty := by
  rw [evaluate_eq]
  exact (interpret_matches limit maxRoom none e .initial).scope

theorem evaluateIn_scope {options : Program.Options} {scope : Scope} {e : Expr} {run : Run}
    {records : List Record} (h : Program.evaluateIn options scope e = (.ok run, records)) :
    run.scope = scope := by
  unfold Program.evaluateIn at h
  split at h
  · cases h
  · rename_i hempty
    -- only an empty scope is accepted, and it is the one to come back
    have hscope : scope = .empty := Scope.eq_empty_of_isEmpty (by simpa using hempty)
    split at h
    · cases h
    · rename_i limit _ _
      cases h
      rw [hscope]
      exact evaluate_scope limit e

/-- The evaluation had room for everything: it was not cut short, or there is no upkeep. -/
def Sustained {α : Type} (upkeep : Nat) (result : Except Stop α) : Prop :=
  RanOut result → upkeep = 0

/-- What becomes of the state that an evaluation is started in. -/
structure Restores {α : Type} (upkeep : Nat) (st : State) (outcome : Outcome α) : Prop where
  scope : Sustained upkeep outcome.1 → outcome.2.scope = st.scope
  depth : Sustained upkeep outcome.1 → outcome.2.depth = st.depth
  under : st.scope.Under outcome.2.scope
  sound : ∀ fault, outcome.1 ≠ .error (.fault fault)

theorem interpretWith_restores (upkeep limit room : Nat) (within : Option String) (e : Expr)
    (st : State) : Restores upkeep st (interpretWith upkeep limit room within e st) := by
  have hmatches := interpretWith_matches upkeep limit room within e st
  exact ⟨fun h => (hmatches.restored h).1, fun h => (hmatches.restored h).2, hmatches.under,
    hmatches.ne_fault⟩

/-- A block that an evaluation ends in is left, and nothing from before it goes with it. -/
theorem Restores.leave {α : Type} {upkeep : Nat} {st : State} {side : Side}
    {bindings : List (String × side.Value)} {outcome : Outcome α}
    (h : Restores upkeep { st with scope := st.scope.enter side bindings } outcome) :
    ∃ left, outcome.2.scope.leave side bindings.length = .ok left ∧ st.scope.Under left ∧
      (Sustained upkeep outcome.1 → left = st.scope) := by
  have hunder : (st.scope.enter side bindings).Under outcome.2.scope := h.under
  obtain ⟨left, hleave, hleft⟩ := hunder.leave
  refine ⟨left, hleave, hleft, ?_⟩
  intro hsustained
  rw [h.scope hsustained, Scope.leave_enter] at hleave
  exact (Except.ok.inj hleave).symm

/-- **Evaluation always restores its state.**  A value or an error leaves the stacks and the depth
    as they were, and with enough room every evaluation ends in one of the two.  Without upkeep,
    as programs are run, so does running out of room; with it, the stacks still hold what they
    held.  No block is refused its bindings back on the way, and a program leaves its empty scope
    empty. -/
theorem interpret_restores (upkeep limit : Nat) (e : Expr) (st : State) :
    (∀ room within, Restores upkeep st (interpretWith upkeep limit room within e st)) ∧
    (∃ enough, ∀ room, enough ≤ room → ∀ within,
      ¬ RanOut (interpretWith upkeep limit room within e st).1) ∧
    (∀ room within side bindings,
      let inside := interpretWith upkeep limit room within e
        { st with scope := st.scope.enter side bindings }
      ∃ left, inside.2.scope.leave side bindings.length = .ok left ∧ st.scope.Under left ∧
        (Sustained upkeep inside.1 → left = st.scope)) ∧
    (evaluate limit e).scope = .empty ∧
    ∀ options scope run records,
      Program.evaluateIn options scope e = (.ok run, records) → run.scope = scope := by
  refine ⟨?_, ?_, ?_, evaluate_scope limit e, ?_⟩
  · intro room within
    exact interpretWith_restores upkeep limit room within e st
  · obtain ⟨enough, hfits⟩ := fits_withEnough upkeep limit st.scope.env st.depth e
    exact ⟨enough, fun room hroom within => hfits room hroom within st rfl rfl⟩
  · intro room within side bindings
    exact (interpretWith_restores upkeep limit room within e _).leave
  · intro options scope run records h
    exact evaluateIn_scope h

/-- The upkeep matters: `let x = 1; x` with room to enter its block and none to leave it. -/
example :
    (interpretWith 2 1 2 none (.letIn "x" (.num 1) (.var "x")) .initial).2.scope.vars.entries =
      [("x", 1)] := rfl

end Eval
end Abacus
