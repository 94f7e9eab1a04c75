/-
  Abacus/Proofs/Safety.lean
  =========================
  **No source leads to a fault.**  Several steps of a run are right only because of what came
  before them.  Each names a fault for the case that it was not, and none of these cases can
  arise from a text:

    * where a digit starts a piece, a run and a numeral are found there;
    * the integers among the tokens are numerals;
    * there is a current token whenever a rule asks for one, and every repetition uses tokens up;
    * a block finds its own bindings on top of its stack when it is left;
    * parameters and arguments pair off where a call is entered;
    * no zero divisor is left to plain division.

  So a run ends with a value, with the problems of its source, or with one of four errors.
-/
import Abacus.Program
import Abacus.Proofs.Provenance
import Abacus.Proofs.Tiling

namespace Abacus

/-! ### Reading -/

namespace Scan

theorem isSome_of_isDigit {c : Char} (hc : c.isDigit = true) (rest : List Char) :
    (numberRun? (c :: rest)).isSome ∧ (numeral? (c :: rest)).isSome := by
  constructor
  · simp [numberRun?, hc]
  · by_cases hzero : c = '0'
    · simp [numeral?, hzero]
    · simp [numeral?, hzero, hc]

end Scan

namespace Parse

/-- A source is read as a tree, or something is wrong with it. -/
theorem parse_cases (source : String) :
    (∃ e, parse source = .ok e) ∨
      ∃ first others, parse source = .error (.problems (first :: others)) := by
  have htokenize := Scan.tokenize_eq_ite source
  split at htokenize
  · rcases parse_of_tokenize htokenize with ⟨e, hparse, -⟩ | ⟨p, rest, hparse, -⟩
    · exact Or.inl ⟨e, hparse⟩
    · exact Or.inr ⟨p, [], hparse⟩
  · rename_i hproblems
    obtain ⟨first, others, heq⟩ := List.exists_cons_of_ne_nil hproblems
    rw [heq] at htokenize
    right
    refine ⟨first, others, ?_⟩
    simp only [parse, read, htokenize]

end Parse

/-! ### Evaluation -/

namespace Eval

/-- Where a call is entered, every parameter gets a value and every value a parameter. -/
theorem pair?_of_evalAll {limit room : Nat} {within : Option String} {f : Definition}
    {args : List Expr} {st st' : State} {values : List Float} (harity : f.arity = args.length)
    (h : evalAll (interpret limit room within) args st = (.ok values, st')) :
    f.params.length = values.length ∧ pair? f.params values = some (f.params.zip values) := by
  have hmatches := Matches.evalAll (interpret_matches limit room within) args st
  rw [h] at hmatches
  have hlength : f.params.length = values.length := by
    rw [length_of_denoteAll (hmatches.eq_ok rfl)]
    exact harity
  exact ⟨hlength, pair?_eq_zip hlength⟩

/-- The names of the errors that an evaluation ends in. -/
def errorKinds : List String :=
  ["UnboundVariable", "UndefinedFunction", "ArityMismatch", "RecursionLimitExceeded"]

theorem Blames.kind_mem {limit : Nat} {site : Site} {err : EvalError}
    (h : Blames limit site err) : err.kind ∈ errorKinds := by
  cases h <;> simp [EvalError.kind, errorKinds]

theorem evaluate_cases (limit : Nat) (e : Expr) :
    (∃ x, (evaluate limit e).result = .ok x) ∨
      ∃ err, (evaluate limit e).result = .error (.error err) ∧ err.kind ∈ errorKinds := by
  rcases hresult : (evaluate limit e).result with (err | fault) | x
  · right
    refine ⟨err, rfl, ?_⟩
    rcases evaluate_traced hresult with ⟨origin, -, hblames⟩ | ⟨within, rfl⟩
    · exact hblames.kind_mem
    · simp [EvalError.kind, errorKinds]
  · rw [evaluate_eq] at hresult
    rcases hstop : (interpret limit maxRoom none e .initial).1 with (err | within | fault') | x
    · rw [hstop] at hresult
      cases hresult
    · rw [hstop] at hresult
      cases hresult
    · exact absurd hstop (interpret_ne_fault limit maxRoom none e .initial fault')
    · rw [hstop] at hresult
      cases hresult
  · exact Or.inl ⟨x, rfl⟩

end Eval

/-! ### Runs -/

namespace Program

/-- What the steps of a run rely on, wherever they do. -/
structure Assumptions (source : String) : Prop where
  digits : ∀ c rest, c.isDigit = true →
    (Scan.numberRun? (c :: rest)).isSome ∧ (Scan.numeral? (c :: rest)).isSome
  numerals : ∀ tokens, Scan.tokenize source = .ok tokens →
    ∀ tok ∈ tokens, tok.kind = .int → (Parse.numeralValue? tok.text).isSome
  cursor : ∀ tokens, Scan.tokenize source = .ok tokens →
    ∀ room fault, Parse.program room tokens ≠ .error (.fault fault)
  blocks : ∀ limit room within e (st : Eval.State) side bindings,
    (Eval.interpret limit room within e
      { st with scope := st.scope.enter side bindings }).2.scope.leave side bindings.length =
      .ok st.scope
  pairs : ∀ limit room within (f : Definition) args st values st', f.arity = args.length →
    Eval.evalAll (Eval.interpret limit room within) args st = (.ok values, st') →
    f.params.length = values.length ∧ Eval.pair? f.params values = some (f.params.zip values)
  quotients : ∀ (op : Operator) x y, ∃ z, op.apply x y = .ok z
  evaluation : ∀ limit room within e st fault,
    (Eval.interpret limit room within e st).1 ≠ .error (.fault fault)

theorem assumptions (source : String) : Assumptions source where
  digits := fun _ rest hc => Scan.isSome_of_isDigit hc rest
  numerals := fun _ h => Parse.numeral_of_tokenize h
  cursor := fun _ h => Parse.program_ne_fault h
  blocks := Eval.leave_interpret
  pairs := fun _ _ _ _ _ _ _ _ => Eval.pair?_of_evalAll
  quotients := fun op x y => ⟨op.value x y, Operator.apply_eq op x y⟩
  evaluation := Eval.interpret_ne_fault

theorem run_of_parse_error {options : Options} {source : String} {r : Rejection}
    (h : Parse.parse source = .error r) : (run options source).1 = .rejected r := by
  unfold Parse.parse at h
  simp only [run, h]

theorem run_of_parse {options : Options} {source : String} {e : Expr} {limit : Int}
    (h : Parse.parse source = .ok e) (hdepth : options.depth = some limit) (hlimit : 1 ≤ limit) :
    (run options source).1 = .ofRun (Eval.evaluate limit.toNat e) := by
  have hpositive : ¬ limit < 1 := by omega
  unfold Parse.parse at h
  simp [run, h, evaluateIn, Scope.isEmpty, Scope.empty, Stack.empty, Settings.maxDepth, hdepth,
    hpositive]

/-- **No internal failure is reachable from text.**  Everything that the steps of a run rely on
    holds, and a source that is run with a positive limit on calls ends in a value, in one or
    more problems, or in an error of one of four kinds. -/
theorem run_ends_properly (source : String) (options : Options) (limit : Int)
    (hdepth : options.depth = some limit) (hlimit : 1 ≤ limit) :
    Assumptions source ∧
    ((∃ x, (run options source).1 = .value x) ∨
      (∃ first others, (run options source).1 = .rejected (.problems (first :: others))) ∨
      ∃ err, (run options source).1 = .failed (.error err) ∧ err.kind ∈ Eval.errorKinds) := by
  refine ⟨assumptions source, ?_⟩
  rcases Parse.parse_cases source with ⟨e, hparse⟩ | ⟨first, others, hparse⟩
  · rw [run_of_parse hparse hdepth hlimit]
    rcases Eval.evaluate_cases limit.toNat e with ⟨x, hx⟩ | ⟨err, herr, hkind⟩
    · left
      exact ⟨x, by simp only [Result.ofRun, hx]⟩
    · right; right
      exact ⟨err, by simp only [Result.ofRun, herr], hkind⟩
  · right; left
    exact ⟨first, others, run_of_parse_error hparse⟩

/-- The least limit there is, for a source that divides by zero inside a call. -/
def smallestRun : Options :=
  ⟨.empty, some 1, false⟩

theorem smallestRun_ends_properly :
    smallestRun.depth = some 1 ∧
    ((∃ x, (run smallestRun "fn f x = 1 / (x - x); f(2) + y").1 = .value x) ∨
      (∃ first others, (run smallestRun "fn f x = 1 / (x - x); f(2) + y").1 =
        .rejected (.problems (first :: others))) ∨
      ∃ err, (run smallestRun "fn f x = 1 / (x - x); f(2) + y").1 = .failed (.error err) ∧
        err.kind ∈ Eval.errorKinds) := by
  have hends := run_ends_properly "fn f x = 1 / (x - x); f(2) + y" smallestRun 1 rfl (by decide)
  exact ⟨rfl, hends.2⟩

end Program
end Abacus
