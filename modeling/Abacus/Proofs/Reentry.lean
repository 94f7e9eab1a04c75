/-
  Abacus/Proofs/Reentry.lean
  ==========================
  **A program that finishes never enters a function that is in progress.**  The language has
  no conditionals: which calls a body makes hangs on the names that are bound when it is
  entered, never on their values.  A function that is entered again while it is in progress
  finds the names of its first entry bound, so it comes to the same call again, and again,
  until the limit refuses one.  That more variables get an evaluation no less far is the main
  result of `Extension`.

  `denoteFresh` is the meaning of an expression under a rule that looks at no depth: no
  function may be called while it is in progress.  Calls then nest no deeper than there are
  functions.  `denote` agrees with it under every limit that allows as many nested calls as
  there are functions, so all these limits agree with one another.

  This needs the functions to be the same throughout, which is so in what the reader builds:
  a function is declared at the top of a program and never inside a body.
-/
import Abacus.Proofs.Completeness
import Abacus.Proofs.Extension
import Abacus.Proofs.Scan
import Mathlib.Data.Finset.Card

namespace Abacus

/-! ### The functions of a tree -/

namespace Expr

mutual

/-- How many functions a tree declares. -/
def functionCount : Expr → Nat
  | .num _ | .var _ => 0
  | .neg operand => operand.functionCount
  | .bin _ left right => left.functionCount + right.functionCount
  | .call _ args => functionCountAll args
  | .letIn _ value next => value.functionCount + next.functionCount
  | .fnIn _ _ body next => body.functionCount + next.functionCount + 1

def functionCountAll : List Expr → Nat
  | [] => 0
  | e :: rest => e.functionCount + functionCountAll rest

end

/-- A tree that declares functions at the top only, before everything else but variables. -/
inductive DeclaresAtTop : Expr → Prop where
  | letIn {name : String} {value next : Expr} (hvalue : value.functionCount = 0)
      (hnext : DeclaresAtTop next) : DeclaresAtTop (.letIn name value next)
  | fnIn {name : String} {params : List String} {body next : Expr}
      (hbody : body.functionCount = 0) (hnext : DeclaresAtTop next) :
      DeclaresAtTop (.fnIn name params body next)
  | plain {e : Expr} (h : e.functionCount = 0) : DeclaresAtTop e

theorem functionCountAll_eq_zero {es : List Expr} (h : ∀ e ∈ es, e.functionCount = 0) :
    functionCountAll es = 0 := by
  induction es with
  | nil => rfl
  | cons e es ih =>
    rw [functionCountAll, h e List.mem_cons_self, ih fun e' he' => h e' (List.mem_cons_of_mem e he')]

end Expr

namespace Parse

theorem functionCount_of_foldChain? {operator? : Kind → Option Operator} :
    ∀ {links : List Link} {left e : Expr}, left.functionCount = 0 →
      (∀ l ∈ links, l.tree.functionCount = 0) → foldChain? operator? left links = some e →
      e.functionCount = 0 := by
  intro links
  induction links with
  | nil =>
    intro left e hleft _ hfold
    cases hfold
    exact hleft
  | cons l links ih =>
    intro left e hleft hlinks hfold
    rw [foldChain?] at hfold
    split at hfold
    · apply ih ?_ (fun l' hl' => hlinks l' (List.mem_cons_of_mem l hl')) hfold
      rw [Expr.functionCount, hleft, hlinks l List.mem_cons_self]
    · cases hfold

theorem Derives.functionCount_eq_zero {s : Symbol} {tokens : List Token} {e : Expr}
    (h : Derives s tokens e) (hs : s ≠ .declaration) : e.functionCount = 0 := by
  induction h with
  | letIn | fnIn | plain => exact absurd rfl hs
  | addition _ _ hfold ihfirst ihlinks | multiply _ _ hfold ihfirst ihlinks =>
    exact functionCount_of_foldChain? (ihfirst (by decide)) (fun l hl => ihlinks l hl (by decide))
      hfold
  | negative _ _ ih | unsigned _ ih | bracketed _ _ _ ih | called _ ih => exact ih (by decide)
  | integer | var | emptyCall => rfl
  | @call _ _ _ _ links _ first _ _ _ _ _ _ _ ihfirst ihlinks =>
    have hargs : ∀ arg ∈ links.map Link.tree, arg.functionCount = 0 := by
      intro arg harg
      obtain ⟨l, hl, rfl⟩ := List.mem_map.mp harg
      exact ihlinks l hl (by decide)
    rw [Expr.functionCount, Expr.functionCountAll, ihfirst (by decide),
      Expr.functionCountAll_eq_zero hargs]

theorem Derives.declaresAtTop {s : Symbol} {tokens : List Token} {e : Expr}
    (h : Derives s tokens e) (hs : s = .declaration) : e.DeclaresAtTop := by
  induction h with
  | letIn _ _ _ hvalue _ _ _ ihnext =>
    exact .letIn (hvalue.functionCount_eq_zero (by decide)) (ihnext rfl)
  | fnIn _ _ _ _ hbody _ _ _ ihnext =>
    exact .fnIn (hbody.functionCount_eq_zero (by decide)) (ihnext rfl)
  | plain h => exact .plain (h.functionCount_eq_zero (by decide))
  | addition | multiply | negative | unsigned | integer | var | bracketed | called | emptyCall
  | call => cases hs

/-- The reader builds trees with functions at the top only. -/
theorem declaresAtTop_of_parse {source : String} {e : Expr} (h : parse source = .ok e) :
    e.DeclaresAtTop := by
  unfold parse read at h
  cases htokens : Scan.tokenize source with
  | error rejection =>
    rw [htokens] at h
    cases h
  | ok tokens =>
    rw [htokens] at h
    exact (derives_of_readTokens (ended_of_tokenize htokens) h).declaresAtTop rfl

end Parse

namespace Eval

/-! ### Meanings without re-entry -/

mutual

/-- The meaning of an expression if only the functions `fresh` may be called, and none of
    them while it is in progress.  A call of another one counts as nested too deeply. -/
def denoteFresh (env : Env) (fresh : Finset String) (e : Expr) : Except EvalError Float :=
  match e with
  | .num x => .ok x
  | .var name =>
    match env.vars name with
    | some x => .ok x
    | none => .error (.unboundVariable name)
  | .neg operand => do
    let x ← denoteFresh env fresh operand
    return -x
  | .bin op left right => do
    let x ← denoteFresh env fresh left
    let y ← denoteFresh env fresh right
    return op.value x y
  | .call name args =>
    match env.funs name with
    | none => .error (.undefinedFunction name)
    | some f =>
      if f.arity ≠ args.length then .error (.arityMismatch name f.arity args.length)
      else do
        let values ← denoteFreshAll env fresh args
        if name ∈ fresh then
          denoteFresh (env.bindVars (f.params.zip values)) (fresh.erase name) f.body
        else .error (.depthExceeded (some name) fresh.card)
  | .letIn name rhs next => do
    let x ← denoteFresh env fresh rhs
    denoteFresh (env.bindVar name x) fresh next
  | .fnIn name params body next => denoteFresh (env.bindFun ⟨name, params, body⟩) fresh next
termination_by (fresh.card, sizeOf e)
decreasing_by
  all_goals try decreasing_tactic
  exact Prod.Lex.left _ _ (Finset.card_erase_lt_of_mem ‹name ∈ fresh›)

def denoteFreshAll (env : Env) (fresh : Finset String) (es : List Expr) :
    Except EvalError (List Float) :=
  match es with
  | [] => .ok []
  | e :: rest => do
    let x ← denoteFresh env fresh e
    let xs ← denoteFreshAll env fresh rest
    return x :: xs
termination_by (fresh.card, sizeOf es)

end

/-- The functions that are not fresh never come to an end: entered from further down, with
    whatever else is bound, they exceed the limit. -/
def Blocked (limit depth : Nat) (env : Env) (fresh : Finset String) : Prop :=
  ∀ name f, env.funs name = some f → name ∉ fresh → ∀ depth', depth < depth' → depth' ≤ limit →
    ∀ env', env.Extends env' → Exceeds (denote limit env' depth' f.body)

theorem Blocked.extend {limit depth : Nat} {env env' : Env} {fresh : Finset String}
    (h : Blocked limit depth env fresh) (henv : env.Extends env') :
    Blocked limit depth env' fresh := by
  intro name f hf hfresh depth' hless hle env'' henv'
  rw [henv.funs] at hf
  exact h name f hf hfresh depth' hless hle env'' (henv.trans henv')

/-- A function whose body exceeds the limit once it is blocked itself is blocked. -/
theorem Blocked.erase {limit depth : Nat} {env env' : Env} {fresh : Finset String} {name : String}
    {f : Definition} (h : Blocked limit depth env fresh) (hf : env.funs name = some f)
    (henv : env.Extends env')
    (hbody : ∀ depth', depth < depth' → depth' ≤ limit →
      Blocked limit depth' env' (fresh.erase name) → Exceeds (denote limit env' depth' f.body)) :
    ∀ depth', depth < depth' → Blocked limit depth' env' (fresh.erase name) := by
  intro depth'
  -- by what is left to the limit, since a blocked function is only asked about further down
  induction hleft : limit - depth' using Nat.strong_induction_on generalizing depth' with
  | _ left ih =>
    intro hless name' f' hf' hfresh depth'' hless' hle env'' henv'
    rw [henv.funs] at hf'
    by_cases hname : name' = name
    · subst hname
      obtain rfl : f = f' := Option.some.inj (hf.symm.trans hf')
      have hblocked := ih (limit - depth'') (by omega) depth'' rfl (by omega)
      have hexceeds := hbody depth'' (by omega) hle hblocked
      exact (denote_alike limit depth'' f.body henv').exceeds hexceeds
    · have hfresh' : name' ∉ fresh := fun hmem => hfresh (Finset.mem_erase.mpr ⟨hname, hmem⟩)
      exact h name' f' hf' hfresh' depth'' (by omega) hle env'' (henv.trans henv')

/-- How a meaning under a limit compares with one without re-entry.  They are the same, or
    the limit was too tight, or a function was entered again; then the first exceeds the limit
    as well if such functions are blocked. -/
inductive Mirrors {α : Type} (tight blocked : Prop) (limited free : Except EvalError α) : Prop where
  | same (h : limited = free)
  | refused (h : Exceeds limited) (htight : tight)
  | reentered (h : Exceeds free) (hlimited : blocked → Exceeds limited)

namespace Mirrors

variable {α β : Type} {tight blocked : Prop} {limited free : Except EvalError α}

theorem bind {next next' : α → Except EvalError β} (h : Mirrors tight blocked limited free)
    (hnext : ∀ x, Mirrors tight blocked (next x) (next' x)) :
    Mirrors tight blocked (limited >>= next) (free >>= next') := by
  rcases h with rfl | ⟨hlimited, htight⟩ | ⟨hfree, hlimited⟩
  · cases limited with
    | ok x => exact hnext x
    | error e => exact .same rfl
  · exact .refused (hlimited.bind next) htight
  · exact .reentered (hfree.bind next') fun hblocked => (hlimited hblocked).bind next

theorem imp {blocked' : Prop} (h : Mirrors tight blocked limited free)
    (hblocked : blocked' → blocked) : Mirrors tight blocked' limited free := by
  rcases h with rfl | ⟨hlimited, htight⟩ | ⟨hfree, hlimited⟩
  · exact .same rfl
  · exact .refused hlimited htight
  · exact .reentered hfree fun h => hlimited (hblocked h)

theorem exceeds (h : Mirrors tight blocked limited free) (hfree : Exceeds free)
    (hblocked : blocked) : Exceeds limited := by
  rcases h with rfl | ⟨hlimited, -⟩ | ⟨-, hlimited⟩
  · exact hfree
  · exact hlimited
  · exact hlimited hblocked

end Mirrors

/-- All functions have bodies that declare none. -/
def Env.HasPlainBodies (env : Env) : Prop :=
  ∀ name f, env.funs name = some f → f.body.functionCount = 0

/-- A meaning under a limit mirrors the one without re-entry, for an expression without
    declarations of functions. -/
def MirrorsFresh (limit depth : Nat) (e : Expr) : Prop :=
  ∀ (env : Env) (fresh : Finset String), e.functionCount = 0 → env.HasPlainBodies →
    Mirrors (limit < fresh.card + depth) (Blocked limit depth env fresh)
      (denote limit env depth e) (denoteFresh env fresh e)

theorem denoteAll_mirrors {limit depth : Nat} {env : Env} {es : List Expr}
    (h : ∀ e ∈ es, MirrorsFresh limit depth e) (fresh : Finset String)
    (hes : Expr.functionCountAll es = 0) (hbodies : env.HasPlainBodies) :
    Mirrors (limit < fresh.card + depth) (Blocked limit depth env fresh)
      (denoteAll limit env depth es) (denoteFreshAll env fresh es) := by
  induction es with
  | nil =>
    rw [denoteAll, denoteFreshAll]
    exact .same rfl
  | cons e rest ih =>
    rw [Expr.functionCountAll, Nat.add_eq_zero_iff] at hes
    rw [denoteAll, denoteFreshAll]
    apply (h e List.mem_cons_self env fresh hes.1 hbodies).bind
    intro x
    apply (ih (fun e' he' => h e' (List.mem_cons_of_mem e he')) hes.2).bind
    intro xs
    exact .same rfl

section Body

variable {limit depth : Nat} {env env' : Env} {fresh : Finset String} {name : String}
  {f : Definition}

/-- Entering a fresh function: its body is evaluated without it. -/
theorem mirrors_body_of_mem (hfresh : name ∈ fresh) (hf : env.funs name = some f)
    (henv : env.Extends env') (hbodies : env.HasPlainBodies)
    (ih : ∀ depth' body, depth < depth' → depth' ≤ limit → MirrorsFresh limit depth' body) :
    Mirrors (limit < fresh.card + depth) (Blocked limit depth env fresh)
      (if limit ≤ depth then .error (.depthExceeded (some name) limit)
        else denote limit env' (depth + 1) f.body)
      (denoteFresh env' (fresh.erase name) f.body) := by
  have hcard := Finset.card_erase_add_one hfresh
  by_cases hlimit : limit ≤ depth
  · rw [if_pos hlimit]
    exact .refused ⟨some name, limit, rfl⟩ (by omega)
  · rw [if_neg hlimit]
    have hbodies' : env'.HasPlainBodies := by
      intro name' f' hf'
      rw [henv.funs] at hf'
      exact hbodies name' f' hf'
    have hbody := fun depth' hless hle =>
      ih depth' f.body hless hle env' (fresh.erase name) (hbodies name f hf) hbodies'
    rcases hbody (depth + 1) (by omega) (by omega) with
      hsame | ⟨hlimited, htight⟩ | ⟨hfree, hlimited⟩
    · exact .same hsame
    · exact .refused hlimited (by omega)
    · refine .reentered hfree fun hblocked => hlimited ?_
      -- the body enters some function again, from whatever depth it is entered itself
      refine hblocked.erase hf henv ?_ (depth + 1) (by omega)
      intro depth' hless hle hblocked'
      exact (hbody depth' hless hle).exceeds hfree hblocked'

/-- Entering a function that is in progress. -/
theorem mirrors_body_of_notMem (hfresh : name ∉ fresh) (hf : env.funs name = some f)
    (henv : env.Extends env') :
    Mirrors (limit < fresh.card + depth) (Blocked limit depth env fresh)
      (if limit ≤ depth then .error (.depthExceeded (some name) limit)
        else denote limit env' (depth + 1) f.body)
      (.error (.depthExceeded (some name) fresh.card)) := by
  refine .reentered ⟨some name, fresh.card, rfl⟩ fun hblocked => ?_
  by_cases hlimit : limit ≤ depth
  · rw [if_pos hlimit]
    exact ⟨some name, limit, rfl⟩
  · rw [if_neg hlimit]
    exact hblocked name f hf hfresh (depth + 1) (by omega) (by omega) env' henv

end Body

theorem denote_mirrors (limit depth : Nat) (e : Expr) : MirrorsFresh limit depth e := by
  induction depth, e using meaning_induction limit with
  | num depth x =>
    intro env fresh _ _
    rw [denote, denoteFresh]
    exact .same rfl
  | var depth name =>
    intro env fresh _ _
    rw [denote, denoteFresh]
    exact .same rfl
  | neg depth operand ih =>
    intro env fresh he hbodies
    rw [denote, denoteFresh]
    apply (ih env fresh he hbodies).bind
    intro x
    exact .same rfl
  | bin depth op left right ihleft ihright =>
    intro env fresh he hbodies
    rw [Expr.functionCount, Nat.add_eq_zero_iff] at he
    rw [denote, denoteFresh]
    apply (ihleft env fresh he.1 hbodies).bind
    intro x
    apply (ihright env fresh he.2 hbodies).bind
    intro y
    exact .same rfl
  | call depth name args ihargs ihbody =>
    intro env fresh he hbodies
    rw [Expr.functionCount] at he
    rw [denote, denoteFresh]
    cases hf : env.funs name with
    | none => exact .same rfl
    | some f =>
      dsimp only
      split
      · exact .same rfl
      · apply (denoteAll_mirrors ihargs fresh he hbodies).bind
        intro values
        have henv : env.Extends (env.bindVars (f.params.zip values)) := .by_bindVars env _
        by_cases hfresh : name ∈ fresh
        · rw [if_pos hfresh]
          exact mirrors_body_of_mem hfresh hf henv hbodies ihbody
        · rw [if_neg hfresh]
          exact mirrors_body_of_notMem hfresh hf henv
  | letIn depth name rhs next ihrhs ihnext =>
    intro env fresh he hbodies
    rw [Expr.functionCount, Nat.add_eq_zero_iff] at he
    rw [denote, denoteFresh]
    apply (ihrhs env fresh he.1 hbodies).bind
    intro x
    have hnext := ihnext (env.bindVar name x) fresh he.2 hbodies
    exact hnext.imp fun hblocked => hblocked.extend (.by_bindVar env name x)
  | fnIn depth name params body next =>
    intro env fresh he
    cases he

/-! ### Limits that agree -/

/-- The same meaning, or two that both exceed a limit. -/
def Agree {α : Type} (meaning meaning' : Except EvalError α) : Prop :=
  meaning = meaning' ∨ Exceeds meaning ∧ Exceeds meaning'

namespace Agree

variable {α β : Type} {first second third : Except EvalError α}

theorem symm (h : Agree first second) : Agree second first := by
  rcases h with rfl | ⟨hfirst, hsecond⟩
  · exact Or.inl rfl
  · exact Or.inr ⟨hsecond, hfirst⟩

theorem trans (h : Agree first second) (h' : Agree second third) : Agree first third := by
  rcases h with rfl | ⟨hfirst, hsecond⟩
  · exact h'
  · rcases h' with rfl | ⟨-, hthird⟩
    · exact Or.inr ⟨hfirst, hsecond⟩
    · exact Or.inr ⟨hfirst, hthird⟩

theorem bind {next next' : α → Except EvalError β} (h : Agree first second)
    (hnext : ∀ x, Agree (next x) (next' x)) : Agree (first >>= next) (second >>= next') := by
  rcases h with rfl | ⟨hfirst, hsecond⟩
  · cases first with
    | ok x => exact hnext x
    | error e => exact Or.inl rfl
  · exact Or.inr ⟨hfirst.bind next, hsecond.bind next'⟩

theorem exceeds_iff (h : Agree first second) : Exceeds first ↔ Exceeds second := by
  rcases h with rfl | ⟨hfirst, hsecond⟩
  · exact Iff.rfl
  · exact iff_of_true hfirst hsecond

end Agree

/-- The functions of an environment are among the names given. -/
def Env.CallsOnly (env : Env) (names : Finset String) : Prop :=
  ∀ name f, env.funs name = some f → name ∈ names

theorem denote_agree_denoteFresh {limit depth : Nat} {env : Env} {names : Finset String} {e : Expr}
    (he : e.functionCount = 0) (hbodies : env.HasPlainBodies) (hnames : env.CallsOnly names)
    (hlimit : names.card + depth ≤ limit) :
    Agree (denote limit env depth e) (denoteFresh env names e) := by
  have hblocked : Blocked limit depth env names := by
    intro name f hf hfresh
    exact absurd (hnames name f hf) hfresh
  rcases denote_mirrors limit depth e env names he hbodies with
    hsame | ⟨-, htight⟩ | ⟨hfree, hlimited⟩
  · exact Or.inl hsame
  · omega
  · exact Or.inr ⟨hlimited hblocked, hfree⟩

section BindFun

variable {env : Env} {name : String} {params : List String} {body : Expr}

theorem Env.HasPlainBodies.bindFun (h : env.HasPlainBodies) (hbody : body.functionCount = 0) :
    (env.bindFun ⟨name, params, body⟩).HasPlainBodies := by
  intro name' f hf
  simp only [Env.bindFun] at hf
  by_cases hname : name' = name
  · rw [hname, Function.update_self] at hf
    cases hf
    exact hbody
  · rw [Function.update_of_ne hname] at hf
    exact h name' f hf

theorem Env.CallsOnly.bindFun {names : Finset String} (h : env.CallsOnly names) :
    (env.bindFun ⟨name, params, body⟩).CallsOnly (insert name names) := by
  intro name' f hf
  simp only [Env.bindFun] at hf
  by_cases hname : name' = name
  · exact Finset.mem_insert.mpr (Or.inl hname)
  · rw [Function.update_of_ne hname] at hf
    exact Finset.mem_insert.mpr (Or.inr (h name' f hf))

end BindFun

theorem denote_agree_of_plain {limit limit' depth : Nat} {env : Env} {names : Finset String}
    {e : Expr} (he : e.functionCount = 0) (hbodies : env.HasPlainBodies)
    (hnames : env.CallsOnly names) (hlimit : names.card + depth ≤ limit)
    (hlimit' : names.card + depth ≤ limit') :
    Agree (denote limit env depth e) (denote limit' env depth e) :=
  (denote_agree_denoteFresh he hbodies hnames hlimit).trans
    (denote_agree_denoteFresh he hbodies hnames hlimit').symm

/-- Limits that leave a nested call to every function, those already there and those that the
    tree declares, agree on the tree. -/
theorem denote_agree {e : Expr} (h : e.DeclaresAtTop) {limit limit' depth : Nat} :
    ∀ {env : Env} {names : Finset String}, env.HasPlainBodies → env.CallsOnly names →
      names.card + e.functionCount + depth ≤ limit →
      names.card + e.functionCount + depth ≤ limit' →
      Agree (denote limit env depth e) (denote limit' env depth e) := by
  induction h with
  | @letIn name value next hvalue _ ih =>
    intro env names hbodies hnames hlimit hlimit'
    rw [Expr.functionCount, hvalue, Nat.zero_add] at hlimit hlimit'
    rw [denote, denote]
    apply (denote_agree_of_plain hvalue hbodies hnames (by omega) (by omega)).bind
    intro x
    exact ih hbodies hnames hlimit hlimit'
  | @fnIn name params body next hbody _ ih =>
    intro env names hbodies hnames hlimit hlimit'
    rw [Expr.functionCount, hbody] at hlimit hlimit'
    rw [denote, denote]
    have hcard := Finset.card_insert_le name names
    exact ih (hbodies.bindFun hbody) hnames.bindFun (by omega) (by omega)
  | plain h =>
    intro env names hbodies hnames hlimit hlimit'
    exact denote_agree_of_plain h hbodies hnames (by omega) (by omega)

/-! ### Programs -/

section Programs

variable {e : Expr} {limit limit' : Nat}

theorem denote_initial_agree (h : e.DeclaresAtTop) (hlimit : e.functionCount ≤ limit)
    (hlimit' : e.functionCount ≤ limit') :
    Agree (denote limit State.initial.scope.env State.initial.depth e)
      (denote limit' State.initial.scope.env State.initial.depth e) := by
  have hbodies : State.initial.scope.env.HasPlainBodies := by
    intro name f hf
    cases hf
  have hnames : State.initial.scope.env.CallsOnly ∅ := by
    intro name f hf
    cases hf
  apply denote_agree h hbodies hnames
  · simpa [State.initial] using hlimit
  · simpa [State.initial] using hlimit'

/-- With the room it needs, an evaluation is refused a call exactly if its meaning is. -/
theorem hitCeiling_iff_exceeds {room : Nat} {within : Option String} {st : State}
    (hroom : ¬ RanOut (interpret limit room within e st).1) :
    HitCeiling (interpret limit room within e st).1 ↔
      Exceeds (denote limit st.scope.env st.depth e) := by
  rw [(interpret_matches limit room within e st).result.resolve_left hroom]
  exact hitCeiling_answer_iff

theorem not_ranOut_of_hitCeiling {α : Type} {result : Except Stop α} (h : HitCeiling result) :
    ¬ RanOut result := by
  obtain ⟨function, l, rfl⟩ := h
  exact not_ranOut_error _

/-- A program that some limit did not cut short runs the same under all limits. -/
theorem interpret_initial_eq (h : e.DeclaresAtTop) (hlimit : e.functionCount ≤ limit)
    (hlimit' : e.functionCount ≤ limit') {room : Nat}
    (hdone : ¬ CutShort (interpret limit room none e .initial).1) :
    interpret limit' room none e .initial = interpret limit room none e .initial := by
  have hceiling : ¬ HitCeiling (interpret limit room none e .initial).1 :=
    fun hstop => hdone (Or.inl hstop)
  rcases Nat.le_total limit limit' with hle | hle
  · exact (interpret_follows hle room none e .initial).resolve_left hceiling
  · rcases interpret_follows hle room none e .initial with hstop | heq
    · -- a refusal under the lower limit is one of the meaning, and the meanings agree
      exfalso
      rw [hitCeiling_iff_exceeds (not_ranOut_of_hitCeiling hstop)] at hstop
      rw [hitCeiling_iff_exceeds fun hout => hdone (Or.inr hout)] at hceiling
      exact hceiling ((denote_initial_agree h hlimit hlimit').exceeds_iff.mpr hstop)
    · exact heq.symm

theorem depth_le_functionCount (h : e.DeclaresAtTop) (hlimit : e.functionCount ≤ limit) {room : Nat}
    (hdone : ¬ CutShort (interpret limit room none e .initial).1) :
    ∀ call ∈ (interpret limit room none e .initial).2.calls, call.depth ≤ e.functionCount := by
  intro call hcall
  -- the run is the one under the lowest limit, which it does not pass
  rw [← interpret_initial_eq h hlimit (Nat.le_refl _) hdone] at hcall
  exact depth_le_limit e.functionCount room e call hcall

theorem hitCeiling_initial_iff (h : e.DeclaresAtTop) (hlimit : e.functionCount ≤ limit)
    (hlimit' : e.functionCount ≤ limit') :
    WithEnough fun room => HitCeiling (interpret limit room none e .initial).1 ↔
      HitCeiling (interpret limit' room none e .initial).1 := by
  obtain ⟨enough, hfits⟩ := (fits_withEnough 0 limit State.initial.scope.env 0 e).and
    (fits_withEnough 0 limit' State.initial.scope.env 0 e)
  refine ⟨enough, ?_⟩
  intro room hroom
  obtain ⟨hfits, hfits'⟩ := hfits room hroom
  rw [hitCeiling_iff_exceeds (hfits none .initial rfl rfl),
    hitCeiling_iff_exceeds (hfits' none .initial rfl rfl)]
  exact (denote_initial_agree h hlimit hlimit').exceeds_iff

theorem evaluate_initial_eq (h : e.DeclaresAtTop) (hlimit : e.functionCount ≤ limit)
    (hlimit' : e.functionCount ≤ limit') (hdone : ¬ (evaluate limit e).Exceeded) :
    evaluate limit' e = evaluate limit e := by
  have hdone' := hdone
  rw [evaluate_exceeded_iff] at hdone'
  exact evaluate_eq_of_follows hdone (interpret_initial_eq h hlimit hlimit' hdone')

end Programs

/-- **The limit never rejects a program that would have finished.**  Limits that are no less
    than the number of functions that a source declares reject the same programs and agree on
    all others, and the calls of a program that is not rejected nest no deeper than it has
    functions.  The same holds with any other room for nested expressions; with enough of it,
    the limit refuses a call under both or under neither. -/
theorem evaluate_eq_of_functionCount_le {source : String} {e : Expr}
    (hparse : Parse.parse source = .ok e) {limit limit' : Nat}
    (hlimit : e.functionCount ≤ limit) (hlimit' : e.functionCount ≤ limit') :
    ((evaluate limit e).Exceeded ↔ (evaluate limit' e).Exceeded) ∧
    (¬ (evaluate limit e).Exceeded → evaluate limit' e = evaluate limit e ∧
      ∀ call ∈ (evaluate limit e).calls, call.depth ≤ e.functionCount) ∧
    (∀ room, ¬ CutShort (interpret limit room none e .initial).1 →
      interpret limit' room none e .initial = interpret limit room none e .initial ∧
      ∀ call ∈ (interpret limit room none e .initial).2.calls, call.depth ≤ e.functionCount) ∧
    ∃ enough, ∀ room, enough ≤ room →
      (HitCeiling (interpret limit room none e .initial).1 ↔
        HitCeiling (interpret limit' room none e .initial).1) := by
  have htop := Parse.declaresAtTop_of_parse hparse
  refine ⟨?_, ?_, ?_, hitCeiling_initial_iff htop hlimit hlimit'⟩
  · rw [← not_iff_not]
    constructor
    · intro hdone
      rwa [evaluate_initial_eq htop hlimit hlimit' hdone]
    · intro hdone
      rwa [evaluate_initial_eq htop hlimit' hlimit hdone]
  · intro hdone
    refine ⟨evaluate_initial_eq htop hlimit hlimit' hdone, ?_⟩
    intro call hcall
    rw [evaluate_exceeded_iff] at hdone
    rw [evaluate_eq] at hcall
    exact depth_le_functionCount htop hlimit hdone call (List.mem_reverse.mp hcall)
  · intro room hdone
    constructor
    · exact interpret_initial_eq htop hlimit hlimit' hdone
    · exact depth_le_functionCount htop hlimit hdone

/-- The tokens of `fn f x = -x; fn g y = f(y); g(1)`. -/
def nestedCallsTokens : List Token :=
  [⟨.fnWord, "fn", 0⟩, ⟨.ident, "f", 3⟩, ⟨.ident, "x", 5⟩, ⟨.equals, "=", 7⟩, ⟨.minus, "-", 9⟩,
    ⟨.ident, "x", 10⟩, ⟨.semicolon, ";", 11⟩, ⟨.fnWord, "fn", 13⟩, ⟨.ident, "g", 16⟩,
    ⟨.ident, "y", 18⟩, ⟨.equals, "=", 20⟩, ⟨.ident, "f", 22⟩, ⟨.lparen, "(", 23⟩,
    ⟨.ident, "y", 24⟩, ⟨.rparen, ")", 25⟩, ⟨.semicolon, ";", 26⟩, ⟨.ident, "g", 28⟩,
    ⟨.lparen, "(", 29⟩, ⟨.int, "1", 30⟩, ⟨.rparen, ")", 31⟩, ⟨.eof, "", 32⟩]

theorem nestedCalls_eq_of_functionCount_le :
    Parse.parse "fn f x = -x; fn g y = f(y); g(1)" = .ok (nestedCalls (Binary64.ofNat 1)) ∧
      (nestedCalls (Binary64.ofNat 1)).functionCount = 2 ∧
      ¬ (evaluate 2 (nestedCalls (Binary64.ofNat 1))).Exceeded ∧
      evaluate 9 (nestedCalls (Binary64.ofNat 1)) = evaluate 2 (nestedCalls (Binary64.ofNat 1)) ∧
      ∀ call ∈ (evaluate 2 (nestedCalls (Binary64.ofNat 1))).calls, call.depth ≤ 2 := by
  have htokens : Scan.tokenize "fn f x = -x; fn g y = f(y); g(1)" = .ok nestedCallsTokens := by cbv
  have hparse : Parse.parse "fn f x = -x; fn g y = f(y); g(1)" =
      .ok (nestedCalls (Binary64.ofNat 1)) := by
    simp only [Parse.parse, Parse.read, htokens]
    rfl
  have hcount : (nestedCalls (Binary64.ofNat 1)).functionCount = 2 := rfl
  have hdone := not_exceeded_nestedCalls (Binary64.ofNat 1)
  have hlimit : (nestedCalls (Binary64.ofNat 1)).functionCount ≤ 2 := hcount.le
  have hlimit' : (nestedCalls (Binary64.ofNat 1)).functionCount ≤ 9 := by omega
  obtain ⟨hsame, hdepth⟩ := (evaluate_eq_of_functionCount_le hparse hlimit hlimit').2.1 hdone
  exact ⟨hparse, hcount, hdone, hsame, hdepth⟩

end Eval
end Abacus
