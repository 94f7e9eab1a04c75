/-
  Abacus/Proofs/Walk.lean
  =======================
  **What holds of every rule because it holds of every step.**  A property of outcomes that a rule
  has when its steps have it is proved once for each kind of step: giving a value, refusing the
  current token, using up a token, going on after another rule, and reading what stands between
  brackets.  `Stepwise` lists these laws.  The rules of the grammar are gone through here, once for
  all such properties.

  Brackets have a law of their own, because what a problem says about a bracket depends on what
  was read since it was opened.
-/
import Abacus.Proofs.Soundness

namespace Abacus.Parse

/-! ### Laws -/

/-- What a rule may say it needs. -/
def phrases : List String :=
  ["variable name after `let`", "function name after `fn`", "parameter name", "`=`",
    "parameter name or `=`", "`;`"]

/-- The problems that a rule raises at the current token, but for those with an open bracket. -/
inductive Raised : Problem → Prop where
  | expected {what : String} (h : what ∈ phrases) (tok : Token) : Raised (.expected what tok)
  | reserved (tok : Token) : Raised (.reserved tok)
  | noExpression (tok : Token) : Raised (.noExpression tok)
  | leftover (tok : Token) : Raised (.leftover tok)
  | tooDeep (tok : Token) : Raised (.tooDeep tok)

def isBracket (tok : Token) : Bool :=
  tok.kind = .lparen ∨ tok.kind = .rparen

/-- A property of what a rule makes of the tokens ahead that every kind of step keeps. -/
structure Stepwise (P : (α : Type) → List Token → Except Stop (α × List Token) → Prop) :
    Prop where
  pure {α : Type} {ahead : List Token} {value : α} (hahead : Ended ahead) :
    P α ahead (.ok (value, ahead))
  fault {α : Type} {ahead : List Token} (f : Fault) : P α ahead (.error (.fault f))
  refuse {α : Type} {ahead : List Token} {p : Problem} (hp : Raised p) :
    P α ahead (.error (.problem p ahead))
  cons {α : Type} {tok : Token} {rest : List Token} {x : Except Stop (α × List Token)}
    (htok : isBracket tok = false) (hx : P α rest x) : P α (tok :: rest) x
  bind {α β : Type} {ahead : List Token} {x : Except Stop (α × List Token)}
    {f : α × List Token → Except Stop (β × List Token)} (hx : P α ahead x)
    (hf : ∀ value rest, Ended rest → P β rest (f (value, rest))) : P β ahead (x >>= f)
  bracket {α β : Type} {opening : Token} {rest : List Token} {x : Except Stop (α × List Token)}
    (hopening : opening.kind = .lparen) (hx : P α rest x) (build : α → β) :
    P β (opening :: rest) (do
      let (value, ahead) ← x
      let (_, ahead) ← expectClose opening ahead
      return (build value, ahead))

variable {P : (α : Type) → List Token → Except Stop (α × List Token) → Prop}

/-- A rule with a property on all tokens up to the end. -/
def Always (P : (α : Type) → List Token → Except Stop (α × List Token) → Prop) {α : Type}
    (rule : Rule α) : Prop :=
  ∀ ahead, Ended ahead → P α ahead (rule ahead)

namespace Stepwise

theorem map {α β : Type} {ahead : List Token} {x : Except Stop (α × List Token)}
    (hP : Stepwise P) (hx : P α ahead x) (build : α → β) :
    P β ahead (do let (value, rest) ← x; return (build value, rest)) :=
  hP.bind hx fun _ _ hrest => hP.pure hrest

theorem expect (hP : Stepwise P) {kind : Kind}
    (hkind : kind ≠ .lparen ∧ kind ≠ .rparen ∧ kind ≠ .eof) {what : String}
    (hwhat : what ∈ phrases) : Always P (expect kind what) := by
  intro ahead hahead
  obtain ⟨tok, rest, rfl⟩ := hahead.exists_cons
  by_cases htok : tok.kind = kind
  · have hrest := hahead.tail (by simp [htok, hkind])
    rw [expect_cons htok hrest.ne_nil]
    exact hP.cons (by simp [isBracket, htok, hkind]) (hP.pure hrest)
  · simp only [Parse.expect, current, if_neg htok]
    exact hP.refuse (.expected hwhat tok)

theorem expectName (hP : Stepwise P) {what : String} (hwhat : what ∈ phrases) :
    Always P (expectName what) := by
  intro ahead hahead
  have hname : P Token ahead (Parse.expect .ident what ahead) :=
    hP.expect (by decide) hwhat ahead hahead
  obtain ⟨tok, rest, rfl⟩ := hahead.exists_cons
  simp only [Parse.expectName, current]
  split
  · exact hP.refuse (.reserved tok)
  · exact hname

/-! ### Expressions -/

section Expressions

variable {inner : Rule Expr}

theorem arguments (hP : Stepwise P) (hinner : Always P inner) (rounds : Nat) :
    Always P (arguments inner rounds) := by
  induction rounds with
  | zero => exact fun _ _ => hP.fault .stalled
  | succ rounds ih =>
    intro ahead hahead
    obtain ⟨tok, rest, rfl⟩ := hahead.exists_cons
    simp only [Parse.arguments, enter_bind, liftM_eq, current, ok_bind]
    split
    · exact hP.pure hahead
    refine hP.bind (hinner _ hahead) fun arg rest' hrest' => ?_
    obtain ⟨tok', rest', rfl⟩ := hrest'.exists_cons
    simp only [ok_bind]
    split
    case isTrue hcomma =>
      have htail := hrest'.tail (by simp [hcomma])
      simp only [advance_cons htail.ne_nil, ok_bind]
      exact hP.cons (by simp [isBracket, hcomma]) (hP.map (ih _ htail) _)
    case isFalse => exact hP.pure hrest'

theorem call (hP : Stepwise P) (hinner : Always P inner) {name opening : Token}
    {rest : List Token} (hahead : Ended (name :: opening :: rest)) (hname : name.kind = .ident)
    (hopening : opening.kind = .lparen) :
    P Expr (name :: opening :: rest) (call inner (name :: opening :: rest)) := by
  have hopened := hahead.tail (by simp [hname])
  have hrest := hopened.tail (by simp [hopening])
  simp only [Parse.call, enter_bind, liftM_eq, rounds_eq, expect_cons hname hopened.ne_nil,
    expect_cons hopening hrest.ne_nil, ok_bind]
  refine hP.cons (by simp [isBracket, hname]) ?_
  exact hP.bracket hopening (hP.arguments hinner _ rest hrest) _

theorem primary (hP : Stepwise P) (hinner : Always P inner) : Always P (primary inner) := by
  intro ahead hahead
  obtain ⟨tok, rest, rfl⟩ := hahead.exists_cons
  simp only [Parse.primary, enter_bind, liftM_eq, current, ok_bind]
  split
  case h_1 hopening =>
    have hrest := hahead.tail (by simp [hopening])
    simp only [bracketed, enter_bind, liftM_eq, advance_cons hrest.ne_nil, ok_bind]
    exact hP.bracket hopening (hinner rest hrest) id
  case h_2 hint =>
    have hrest := hahead.tail (by simp [hint])
    simp only [literal, enter_bind, liftM_eq, advance_cons hrest.ne_nil, ok_bind]
    split
    · exact hP.cons (by simp [isBracket, hint]) (hP.pure hrest)
    · exact hP.fault .noNumeral
  case h_3 hname =>
    have hrest := hahead.tail (by simp [hname])
    obtain ⟨tok', tail, rfl⟩ := hrest.exists_cons
    simp only [named, enter_bind, liftM_eq, peek_one, ok_bind]
    split
    case isTrue hopening => exact hP.call hinner hahead hname hopening
    case isFalse =>
      simp only [advance_cons hrest.ne_nil, ok_bind]
      exact hP.cons (by simp [isBracket, hname]) (hP.pure hrest)
  case h_4 | h_5 => exact hP.refuse (.reserved tok)
  case h_6 => exact hP.refuse (.noExpression tok)

theorem unary (hP : Stepwise P) (hinner : Always P inner) : Always P (unary inner) := by
  intro ahead hahead
  induction ahead with
  | nil => exact absurd rfl hahead.ne_nil
  | cons tok rest ih =>
    by_cases hminus : tok.kind = .minus
    · have hrest := hahead.tail (by simp [hminus])
      rw [unary_of_minus hminus hrest.ne_nil]
      exact hP.cons (by simp [isBracket, hminus]) (hP.map (ih hrest) _)
    · rw [unary_of_ne_minus hminus]
      exact hP.primary hinner _ hahead

theorem chain (hP : Stepwise P) {operator? : Kind → Option Operator} {operand : Rule Expr}
    (hoperand : Always P operand)
    (hoperator : ∀ tok : Token, (operator? tok.kind).isSome →
      tok.kind ≠ .eof ∧ isBracket tok = false) (rounds : Nat) :
    ∀ left, Always P (chain operator? operand rounds left) := by
  induction rounds with
  | zero => exact fun _ _ _ => hP.fault .stalled
  | succ rounds ih =>
    intro left ahead hahead
    obtain ⟨mark, rest, rfl⟩ := hahead.exists_cons
    simp only [Parse.chain, enter_bind, liftM_eq, current, ok_bind]
    split
    · exact hP.pure hahead
    · rename_i op hop
      obtain ⟨heof, hmark⟩ := hoperator mark (by rw [hop]; rfl)
      have hrest := hahead.tail heof
      simp only [advance_cons hrest.ne_nil, ok_bind]
      refine hP.cons hmark ?_
      exact hP.bind (hoperand rest hrest) fun right rest' hrest' => ih _ _ hrest'

theorem chained (hP : Stepwise P) {operator? : Kind → Option Operator} {operand : Rule Expr}
    (hoperand : Always P operand)
    (hoperator : ∀ tok : Token, (operator? tok.kind).isSome →
      tok.kind ≠ .eof ∧ isBracket tok = false) : Always P (chained operator? operand) := by
  intro ahead hahead
  simp only [Parse.chained, enter_bind, rounds_eq]
  refine hP.bind (hoperand ahead hahead) fun left rest hrest => ?_
  exact hP.chain hoperand hoperator _ left rest hrest

theorem multiply (hP : Stepwise P) (hinner : Always P inner) : Always P (multiply inner) := by
  refine hP.chained (hP.unary hinner) fun tok htok => ?_
  rcases kind_of_multiplicative? htok with hkind | hkind <;> simp [isBracket, hkind]

theorem addition (hP : Stepwise P) (hinner : Always P inner) : Always P (addition inner) := by
  refine hP.chained (hP.multiply hinner) fun tok htok => ?_
  rcases kind_of_additive? htok with hkind | hkind <;> simp [isBracket, hkind]

end Expressions

theorem noRoom (hP : Stepwise P) : Always P noRoom := by
  intro ahead hahead
  obtain ⟨tok, rest, rfl⟩ := hahead.exists_cons
  exact hP.refuse (.tooDeep tok)

theorem expression (hP : Stepwise P) (room : Nat) : Always P (expression room) := by
  induction room with
  | zero => exact hP.noRoom
  | succ room ih => exact hP.addition ih

/-! ### Declarations -/

theorem parameters (hP : Stepwise P) (rounds : Nat) : Always P (parameters rounds) := by
  induction rounds with
  | zero => exact fun _ _ => hP.fault .stalled
  | succ rounds ih =>
    intro ahead hahead
    have hname : P Token ahead (Parse.expectName "parameter name" ahead) :=
      hP.expectName (by simp [phrases]) ahead hahead
    obtain ⟨tok, rest, rfl⟩ := hahead.exists_cons
    simp only [Parse.parameters, enter_bind, liftM_eq, current, ok_bind]
    split
    · exact hP.bind hname fun name rest' hrest' => hP.map (ih _ hrest') _
    · exact hP.pure hahead

theorem binding (hP : Stepwise P) {inner next : Rule Expr} (hinner : Always P inner)
    (hnext : Always P next) {what : String} (hwhat : what ∈ phrases)
    (build : Expr → Expr → Expr) : Always P (binding inner next what build) := by
  intro ahead hahead
  simp only [Parse.binding, liftM_eq]
  refine hP.bind (hP.expect (by decide) hwhat ahead hahead) fun equals ahead hahead => ?_
  refine hP.bind (hinner ahead hahead) fun value ahead hahead => ?_
  refine hP.bind (hP.expect (by decide) (by simp [phrases]) ahead hahead)
    fun semicolon ahead hahead => ?_
  exact hP.map (hnext ahead hahead) _

theorem declaration (hP : Stepwise P) (room : Nat) : Always P (declaration room) := by
  induction room with
  | zero => exact hP.noRoom
  | succ room ih =>
    intro ahead hahead
    have hplain := hP.expression (room + 1) ahead hahead
    obtain ⟨tok, rest, rfl⟩ := hahead.exists_cons
    simp only [Parse.declaration, enter_bind, liftM_eq, current, ok_bind]
    split
    case h_1 hword =>
      have hrest := hahead.tail (by simp [hword])
      simp only [letDeclaration, enter_bind, liftM_eq, advance_cons hrest.ne_nil, ok_bind]
      refine hP.cons (by simp [isBracket, hword]) ?_
      refine hP.bind (hP.expectName (by simp [phrases]) rest hrest) fun name ahead hahead => ?_
      exact hP.binding (hP.expression room) ih (by simp [phrases]) _ ahead hahead
    case h_2 hword =>
      have hrest := hahead.tail (by simp [hword])
      simp only [fnDeclaration, enter_bind, liftM_eq, rounds_eq, advance_cons hrest.ne_nil, ok_bind]
      refine hP.cons (by simp [isBracket, hword]) ?_
      refine hP.bind (hP.expectName (by simp [phrases]) rest hrest) fun name ahead hahead => ?_
      refine hP.bind (hP.parameters _ ahead hahead) fun params ahead hahead => ?_
      exact hP.binding (hP.expression room) ih (by simp [phrases]) _ ahead hahead
    case h_3 => exact hplain

/-- **A property that every kind of step keeps holds of reading a program.** -/
theorem program (hP : Stepwise P) (room : Nat) : Always P (program room) := by
  intro ahead hahead
  refine hP.bind (hP.declaration room ahead hahead) fun e rest hrest => ?_
  obtain ⟨tok, tail, rfl⟩ := hrest.exists_cons
  simp only [current, ok_bind]
  split
  · exact hP.pure hrest
  · exact hP.refuse (.leftover tok)

end Stepwise

end Abacus.Parse
