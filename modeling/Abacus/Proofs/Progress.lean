/-
  Abacus/Proofs/Progress.lean
  ===========================
  **Every rule ends, and one that gives a tree has moved on.**  Rules call each other before
  they have used up a token, loops go round as long as the current token lets them, and
  `advance` stays where it is on the end token.  So it takes an argument that nothing goes on
  for ever, and the rounds and the room that the rules are handed must not be that argument.

  The rules are run with a count of their steps: a step is the start of a rule or of a round, a
  look at a token, or a token taken.  In these runs every loop is given `spare` rounds beyond the
  tokens ahead.  Whatever room and however many spare rounds there are,

    * the answer is that of the plain rule, so no loop runs out of rounds or into spare ones;
    * no more than sixteen steps are taken for each token.

  The count is amortized.  Every token is worth sixteen steps to whoever uses it up, and
  `Paid spare credit left` says that a rule which starts with `credit` steps in hand takes no more
  than these and what its tokens are worth, and has `left` in hand when it gives a value.
-/
import Abacus.Proofs.Scan

namespace Abacus.Parse

/-! ### Counting -/

/-- An answer, and how many steps were taken to get it, with `spare` rounds for every loop beyond
    the tokens ahead. -/
structure Counted (spare : Nat) (α : Type) where
  steps : Nat
  answer : Except Stop α

namespace Counted

variable {spare : Nat} {α β : Type}

protected def bind (x : Counted spare α) (f : α → Counted spare β) : Counted spare β :=
  match x.answer with
  | .ok value => ⟨x.steps + (f value).steps, (f value).answer⟩
  | .error stop => ⟨x.steps, .error stop⟩

instance : Monad (Counted spare) where
  pure value := ⟨0, .ok value⟩
  bind := Counted.bind

instance : Steps (Counted spare) where
  monadLift answer := ⟨1, answer⟩
  enter := ⟨1, .ok ()⟩
  rounds ahead := ahead.length + spare

@[simp]
theorem steps_enter_bind (f : Unit → Counted spare α) :
    (Steps.enter >>= f).steps = 1 + (f ()).steps :=
  rfl

@[simp]
theorem steps_ok_bind (value : α) (f : α → Counted spare β) :
    (liftM (.ok value : Except Stop α) >>= f).steps = 1 + (f value).steps :=
  rfl

end Counted

/-- The rule of a name with a count of its steps. -/
def RuleName.counted (spare room : Nat) (name : RuleName) : RuleIn (Counted spare) Expr :=
  name.ruleIn (Counted spare) room

/-! ### Paying for steps -/

theorem Ended.not_length_le_zero {tokens : List Token} (h : Ended tokens) :
    ¬ tokens.length ≤ 0 :=
  Nat.not_le_of_gt (List.length_pos_of_ne_nil h.ne_nil)

/-- An answer that a rule can come to: more tokens up to the end, a problem, or the fault of an
    integer that is no numeral. -/
def Proper {α : Type} : Except Stop (α × List Token) → Prop
  | .ok (_, rest) => Ended rest
  | .error (.problem _ _) => True
  | .error (.fault f) => f = .noNumeral

/-- The steps still in hand with an answer: those `left`, and sixteen for each token ahead.  What
    has stopped needs none. -/
def inHand {α : Type} (left : Nat) : Except Stop (α × List Token) → Nat
  | .ok (_, rest) => left + 16 * rest.length
  | .error _ => 0

/-- A counted answer that is the plain one, at a price that can be paid with `credit` in hand
    and sixteen for each token ahead. -/
structure Paid {α : Type} (spare credit left : Nat) (ahead : List Token)
    (x : Counted spare (α × List Token)) (y : Except Stop (α × List Token)) : Prop where
  answer : x.answer = y
  proper : Proper y
  price : x.steps + inHand left y ≤ credit + 16 * ahead.length

section Paid

variable {spare : Nat} {α β : Type} {credit middle left : Nat} {ahead : List Token}

theorem Paid.mono {credit' left' : Nat} {x : Counted spare (α × List Token)}
    {y : Except Stop (α × List Token)} (h : Paid spare credit left ahead x y)
    (hcredit : credit ≤ credit') (hleft : left' + credit ≤ left + credit') :
    Paid spare credit' left' ahead x y := by
  refine ⟨h.answer, h.proper, ?_⟩
  have hprice := h.price
  cases y with
  | ok result =>
    simp only [inHand] at hprice ⊢
    omega
  | error stop =>
    simp only [inHand] at hprice ⊢
    omega

theorem Paid.pure {value : α} (hahead : Ended ahead) :
    Paid spare credit credit ahead (Pure.pure (value, ahead)) (.ok (value, ahead)) :=
  ⟨rfl, hahead, (Nat.zero_add _).le⟩

/-- A step that looks at a token or takes one costs one. -/
theorem Paid.lift {y : Except Stop (α × List Token)} (hproper : Proper y)
    (hprice : 1 + inHand left y ≤ credit + 16 * ahead.length) :
    Paid spare credit left ahead (liftM y) y :=
  ⟨rfl, hproper, hprice⟩

theorem Paid.refuse {p : Problem} {rest : List Token} (hahead : Ended ahead) :
    Paid spare credit left ahead
      (liftM (.error (.problem p rest) : Except Stop (α × List Token)))
      (.error (.problem p rest)) := by
  have hlength := List.length_pos_of_ne_nil hahead.ne_nil
  refine Paid.lift trivial ?_
  simp only [inHand]
  omega

theorem Paid.take {tok : Token} {rest : List Token} (hrest : Ended rest) :
    Paid spare credit (credit + 15) (tok :: rest)
      (liftM (.ok (tok, rest) : Except Stop _)) (.ok (tok, rest)) := by
  refine Paid.lift hrest ?_
  simp only [inHand, List.length_cons]
  omega

theorem Paid.enter {x : Unit → Counted spare (α × List Token)}
    {y : Unit → Except Stop (α × List Token)} (h : Paid spare credit left ahead (x ()) (y ())) :
    Paid spare (credit + 1) left ahead (Steps.enter >>= x) (Steps.enter >>= y) := by
  refine ⟨h.answer, h.proper, ?_⟩
  have hprice := h.price
  rw [enter_bind, Counted.steps_enter_bind]
  omega

theorem Paid.look {z : Except Stop Token} {tok : Token}
    {f : Token → Counted spare (α × List Token)} {g : Token → Except Stop (α × List Token)}
    (hz : z = .ok tok) (h : Paid spare credit left ahead (f tok) (g tok)) :
    Paid spare (credit + 1) left ahead (liftM z >>= f) (z >>= g) := by
  subst hz
  refine ⟨h.answer, h.proper, ?_⟩
  have hprice := h.price
  rw [ok_bind, Counted.steps_ok_bind]
  omega

/-- **Steps one after the other.**  What the first has left in hand is the credit of the second. -/
theorem Paid.bind {x : Counted spare (α × List Token)} {y : Except Stop (α × List Token)}
    {f : α × List Token → Counted spare (β × List Token)}
    {g : α × List Token → Except Stop (β × List Token)} (hx : Paid spare credit middle ahead x y)
    (hf : ∀ value rest, Ended rest → middle + 16 * rest.length ≤ credit + 16 * ahead.length →
      Paid spare middle left rest (f (value, rest)) (g (value, rest))) :
    Paid spare credit left ahead (x >>= f) (y >>= g) := by
  obtain ⟨rfl, hproper, hprice⟩ := hx
  obtain ⟨steps, answer⟩ := x
  match answer, hproper with
  | .error (.problem p rest), _ => exact ⟨rfl, trivial, hprice⟩
  | .error (.fault _), hfault => exact ⟨rfl, hfault, hprice⟩
  | .ok (value, rest), hrest =>
    simp only [inHand] at hprice
    have hnext := hf value rest hrest (by omega)
    have hsteps : ((⟨steps, .ok (value, rest)⟩ : Counted spare (α × List Token)) >>= f).steps =
        steps + (f (value, rest)).steps := rfl
    refine ⟨hnext.answer, hnext.proper, ?_⟩
    have hrestPrice := hnext.price
    rw [ok_bind, hsteps]
    omega

theorem Paid.advance {tok : Token} {rest : List Token}
    {f : Token × List Token → Counted spare (α × List Token)}
    {g : Token × List Token → Except Stop (α × List Token)} (hahead : Ended (tok :: rest))
    (htok : tok.kind ≠ .eof)
    (h : Ended rest → Paid spare (credit + 15) left rest (f (tok, rest)) (g (tok, rest))) :
    Paid spare credit left (tok :: rest) (liftM (Parse.advance (tok :: rest)) >>= f)
      (Parse.advance (tok :: rest) >>= g) := by
  have hrest := hahead.tail htok
  have hnext := h hrest
  rw [advance_cons hrest.ne_nil]
  refine ⟨hnext.answer, hnext.proper, ?_⟩
  have hprice := hnext.price
  rw [ok_bind, Counted.steps_ok_bind, List.length_cons]
  omega

end Paid

/-! ### Steps -/

section Steps

variable {spare credit : Nat} {ahead : List Token}

theorem expect_paid (kind : Kind) (what : String) (hkind : kind ≠ .eof) (hahead : Ended ahead) :
    Paid spare credit (credit + 15) ahead (liftM (expect kind what ahead))
      (expect kind what ahead) := by
  obtain ⟨tok, rest, rfl⟩ := hahead.exists_cons
  by_cases htok : tok.kind = kind
  · have hrest := hahead.tail (by rw [htok]; exact hkind)
    rw [expect_cons htok hrest.ne_nil]
    exact Paid.take hrest
  · simp only [expect, current, if_neg htok]
    exact Paid.refuse hahead

theorem expectName_paid (what : String) (hahead : Ended ahead) :
    Paid spare credit (credit + 15) ahead (liftM (expectName what ahead))
      (expectName what ahead) := by
  have hname : Paid spare credit (credit + 15) ahead _ _ :=
    expect_paid .ident what (by decide) hahead
  obtain ⟨tok, rest, rfl⟩ := hahead.exists_cons
  simp only [expectName, current]
  by_cases htok : tok.kind.isReserved = true
  · rw [if_pos htok]
    exact Paid.refuse hahead
  · rw [if_neg htok]
    exact hname

theorem expectClose_paid (opening : Token) (hahead : Ended ahead) :
    Paid spare credit (credit + 15) ahead (liftM (expectClose opening ahead))
      (expectClose opening ahead) := by
  obtain ⟨tok, rest, rfl⟩ := hahead.exists_cons
  simp only [expectClose, current]
  split
  · rename_i htok
    have hrest := hahead.tail (by rw [htok]; decide)
    rw [advance_cons hrest.ne_nil]
    exact Paid.take hrest
  · exact Paid.refuse hahead
  · exact Paid.refuse hahead

end Steps

/-! ### Expressions -/

/-- A rule that keeps pace on up to so many tokens: it may start with its cost in hand, and when
    it gives a tree it has the worth of a token in hand instead. -/
def Paced (spare bound cost : Nat) (counted : RuleIn (Counted spare) Expr) (rule : Rule Expr) :
    Prop :=
  ∀ ahead, Ended ahead → ahead.length ≤ bound → ∀ credit,
    Paid spare (credit + cost) (credit + 16) ahead (counted ahead) (rule ahead)

section Expressions

variable {bound spare : Nat} {counted : RuleIn (Counted spare) Expr} {inner : Rule Expr}

theorem arguments_paid (hinner : Paced spare bound 13 counted inner) :
    ∀ {rounds rounds' : Nat} {ahead : List Token}, Ended ahead → ahead.length ≤ bound →
      ahead.length ≤ rounds → ahead.length ≤ rounds' → ∀ credit,
      Paid spare (credit + 16) credit ahead (arguments counted rounds ahead)
        (arguments inner rounds' ahead) := by
  intro rounds
  induction rounds with
  | zero =>
    intro rounds' ahead hahead _ hrounds
    exact absurd hrounds hahead.not_length_le_zero
  | succ rounds ih =>
    intro rounds' ahead hahead hbound hrounds hrounds' credit
    obtain ⟨tok, rest, rfl⟩ := hahead.exists_cons
    obtain ⟨rounds', rfl⟩ := Nat.exists_eq_succ_of_ne_zero (Nat.ne_zero_of_lt hrounds')
    simp only [arguments]
    refine Paid.enter (Paid.look rfl ?_)
    by_cases htok : tok.kind = .rparen
    · rw [if_pos htok, if_pos htok]
      exact (Paid.pure hahead).mono (Nat.le_refl _) (by omega)
    · rw [if_neg htok, if_neg htok]
      refine Paid.bind (hinner _ hahead hbound (credit + 1)) fun arg rest hrest hlength => ?_
      obtain ⟨tok', rest, rfl⟩ := hrest.exists_cons
      refine Paid.look rfl ?_
      by_cases hcomma : tok'.kind = .comma
      · rw [if_pos hcomma, if_pos hcomma]
        simp only [List.length_cons] at hbound hrounds hrounds' hlength
        refine Paid.advance hrest (by rw [hcomma]; decide) fun hmore => ?_
        refine Paid.bind (ih hmore (by omega) (by omega) (by omega) (credit + 15))
          fun args rest hrest _ => ?_
        exact (Paid.pure hrest).mono (Nat.le_refl _) (by omega)
      · rw [if_neg hcomma, if_neg hcomma]
        exact (Paid.pure hrest).mono (Nat.le_refl _) (by omega)

theorem call_paid (hinner : Paced spare bound 13 counted inner) {ahead : List Token}
    (hahead : Ended ahead) (hbound : ahead.length ≤ bound + 1) (credit : Nat) :
    Paid spare (credit + 1) (credit + 16) ahead (call counted ahead) (call inner ahead) := by
  refine Paid.enter ?_
  refine Paid.bind (expect_paid .ident _ (by decide) hahead) fun name rest hrest hlength => ?_
  refine Paid.bind (expect_paid .lparen _ (by decide) hrest) fun opening rest' hrest' hlength' => ?_
  have hargs := arguments_paid hinner hrest' (by omega) (Nat.le_add_right _ spare) (Nat.le_refl _)
    (credit + 14)
  refine Paid.bind hargs fun args rest hrest _ => ?_
  refine Paid.bind (expectClose_paid opening hrest) fun _ rest hrest _ => ?_
  exact (Paid.pure hrest).mono (Nat.le_refl _) (by omega)

theorem bracketed_paid (hinner : Paced spare bound 13 counted inner) {opening : Token}
    {rest : List Token} (hahead : Ended (opening :: rest)) (hopening : opening.kind = .lparen)
    (hbound : rest.length ≤ bound) (credit : Nat) :
    Paid spare (credit + 1) (credit + 16) (opening :: rest) (bracketed counted (opening :: rest))
      (bracketed inner (opening :: rest)) := by
  refine Paid.enter (Paid.advance hahead (by rw [hopening]; decide) fun hrest => ?_)
  refine Paid.bind (hinner rest hrest hbound (credit + 2)) fun e rest hrest _ => ?_
  refine Paid.bind (expectClose_paid opening hrest) fun _ rest hrest _ => ?_
  exact (Paid.pure hrest).mono (Nat.le_refl _) (by omega)

theorem literal_paid {tok : Token} {rest : List Token} (hahead : Ended (tok :: rest))
    (htok : tok.kind = .int) (credit : Nat) :
    Paid spare (credit + 2) (credit + 16) (tok :: rest) (literal (tok :: rest))
      (literal (tok :: rest)) := by
  refine Paid.enter (Paid.advance hahead (by rw [htok]; decide) fun hrest => ?_)
  rcases hvalue : numeralValue? tok.text with _ | n
  · simp only [hvalue]
    refine Paid.lift rfl ?_
    simp only [inHand]
    omega
  · simp only [hvalue]
    exact (Paid.pure hrest).mono (Nat.le_refl _) (by omega)

theorem named_paid (hinner : Paced spare bound 13 counted inner) {name : Token} {rest : List Token}
    (hahead : Ended (name :: rest)) (hname : name.kind = .ident) (hbound : rest.length ≤ bound)
    (credit : Nat) :
    Paid spare (credit + 3) (credit + 16) (name :: rest) (named counted (name :: rest))
      (named inner (name :: rest)) := by
  have heof : name.kind ≠ .eof := by rw [hname]; decide
  obtain ⟨tok, tail, rfl⟩ := (hahead.tail heof).exists_cons
  refine Paid.enter (Paid.look (peek_one name tok tail) ?_)
  by_cases htok : tok.kind = .lparen
  · rw [if_pos htok, if_pos htok]
    exact call_paid hinner hahead (Nat.succ_le_succ hbound) credit
  · rw [if_neg htok, if_neg htok]
    refine Paid.advance hahead heof fun hrest => ?_
    exact (Paid.pure hrest).mono (Nat.le_refl _) (by omega)

theorem primary_paced (hinner : Paced spare bound 13 counted inner) :
    Paced spare (bound + 1) 5 (primary counted) (primary inner) := by
  intro ahead hahead hbound credit
  obtain ⟨tok, rest, rfl⟩ := hahead.exists_cons
  have hrest : rest.length ≤ bound := Nat.le_of_succ_le_succ hbound
  refine Paid.enter (Paid.look rfl ?_)
  cases htok : tok.kind with
  | lparen => exact (bracketed_paid hinner hahead htok hrest credit).mono (by omega) (by omega)
  | int => exact (literal_paid hahead htok credit).mono (by omega) (by omega)
  | ident => exact named_paid hinner hahead htok hrest credit
  | _ => exact Paid.refuse hahead

theorem negations_paid (hinner : Paced spare bound 13 counted inner) :
    ∀ {rounds rounds' : Nat} {ahead : List Token}, Ended ahead → ahead.length ≤ bound + 1 →
      ahead.length ≤ rounds → ahead.length ≤ rounds' → ∀ credit,
      Paid spare (credit + 7) (credit + 16) ahead (negations counted rounds ahead)
        (negations inner rounds' ahead) := by
  intro rounds
  induction rounds with
  | zero =>
    intro rounds' ahead hahead _ hrounds
    exact absurd hrounds hahead.not_length_le_zero
  | succ rounds ih =>
    intro rounds' ahead hahead hbound hrounds hrounds' credit
    have hprimary : Paid spare (credit + 5) (credit + 16) ahead (primary counted ahead) _ :=
      primary_paced hinner ahead hahead hbound credit
    obtain ⟨tok, rest, rfl⟩ := hahead.exists_cons
    obtain ⟨rounds', rfl⟩ := Nat.exists_eq_succ_of_ne_zero (Nat.ne_zero_of_lt hrounds')
    simp only [negations]
    refine Paid.enter (Paid.look rfl ?_)
    by_cases htok : tok.kind = .minus
    · rw [if_pos htok, if_pos htok]
      simp only [List.length_cons] at hbound hrounds hrounds'
      refine Paid.advance hahead (by rw [htok]; decide) fun hrest => ?_
      refine Paid.bind (ih hrest (by omega) (by omega) (by omega) (credit + 13))
        fun e rest hrest _ => ?_
      exact (Paid.pure hrest).mono (Nat.le_refl _) (by omega)
    · rw [if_neg htok, if_neg htok]
      exact hprimary

theorem unary_paced (hinner : Paced spare bound 13 counted inner) :
    Paced spare (bound + 1) 7 (unary counted) (unary inner) := by
  intro ahead hahead hbound credit
  exact negations_paid hinner hahead hbound (Nat.le_add_right _ spare) (Nat.le_refl _) credit

theorem chain_paid {operator? : Kind → Option Operator} {cost : Nat}
    {operand' : RuleIn (Counted spare) Expr} {operand : Rule Expr}
    (hoperand : Paced spare bound cost operand' operand) (hcost : cost ≤ 10)
    (heof : operator? .eof = none) :
    ∀ {rounds rounds' : Nat} {left : Expr} {ahead : List Token}, Ended ahead →
      ahead.length ≤ bound → ahead.length ≤ rounds → ahead.length ≤ rounds' → ∀ credit,
      Paid spare (credit + 2) credit ahead (chain operator? operand' rounds left ahead)
        (chain operator? operand rounds' left ahead) := by
  intro rounds
  induction rounds with
  | zero =>
    intro rounds' left ahead hahead _ hrounds
    exact absurd hrounds hahead.not_length_le_zero
  | succ rounds ih =>
    intro rounds' left ahead hahead hbound hrounds hrounds' credit
    obtain ⟨mark, rest, rfl⟩ := hahead.exists_cons
    obtain ⟨rounds', rfl⟩ := Nat.exists_eq_succ_of_ne_zero (Nat.ne_zero_of_lt hrounds')
    simp only [chain]
    refine Paid.enter (Paid.look rfl ?_)
    rcases hop : operator? mark.kind with _ | op
    · exact Paid.pure hahead
    · have hmark : mark.kind ≠ .eof := by
        intro hmark
        rw [hmark, heof] at hop
        cases hop
      simp only [List.length_cons] at hbound hrounds hrounds'
      refine Paid.advance hahead hmark fun hrest => ?_
      have hright : Paid spare (credit + 15) (credit + 2) rest (operand' rest) (operand rest) :=
        (hoperand rest hrest (by omega) credit).mono (by omega) (by omega)
      refine Paid.bind hright fun right rest' hrest' hlength => ?_
      exact ih hrest' (by omega) (by omega) (by omega) credit

theorem chained_paced {operator? : Kind → Option Operator} {cost : Nat}
    {operand' : RuleIn (Counted spare) Expr} {operand : Rule Expr}
    (hoperand : Paced spare bound cost operand' operand) (hcost : cost ≤ 10)
    (heof : operator? .eof = none) :
    Paced spare bound (cost + 3) (chained operator? operand') (chained operator? operand) := by
  intro ahead hahead hbound credit
  rw [show credit + (cost + 3) = credit + 2 + cost + 1 by omega]
  refine Paid.enter (Paid.bind (hoperand ahead hahead hbound (credit + 2)) ?_)
  intro left rest hrest hlength
  exact (chain_paid hoperand hcost heof hrest (by omega) (Nat.le_add_right _ spare)
    (Nat.le_refl _) (credit + 16)).mono (by omega) (by omega)

theorem multiply_paced (hinner : Paced spare bound 13 counted inner) :
    Paced spare (bound + 1) 10 (multiply counted) (multiply inner) :=
  chained_paced (unary_paced hinner) (by decide) rfl

theorem addition_paced (hinner : Paced spare bound 13 counted inner) :
    Paced spare (bound + 1) 13 (addition counted) (addition inner) :=
  chained_paced (multiply_paced hinner) (by decide) rfl

end Expressions

theorem noRoom_paced (spare bound : Nat) {cost : Nat} (hcost : 2 ≤ cost) :
    Paced spare bound cost noRoom noRoom := by
  intro ahead hahead _ credit
  obtain ⟨tok, rest, rfl⟩ := hahead.exists_cons
  have hrefused : Paid spare (credit + 2) (credit + 16) (tok :: rest) (noRoom (tok :: rest))
      (noRoom (tok :: rest)) := Paid.enter (Paid.look rfl (Paid.refuse hahead))
  exact hrefused.mono (by omega) (by omega)

theorem Paced.mono {bound bound' cost cost' : Nat} {counted : RuleIn (Counted spare) Expr}
    {rule : Rule Expr} (h : Paced spare bound' cost counted rule) (hbound : bound ≤ bound')
    (hcost : cost ≤ cost') : Paced spare bound cost' counted rule :=
  fun ahead hahead hlength credit =>
    (h ahead hahead (Nat.le_trans hlength hbound) credit).mono (by omega) (by omega)

/-- No tokens up to the end are none at all. -/
theorem Paced.zero {cost : Nat} {counted : RuleIn (Counted spare) Expr} {rule : Rule Expr} :
    Paced spare 0 cost counted rule :=
  fun _ hahead hlength => absurd hlength hahead.not_length_le_zero

theorem expression_paced (spare room : Nat) :
    ∀ bound, Paced spare bound 13 (expression room) (expression room) := by
  induction room with
  | zero => exact fun bound => noRoom_paced spare bound (by decide)
  | succ room ih =>
    exact fun bound => (addition_paced (ih bound)).mono (Nat.le_add_right _ 1) le_rfl

/-- With room for as many levels as there are tokens, room makes no difference: every level is
    opened by a token. -/
theorem expression_paced_of_le (spare : Nat) {bound : Nat} :
    ∀ {room room' : Nat}, bound ≤ room → bound ≤ room' →
      Paced spare bound 13 (expression room) (expression room') := by
  induction bound with
  | zero => exact fun _ _ => Paced.zero
  | succ bound ih =>
    intro room room' hroom hroom'
    obtain ⟨room, rfl⟩ := Nat.exists_eq_succ_of_ne_zero (Nat.ne_zero_of_lt hroom)
    obtain ⟨room', rfl⟩ := Nat.exists_eq_succ_of_ne_zero (Nat.ne_zero_of_lt hroom')
    exact addition_paced (ih (Nat.le_of_succ_le_succ hroom) (Nat.le_of_succ_le_succ hroom'))

/-! ### Declarations -/

theorem parameters_paid {spare : Nat} :
    ∀ {rounds rounds' : Nat} {ahead : List Token}, Ended ahead → ahead.length ≤ rounds →
      ahead.length ≤ rounds' → ∀ credit,
      Paid spare (credit + 2) credit ahead (parameters rounds ahead)
        (parameters rounds' ahead) := by
  intro rounds
  induction rounds with
  | zero =>
    intro rounds' ahead hahead hrounds
    exact absurd hrounds hahead.not_length_le_zero
  | succ rounds ih =>
    intro rounds' ahead hahead hrounds hrounds' credit
    have hname : Paid spare credit (credit + 15) ahead _ _ :=
      expectName_paid "parameter name" hahead
    obtain ⟨tok, rest, rfl⟩ := hahead.exists_cons
    obtain ⟨rounds', rfl⟩ := Nat.exists_eq_succ_of_ne_zero (Nat.ne_zero_of_lt hrounds')
    simp only [parameters]
    refine Paid.enter (Paid.look rfl ?_)
    by_cases htok : tok.kind = .ident ∨ tok.kind.isReserved = true
    · rw [if_pos htok, if_pos htok]
      simp only [List.length_cons] at hrounds hrounds'
      refine Paid.bind hname fun name rest hrest hlength => ?_
      simp only [List.length_cons] at hlength
      refine Paid.bind (ih hrest (by omega) (by omega) (credit + 13)) fun names rest hrest _ => ?_
      exact (Paid.pure hrest).mono (Nat.le_refl _) (by omega)
    · rw [if_neg htok, if_neg htok]
      exact Paid.pure hahead

section Declarations

variable {bound spare : Nat} {inner' next' : RuleIn (Counted spare) Expr} {inner next : Rule Expr}

theorem binding_paid (hinner : Paced spare bound 13 inner' inner)
    (hnext : Paced spare bound 15 next' next) (what : String) (build : Expr → Expr → Expr)
    {ahead : List Token} (hahead : Ended ahead) (hbound : ahead.length ≤ bound) (credit : Nat) :
    Paid spare credit credit ahead (binding inner' next' what build ahead)
      (binding inner next what build ahead) := by
  refine Paid.bind (expect_paid _ _ (by decide) hahead) fun _ rest hrest hequals => ?_
  refine Paid.bind (hinner rest hrest (by omega) (credit + 2)) fun value rest hrest hvalue => ?_
  refine Paid.bind (expect_paid _ _ (by decide) hrest) fun _ rest hrest hsemicolon => ?_
  refine Paid.bind (hnext rest hrest (by omega) (credit + 18)) fun after rest hrest _ => ?_
  exact (Paid.pure hrest).mono (Nat.le_refl _) (by omega)

theorem letDeclaration_paid (hinner : Paced spare bound 13 inner' inner)
    (hnext : Paced spare bound 15 next' next) {word : Token} {rest : List Token}
    (hahead : Ended (word :: rest)) (hword : word.kind = .letWord) (hbound : rest.length ≤ bound)
    (credit : Nat) :
    Paid spare (credit + 1) (credit + 16) (word :: rest)
      (letDeclaration inner' next' (word :: rest))
      (letDeclaration inner next (word :: rest)) := by
  refine Paid.enter (Paid.advance hahead (by rw [hword]; decide) fun hrest => ?_)
  refine Paid.bind (expectName_paid _ hrest) fun name rest hrest hname => ?_
  exact (binding_paid hinner hnext _ _ hrest (by omega) _).mono (Nat.le_refl _) (by omega)

theorem fnDeclaration_paid (hinner : Paced spare bound 13 inner' inner)
    (hnext : Paced spare bound 15 next' next) {word : Token} {rest : List Token}
    (hahead : Ended (word :: rest)) (hword : word.kind = .fnWord) (hbound : rest.length ≤ bound)
    (credit : Nat) :
    Paid spare (credit + 1) (credit + 16) (word :: rest) (fnDeclaration inner' next' (word :: rest))
      (fnDeclaration inner next (word :: rest)) := by
  refine Paid.enter (Paid.advance hahead (by rw [hword]; decide) fun hrest => ?_)
  refine Paid.bind (expectName_paid _ hrest) fun name rest hrest hname => ?_
  refine Paid.bind (parameters_paid hrest (Nat.le_add_right _ spare) (Nat.le_refl _) (credit + 28))
    fun params rest hrest hparams => ?_
  exact (binding_paid hinner hnext _ _ hrest (by omega) _).mono (Nat.le_refl _) (by omega)

theorem declaration_succ_paced {room room' : Nat}
    (hinner : Paced spare bound 13 (expression room) (expression room'))
    (hnext : Paced spare bound 15 (declaration room) (declaration room')) :
    Paced spare (bound + 1) 15 (declaration (room + 1)) (declaration (room' + 1)) := by
  intro ahead hahead hbound credit
  have hplain : Paid spare (credit + 13) (credit + 16) ahead
      (expression (room + 1) ahead) (expression (room' + 1) ahead) :=
    addition_paced hinner ahead hahead hbound credit
  obtain ⟨tok, rest, rfl⟩ := hahead.exists_cons
  have hrest : rest.length ≤ bound := Nat.le_of_succ_le_succ hbound
  refine Paid.enter (Paid.look rfl ?_)
  cases htok : tok.kind with
  | letWord =>
    exact (letDeclaration_paid hinner hnext hahead htok hrest credit).mono (by omega) (by omega)
  | fnWord =>
    exact (fnDeclaration_paid hinner hnext hahead htok hrest credit).mono (by omega) (by omega)
  | _ => exact hplain

end Declarations

theorem declaration_paced (spare room : Nat) :
    ∀ bound, Paced spare bound 15 (declaration room) (declaration room) := by
  induction room with
  | zero => exact fun bound => noRoom_paced spare bound (by decide)
  | succ room ih =>
    intro bound
    exact (declaration_succ_paced (expression_paced spare room bound) (ih bound)).mono
      (Nat.le_add_right _ 1) le_rfl

theorem declaration_paced_of_le (spare : Nat) {bound : Nat} :
    ∀ {room room' : Nat}, bound ≤ room → bound ≤ room' →
      Paced spare bound 15 (declaration room) (declaration room') := by
  induction bound with
  | zero => exact fun _ _ => Paced.zero
  | succ bound ih =>
    intro room room' hroom hroom'
    obtain ⟨room, rfl⟩ := Nat.exists_eq_succ_of_ne_zero (Nat.ne_zero_of_lt hroom)
    obtain ⟨room', rfl⟩ := Nat.exists_eq_succ_of_ne_zero (Nat.ne_zero_of_lt hroom')
    have hle := Nat.le_of_succ_le_succ hroom
    have hle' := Nat.le_of_succ_le_succ hroom'
    exact declaration_succ_paced (expression_paced_of_le spare hle hle') (ih hle hle')

/-! ### All rules -/

theorem RuleName.paced_of (name : RuleName) {bound spare room room' : Nat}
    (hinner : Paced spare bound 13 (expression room) (expression room'))
    (hdeclaration : Paced spare bound 15 (Parse.declaration room) (Parse.declaration room')) :
    Paced spare bound 15 (name.counted spare room) (name.rule room') := by
  have hbound := Nat.le_add_right bound 1
  cases name with
  | declaration => exact hdeclaration
  | addition => exact (addition_paced hinner).mono hbound (by decide)
  | multiply => exact (multiply_paced hinner).mono hbound (by decide)
  | unary => exact (unary_paced hinner).mono hbound (by decide)
  | primary => exact (primary_paced hinner).mono hbound (by decide)

theorem RuleName.paced (name : RuleName) (spare room bound : Nat) :
    Paced spare bound 15 (name.counted spare room) (name.rule room) :=
  name.paced_of (expression_paced spare room bound) (declaration_paced spare room bound)

theorem RuleName.paced_of_le (name : RuleName) (spare : Nat) {bound room room' : Nat}
    (hroom : bound ≤ room) (hroom' : bound ≤ room') :
    Paced spare bound 15 (name.counted spare room) (name.rule room') :=
  name.paced_of (expression_paced_of_le spare hroom hroom')
    (declaration_paced_of_le spare hroom hroom')

/-- The symbol of the grammar that a rule reads. -/
def RuleName.symbol : RuleName → Symbol
  | .declaration => .declaration
  | .addition => .addition
  | .multiply => .multiply
  | .unary => .unary
  | .primary => .primary

theorem RuleName.reads (name : RuleName) (room : Nat) :
    ∃ levels, room ≤ levels ∧ Reads name.symbol levels (name.rule room) := by
  have hinner := expression_reads room
  have hroom := Nat.le_add_right room 1
  cases name with
  | declaration => exact ⟨room, le_rfl, declaration_reads room⟩
  | addition => exact ⟨room + 1, hroom, addition_reads hinner⟩
  | multiply => exact ⟨room + 1, hroom, multiply_reads hinner⟩
  | unary => exact ⟨room + 1, hroom, unary_reads hinner⟩
  | primary => exact ⟨room + 1, hroom, primary_reads hinner⟩

/-- A rule with room for as many levels as there are tokens never stops for lack of room. -/
theorem RuleName.not_tooDeep (name : RuleName) {room : Nat} {ahead rest : List Token} {p : Problem}
    (hahead : Ended ahead) (hroom : ahead.length ≤ room)
    (h : name.rule room ahead = .error (.problem p rest)) : isTooDeep p = false := by
  obtain ⟨levels, hlevels, hreads⟩ := name.reads room
  have hmeets := hreads ahead hahead
  rw [h] at hmeets
  obtain ⟨used, tok, tail, rfl, rfl, -, -, hstuck⟩ := hmeets
  by_contra hdeep
  have hopen := hstuck.deep (Bool.eq_true_of_not_eq_false hdeep) 0
  have hcount := openBrackets_add_declarationCount_le 0 used
  rw [List.length_append, List.length_cons] at hroom
  omega

theorem Derives.ne_nil {s : Symbol} {tokens : List Token} {e : Expr} (h : Derives s tokens e) :
    tokens ≠ [] := by
  by_cases hs : s = .declaration
  · subst hs
    cases h with
    | letIn | fnIn => simp
    | plain h =>
      obtain ⟨tok, rest, rfl, -⟩ := h.starts (by decide)
      simp
  · obtain ⟨tok, rest, rfl, -⟩ := h.starts hs
    simp

/-! ### Cursors -/

theorem Ended.drop {tokens : List Token} (h : Ended tokens) {n : Nat} (hn : n < tokens.length) :
    Ended (tokens.drop n) := by
  rw [← List.take_append_drop n tokens, List.drop_eq_getElem_cons hn] at h
  rw [List.drop_eq_getElem_cons hn]
  exact h.suffix

namespace Cursor

theorem index_moveTo {c : Cursor} {used rest : List Token} (h : c.ahead = used ++ rest) :
    (c.moveTo rest).index = c.index + used.length := by
  simp only [moveTo, h, List.length_append]
  omega

theorem index_le_moveTo {c : Cursor} {used rest : List Token} (h : c.ahead = used ++ rest) :
    c.index ≤ (c.moveTo rest).index := by
  rw [index_moveTo h]
  exact Nat.le_add_right _ _

theorem index_lt_moveTo {c : Cursor} {used rest : List Token} (h : c.ahead = used ++ rest)
    (hused : used ≠ []) : c.index < (c.moveTo rest).index := by
  rw [index_moveTo h]
  exact Nat.lt_add_of_pos_right (List.length_pos_of_ne_nil hused)

theorem index_moveTo_lt {c : Cursor} {used rest : List Token} (h : c.ahead = used ++ rest)
    (hrest : rest ≠ []) : (c.moveTo rest).index < c.tokens.length := by
  have hlength := congrArg List.length h
  have hpos := List.length_pos_of_ne_nil hrest
  simp only [ahead, List.length_drop, List.length_append] at hlength
  rw [index_moveTo h]
  omega

/-- What a rule run from a cursor comes to: a tree with the cursor further on, a problem with the
    cursor no further back, or the fault of an integer that is no numeral.  In every case there
    is a current token. -/
def Progresses (c : Cursor) : Except Stop Expr × Cursor → Prop
  | (.ok _, after) => c.index < after.index ∧ after.index < c.tokens.length
  | (.error (.problem _ _), after) => c.index ≤ after.index ∧ after.index < c.tokens.length
  | (.error (.fault f), after) => f = .noNumeral ∧ after = c

theorem run_progresses {c : Cursor} (hahead : Ended c.ahead) (name : RuleName) (room : Nat) :
    c.Progresses (c.run (name.rule room)) := by
  obtain ⟨levels, -, hreads⟩ := name.reads room
  have hmeets := hreads c.ahead hahead
  have hproper := (name.paced 0 room c.ahead.length c.ahead hahead le_rfl 0).proper
  unfold run
  rcases houtcome : name.rule room c.ahead with (⟨p, rest⟩ | f) | ⟨e, rest⟩
  · rw [houtcome] at hmeets
    obtain ⟨used, tok, tail, rfl, hused, -, -, -⟩ := hmeets
    exact ⟨index_le_moveTo hused, index_moveTo_lt hused (List.cons_ne_nil _ _)⟩
  · rw [houtcome] at hproper
    exact ⟨hproper, rfl⟩
  · rw [houtcome] at hmeets
    obtain ⟨used, hused, hrest, hderives⟩ := hmeets
    exact ⟨index_lt_moveTo hused hderives.ne_nil, index_moveTo_lt hused hrest.ne_nil⟩

theorem run_congr {c : Cursor} {rule rule' : Rule Expr} (h : rule c.ahead = rule' c.ahead) :
    c.run rule = c.run rule' := by
  simp only [run, h]

theorem eq_error_of_run {c : Cursor} {rule : Rule Expr} {p : Problem} {rest : List Token}
    (h : (c.run rule).1 = .error (.problem p rest)) : rule c.ahead = .error (.problem p rest) := by
  unfold run at h
  rcases houtcome : rule c.ahead with (⟨p', rest'⟩ | f) | ⟨e, rest'⟩
  all_goals
    rw [houtcome] at h
    cases h
  rfl

/-- **Every rule ends, and one that gives a tree has moved on.**  From any current token of tokens
    that end in their only end token, and whatever rounds the loops may take beyond the tokens
    ahead, a rule gives the same answer in at most sixteen steps for each token ahead and
    fifteen more.  Either it stops, or the cursor is further on than before.  Room for as many
    levels as there are tokens is as good as any, and never too little. -/
theorem rules_end_moving_on {c : Cursor} (htokens : Ended c.tokens)
    (hindex : c.index < c.tokens.length) (name : RuleName) :
    (∀ spare room, (name.counted spare room c.ahead).answer = name.rule room c.ahead ∧
      (name.counted spare room c.ahead).steps ≤ 16 * c.ahead.length + 15) ∧
    (∀ room, c.Progresses (c.run (name.rule room))) ∧
    ∃ ending, (∀ room, c.ahead.length ≤ room → c.run (name.rule room) = ending) ∧
      ∀ p rest, ending.1 = .error (.problem p rest) → isTooDeep p = false := by
  have hahead : Ended c.ahead := htokens.drop hindex
  refine ⟨fun spare room => ?_, run_progresses hahead name, ?_⟩
  · have hpaid := name.paced spare room c.ahead.length c.ahead hahead le_rfl 0
    refine ⟨hpaid.answer, ?_⟩
    have hprice := hpaid.price
    omega
  · refine ⟨c.run (name.rule c.ahead.length), fun room hroom => ?_, fun p rest hstop => ?_⟩
    · have hanswer := (name.paced_of_le 0 le_rfl hroom c.ahead hahead le_rfl 0).answer
      have hanswer' := (name.paced_of_le 0 le_rfl le_rfl c.ahead hahead le_rfl 0).answer
      exact run_congr (hanswer.symm.trans hanswer')
    · exact name.not_tooDeep hahead le_rfl (eq_error_of_run hstop)

/-- The tokens of `f(--x,`, a call that is not finished. -/
def unfinishedCall : List Token :=
  [⟨.ident, "f", 0⟩, ⟨.lparen, "(", 1⟩, ⟨.minus, "-", 2⟩, ⟨.minus, "-", 3⟩, ⟨.ident, "x", 4⟩,
    ⟨.comma, ",", 5⟩, ⟨.eof, "", 6⟩]

theorem unfinishedCall_ends_moving_on :
    Ended unfinishedCall ∧ 2 < unfinishedCall.length ∧
    (∀ spare room, (RuleName.unary.counted spare room (unfinishedCall.drop 2)).answer =
        RuleName.unary.rule room (unfinishedCall.drop 2) ∧
      (RuleName.unary.counted spare room (unfinishedCall.drop 2)).steps ≤ 95) ∧
    (∀ room, Progresses ⟨unfinishedCall, 2⟩ (run ⟨unfinishedCall, 2⟩ (RuleName.unary.rule room))) ∧
    ∃ ending, (∀ room, 5 ≤ room →
        run ⟨unfinishedCall, 2⟩ (RuleName.unary.rule room) = ending) ∧
      ∀ p rest, ending.1 = .error (.problem p rest) → isTooDeep p = false := by
  have hended : Ended unfinishedCall :=
    @Ended.append (unfinishedCall.take 6) ⟨.eof, "", 6⟩ (by decide) rfl
  have hindex : 2 < unfinishedCall.length := by decide
  exact ⟨hended, hindex, rules_end_moving_on (c := ⟨unfinishedCall, 2⟩) hended hindex .unary⟩

end Cursor

end Abacus.Parse
