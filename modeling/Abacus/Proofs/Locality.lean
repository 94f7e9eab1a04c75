/-
  Abacus/Proofs/Locality.lean
  ===========================
  **A rule looks no further than its current token.**  Whatever a rule answers, the same
  rule with at least as much room answers on every input that has the same tokens up to and
  including the token where it stopped.  Only a lack of room is not repeated.

  `Repeats` compares one outcome with what another rule does on such inputs.  The other
  rule is given by a relation between inputs and outcomes, because the loops of the grammar
  count rounds: another input takes another number of them, and every number that covers
  the input will do.
-/
import Abacus.Proofs.Soundness

namespace Abacus.Parse

/-! ### Repeated outcomes -/

/-- An outcome on `ahead` that is met again, as `other` says, on all inputs that start like
    `ahead` up to the current token and end there if `ahead` does. -/
def Repeats {α : Type} (ahead : List Token)
    (other : List Token → Except Stop (α × List Token) → Prop) :
    Except Stop (α × List Token) → Prop
  | .ok (value, rest) => ∃ used tok tail, rest = tok :: tail ∧ ahead = used ++ tok :: tail ∧
      ∀ tail', (tail' = [] ↔ tail = []) → other (used ++ tok :: tail') (.ok (value, tok :: tail'))
  | .error (.problem p rest) => isTooDeep p = true ∨
      ∃ used tok tail, rest = tok :: tail ∧ ahead = used ++ tok :: tail ∧
        ∀ tail', (tail' = [] ↔ tail = []) →
          other (used ++ tok :: tail') (.error (.problem p (tok :: tail')))
  | .error (.fault _) => True

section Repeats

variable {α β : Type} {ahead : List Token}
  {other other' : List Token → Except Stop (α × List Token) → Prop}

theorem Repeats.cons {tok : Token} {x : Except Stop (α × List Token)}
    (h : Repeats ahead (fun input y => other (tok :: input) y) x) :
    Repeats (tok :: ahead) other x := by
  match x, h with
  | .ok (value, rest), ⟨used, tok', tail, hrest, hahead, h⟩ =>
    exact ⟨tok :: used, tok', tail, hrest, by rw [hahead]; rfl, h⟩
  | .error (.problem p rest), .inl hp => exact .inl hp
  | .error (.problem p rest), .inr ⟨used, tok', tail, hrest, hahead, h⟩ =>
    exact .inr ⟨tok :: used, tok', tail, hrest, by rw [hahead]; rfl, h⟩
  | .error (.fault _), h => exact h

theorem Repeats.of_head {tok : Token} {rest : List Token} {x : Except Stop (α × List Token)}
    (h : Repeats (tok :: rest) other x)
    (himp : ∀ rest' y, other (tok :: rest') y → other' (tok :: rest') y) :
    Repeats (tok :: rest) other' x := by
  have hhead : ∀ (used : List Token) (tok' : Token) (tail tail' : List Token),
      tok :: rest = used ++ tok' :: tail → ∃ rest', used ++ tok' :: tail' = tok :: rest' := by
    intro used tok' tail tail' heq
    cases used with
    | nil =>
      obtain ⟨rfl, -⟩ := List.cons.inj heq
      exact ⟨tail', rfl⟩
    | cons first used =>
      obtain ⟨rfl, -⟩ := List.cons.inj heq
      exact ⟨used ++ tok' :: tail', rfl⟩
  match x, h with
  | .ok (value, rest'), ⟨used, tok', tail, hrest, hahead, h⟩ =>
    refine ⟨used, tok', tail, hrest, hahead, fun tail' htail' => ?_⟩
    have hother := h tail' htail'
    obtain ⟨rest'', hrest''⟩ := hhead used tok' tail tail' hahead
    rw [hrest''] at hother ⊢
    exact himp rest'' _ hother
  | .error (.problem p rest'), .inl hp => exact .inl hp
  | .error (.problem p rest'), .inr ⟨used, tok', tail, hrest, hahead, h⟩ =>
    refine .inr ⟨used, tok', tail, hrest, hahead, fun tail' htail' => ?_⟩
    have hother := h tail' htail'
    obtain ⟨rest'', hrest''⟩ := hhead used tok' tail tail' hahead
    rw [hrest''] at hother ⊢
    exact himp rest'' _ hother
  | .error (.fault _), h => exact h

theorem Repeats.pure {value : α} {tok : Token} {rest : List Token}
    (h : ∀ rest', other (tok :: rest') (.ok (value, tok :: rest'))) :
    Repeats (tok :: rest) other (.ok (value, tok :: rest)) :=
  ⟨[], tok, rest, rfl, rfl, fun tail' _ => h tail'⟩

theorem Repeats.refuse {p : Problem} {tok : Token} {rest : List Token}
    (h : ∀ rest', other (tok :: rest') (.error (.problem p (tok :: rest')))) :
    Repeats (tok :: rest) other (.error (.problem p (tok :: rest))) :=
  .inr ⟨[], tok, rest, rfl, rfl, fun tail' _ => h tail'⟩

/-- **Steps one after the other.**  The second step starts with the token that the first
    one stopped at, so what it looks at on another input is known too. -/
theorem Repeats.bind {final : List Token → Except Stop (β × List Token) → Prop}
    {second : α → List Token → Except Stop (β × List Token) → Prop}
    {x : Except Stop (α × List Token)} {f : α × List Token → Except Stop (β × List Token)}
    (hahead : Ended ahead) (hx : Repeats ahead other x)
    (hf : ∀ value rest, Ended rest → Repeats rest (second value) (f (value, rest)))
    (hok : ∀ input value rest y, rest.length ≤ input.length → other input (.ok (value, rest)) →
      second value rest y → final input y)
    (herror : ∀ input stop, other input (.error stop) → final input (.error stop)) :
    Repeats ahead final (x >>= f) := by
  match x, hx with
  | .error (.problem p rest), .inl hp => exact .inl hp
  | .error (.problem p rest), .inr ⟨used, tok, tail, hrest, hused, h⟩ =>
    exact .inr ⟨used, tok, tail, hrest, hused, fun tail' htail' => herror _ _ (h tail' htail')⟩
  | .error (.fault f), _ => trivial
  | .ok (value, rest), ⟨used, tok, tail, hrest, hused, h⟩ =>
    subst hrest hused
    have hnext := hf value (tok :: tail) hahead.suffix
    -- the tokens that the second step uses up still start with the current token
    have hback : ∀ (used' : List Token) (tok' : Token) (tail₂ tail₂' : List Token),
        tok :: tail = used' ++ tok' :: tail₂ → (tail₂' = [] ↔ tail₂ = []) →
        other (used ++ (used' ++ tok' :: tail₂')) (.ok (value, used' ++ tok' :: tail₂')) := by
      intro used' tok' tail₂ tail₂' heq htail
      cases used' with
      | nil =>
        obtain ⟨rfl, rfl⟩ := List.cons.inj heq
        exact h tail₂' htail
      | cons first used' =>
        obtain ⟨rfl, rfl⟩ := List.cons.inj heq
        exact h (used' ++ tok' :: tail₂') (by simp)
    show Repeats (used ++ tok :: tail) final (f (value, tok :: tail))
    match f (value, tok :: tail), hnext with
    | .ok (value', rest'), ⟨used', tok', tail₂, hrest', hused', h'⟩ =>
      refine ⟨used ++ used', tok', tail₂, hrest', by rw [hused', List.append_assoc], ?_⟩
      intro tail₂' htail
      rw [List.append_assoc]
      exact hok _ value _ _ (by simp) (hback used' tok' tail₂ tail₂' hused' htail)
        (h' tail₂' htail)
    | .error (.problem p rest'), .inl hp => exact .inl hp
    | .error (.problem p rest'), .inr ⟨used', tok', tail₂, hrest', hused', h'⟩ =>
      refine .inr ⟨used ++ used', tok', tail₂, hrest', by rw [hused', List.append_assoc], ?_⟩
      intro tail₂' htail
      rw [List.append_assoc]
      exact hok _ value _ _ (by simp) (hback used' tok' tail₂ tail₂' hused' htail)
        (h' tail₂' htail)
    | .error (.fault _), _ => trivial

end Repeats

/-! ### Steps -/

/-- What a rule answers on an input. -/
def Gives {α : Type} (rule : Rule α) (input : List Token) (y : Except Stop (α × List Token)) :
    Prop :=
  rule input = y

/-- The outcomes of a rule are repeated by another one. -/
def RepeatedBy {α : Type} (rule other : Rule α) : Prop :=
  ∀ ahead, Ended ahead → Repeats ahead (Gives other) (rule ahead)

theorem Repeats.andThen {α β : Type} {ahead : List Token} {x : Except Stop (α × List Token)}
    {f : α × List Token → Except Stop (β × List Token)} {other : Rule α}
    {g : α × List Token → Except Stop (β × List Token)} (hahead : Ended ahead)
    (hx : Repeats ahead (Gives other) x)
    (hf : ∀ value, RepeatedBy (fun rest => f (value, rest)) fun rest => g (value, rest)) :
    Repeats ahead (Gives fun input => other input >>= g) (x >>= f) := by
  refine Repeats.bind hahead hx (fun value rest hrest => hf value rest hrest) ?_ ?_
  · intro input value rest y _ hother hg
    simp only [Gives] at hother hg ⊢
    rw [hother, ok_bind]
    exact hg
  · intro input stop hother
    simp only [Gives] at hother ⊢
    rw [hother]
    rfl

theorem Repeats.advance {β : Type} {tok : Token} {rest : List Token}
    {f g : Token × List Token → Except Stop (β × List Token)} (hahead : Ended (tok :: rest))
    (htok : tok.kind ≠ .eof)
    (h : RepeatedBy (fun rest => f (tok, rest)) fun rest => g (tok, rest)) :
    Repeats (tok :: rest) (Gives fun input => Parse.advance input >>= g)
      (Parse.advance (tok :: rest) >>= f) := by
  have hrest := hahead.tail htok
  have hnext := h rest hrest
  rw [advance_cons hrest.ne_nil, ok_bind]
  obtain ⟨tok', rest, rfl⟩ := hrest.exists_cons
  exact Repeats.cons (hnext.of_head fun rest' y hy => hy)

theorem RepeatedBy.pure {α : Type} (value : α) :
    RepeatedBy (fun ahead => .ok (value, ahead)) fun ahead => .ok (value, ahead) := by
  intro ahead hahead
  obtain ⟨tok, rest, rfl⟩ := hahead.exists_cons
  exact Repeats.pure fun _ => rfl

theorem expect_repeated (kind : Kind) (what : String) (hkind : kind ≠ .eof) :
    RepeatedBy (expect kind what) (expect kind what) := by
  intro ahead hahead
  obtain ⟨tok, rest, rfl⟩ := hahead.exists_cons
  simp only [expect, current]
  by_cases htok : tok.kind = kind
  · have hrest := hahead.tail (by rw [htok]; exact hkind)
    rw [if_pos htok, advance_cons hrest.ne_nil]
    obtain ⟨tok', rest, rfl⟩ := hrest.exists_cons
    exact Repeats.cons (Repeats.pure fun rest' => by simp [Gives, expect, current, htok, advance])
  · rw [if_neg htok]
    exact Repeats.refuse fun rest' => by simp [Gives, expect, current, htok]

theorem expectName_repeated (what : String) :
    RepeatedBy (expectName what) (expectName what) := by
  intro ahead hahead
  have hname := expect_repeated .ident what (by decide) ahead hahead
  obtain ⟨tok, rest, rfl⟩ := hahead.exists_cons
  simp only [expectName, current]
  by_cases htok : tok.kind.isReserved = true
  · rw [if_pos htok]
    exact Repeats.refuse fun rest' => by simp [Gives, expectName, current, htok]
  · rw [if_neg htok]
    exact hname.of_head fun rest' y h => by simpa [Gives, expectName, current, htok] using h

theorem expectClose_repeated (opening : Token) :
    RepeatedBy (expectClose opening) (expectClose opening) := by
  intro ahead hahead
  obtain ⟨tok, rest, rfl⟩ := hahead.exists_cons
  simp only [expectClose, current]
  split
  · rename_i htok
    have hrest := hahead.tail (by rw [htok]; decide)
    rw [advance_cons hrest.ne_nil]
    obtain ⟨tok', rest, rfl⟩ := hrest.exists_cons
    refine Repeats.cons (Repeats.pure fun rest' => ?_)
    simp [Gives, expectClose, current, htok, advance]
  · rename_i htok
    exact Repeats.refuse fun rest' => by simp [Gives, expectClose, current, htok]
  · exact Repeats.refuse fun rest' => by simp_all [Gives, expectClose, current]

/-! ### Loops -/

/-- The answer of a loop on an input, for any number of rounds that, with the given slack,
    covers the input. -/
def LoopGives {α : Type} (slack : Nat) (loop : Nat → Rule α) (input : List Token)
    (y : Except Stop (α × List Token)) : Prop :=
  ∀ rounds, input.length ≤ rounds + slack → loop rounds input = y

theorem Repeats.loop {α : Type} {slack : Nat} {ahead : List Token} {rule : Rule α}
    {x : Except Stop (α × List Token)} (h : Repeats ahead (Gives rule) x) :
    Repeats ahead (LoopGives slack fun _ => rule) x := by
  match x, h with
  | .ok (value, rest), ⟨used, tok, tail, hrest, hahead, h⟩ =>
    exact ⟨used, tok, tail, hrest, hahead, fun tail' htail' _ _ => h tail' htail'⟩
  | .error (.problem p rest), .inl hp => exact .inl hp
  | .error (.problem p rest), .inr ⟨used, tok, tail, hrest, hahead, h⟩ =>
    exact .inr ⟨used, tok, tail, hrest, hahead, fun tail' htail' _ _ => h tail' htail'⟩
  | .error (.fault _), h => exact h

theorem Repeats.ofLoop {α : Type} {ahead : List Token} {loop : Nat → Rule α}
    {x : Except Stop (α × List Token)} (h : Repeats ahead (LoopGives 0 loop) x) :
    Repeats ahead (Gives fun input => loop input.length input) x := by
  match x, h with
  | .ok (value, rest), ⟨used, tok, tail, hrest, hahead, h⟩ =>
    exact ⟨used, tok, tail, hrest, hahead, fun tail' htail' => h tail' htail' _ (Nat.le_refl _)⟩
  | .error (.problem p rest), .inl hp => exact .inl hp
  | .error (.problem p rest), .inr ⟨used, tok, tail, hrest, hahead, h⟩ =>
    refine .inr ⟨used, tok, tail, hrest, hahead, fun tail' htail' => ?_⟩
    exact h tail' htail' _ (Nat.le_refl _)
  | .error (.fault _), h => exact h

theorem Repeats.bindLoop {α β : Type} {slack : Nat} {ahead : List Token}
    {x : Except Stop (α × List Token)} {f : α × List Token → Except Stop (β × List Token)}
    {first : Nat → Rule α} {second : Nat → α × List Token → Except Stop (β × List Token)}
    (hahead : Ended ahead) (hx : Repeats ahead (LoopGives slack first) x)
    (hf : ∀ value rest, Ended rest →
      Repeats rest (LoopGives slack fun rounds rest => second rounds (value, rest))
        (f (value, rest))) :
    Repeats ahead (LoopGives slack fun rounds input => first rounds input >>= second rounds)
      (x >>= f) := by
  refine Repeats.bind hahead hx hf ?_ ?_
  · intro input value rest y hlength hfirst hsecond rounds hrounds
    simp only [hfirst rounds hrounds, ok_bind]
    exact hsecond rounds (Nat.le_trans hlength hrounds)
  · intro input stop hfirst rounds hrounds
    simp only [hfirst rounds hrounds]
    rfl

/-- What follows an argument, with so many rounds left. -/
def argumentsAfter (inner : Rule Expr) (rounds : Nat) (arg : Expr) : Rule (List Expr) :=
    fun ahead => do
  let tok ← current ahead
  if tok.kind = .comma then
    let (_, ahead) ← advance ahead
    let (args, ahead) ← arguments inner rounds ahead
    return (arg :: args, ahead)
  else return ([arg], ahead)

theorem arguments_cons {inner : Rule Expr} {rounds : Nat} {tok : Token} {rest : List Token}
    (htok : tok.kind ≠ .rparen) :
    arguments inner (rounds + 1) (tok :: rest) =
      (inner (tok :: rest) >>= fun p => argumentsAfter inner rounds p.1 p.2) := by
  simp only [arguments, enter_bind, liftM_eq, current, ok_bind, if_neg htok]
  rfl

/-! ### Expressions -/

section Expressions

variable {inner inner' : Rule Expr}

theorem bracketed_repeats (hinner : RepeatedBy inner inner') {opening : Token}
    {rest : List Token} (hahead : Ended (opening :: rest)) (hopening : opening.kind = .lparen) :
    Repeats (opening :: rest) (Gives (bracketed inner')) (bracketed inner (opening :: rest)) := by
  refine Repeats.advance hahead (by rw [hopening]; decide) fun ahead hahead => ?_
  refine Repeats.andThen hahead (hinner ahead hahead) fun e ahead hahead => ?_
  refine Repeats.andThen hahead (expectClose_repeated opening ahead hahead) fun _ => ?_
  exact RepeatedBy.pure e

theorem literal_repeats {tok : Token} {rest : List Token} (hahead : Ended (tok :: rest))
    (htok : tok.kind = .int) :
    Repeats (tok :: rest) (Gives literal) (literal (tok :: rest)) := by
  refine Repeats.advance hahead (by rw [htok]; decide) fun ahead hahead => ?_
  rcases hvalue : numeralValue? tok.text with _ | n
  · simp only [hvalue]
    trivial
  · simp only [hvalue]
    exact RepeatedBy.pure _ ahead hahead

theorem argumentsAfter_repeats {rounds : Nat}
    (hmore : ∀ ahead, Ended ahead →
      Repeats ahead (LoopGives 0 (arguments inner')) (arguments inner rounds ahead)) (arg : Expr) :
    ∀ ahead, Ended ahead →
      Repeats ahead (LoopGives 1 fun rounds => argumentsAfter inner' rounds arg)
        (argumentsAfter inner rounds arg ahead) := by
  intro ahead hahead
  obtain ⟨tok, rest, rfl⟩ := hahead.exists_cons
  simp only [argumentsAfter, current, ok_bind]
  by_cases htok : tok.kind = .comma
  · have hrest := hahead.tail (by rw [htok]; decide)
    simp only [if_pos htok, advance_cons hrest.ne_nil, ok_bind]
    have hargs : Repeats rest (LoopGives 0 fun rounds input =>
        arguments inner' rounds input >>= fun p => .ok (arg :: p.1, p.2))
        (arguments inner rounds rest >>= fun p => .ok (arg :: p.1, p.2)) :=
      Repeats.bindLoop hrest (hmore rest hrest) fun args rest hrest =>
        Repeats.loop (RepeatedBy.pure (arg :: args) rest hrest)
    obtain ⟨tok', rest, rfl⟩ := hrest.exists_cons
    refine Repeats.cons (hargs.of_head fun rest' y h rounds hrounds => ?_)
    have hy := h rounds (by simpa using hrounds)
    simp only [argumentsAfter, current, ok_bind, if_pos htok, advance]
    exact hy
  · rw [if_neg htok]
    refine Repeats.pure fun rest' rounds _ => ?_
    simp only [argumentsAfter, current, ok_bind, if_neg htok]
    rfl

theorem arguments_repeats (hinner : RepeatedBy inner inner') (rounds : Nat) :
    ∀ ahead, Ended ahead →
      Repeats ahead (LoopGives 0 (arguments inner')) (arguments inner rounds ahead) := by
  induction rounds with
  | zero => intro ahead _; trivial
  | succ rounds ih =>
    intro ahead hahead
    obtain ⟨tok, rest, rfl⟩ := hahead.exists_cons
    by_cases htok : tok.kind = .rparen
    · simp only [arguments, enter_bind, liftM_eq, current, ok_bind, if_pos htok]
      refine Repeats.pure fun rest' rounds' hrounds' => ?_
      obtain ⟨rounds', rfl⟩ := Nat.exists_eq_succ_of_ne_zero (Nat.ne_zero_of_lt hrounds')
      simp only [arguments, enter_bind, liftM_eq, current, ok_bind, if_pos htok]
      rfl
    · rw [arguments_cons htok]
      have hargs : Repeats (tok :: rest) (LoopGives 1 fun rounds input =>
          inner' input >>= fun p => argumentsAfter inner' rounds p.1 p.2)
          (inner (tok :: rest) >>= fun p => argumentsAfter inner rounds p.1 p.2) :=
        Repeats.bindLoop hahead (Repeats.loop (hinner _ hahead)) (argumentsAfter_repeats ih)
      refine hargs.of_head fun rest' y h rounds' hrounds' => ?_
      obtain ⟨rounds', rfl⟩ := Nat.exists_eq_succ_of_ne_zero (Nat.ne_zero_of_lt hrounds')
      rw [arguments_cons htok]
      exact h rounds' hrounds'

/-- What follows the name of a called function. -/
def callAfter (inner : Rule Expr) (name : Token) : Rule Expr := fun ahead => do
  let (opening, ahead) ← expect .lparen "`(`" ahead
  let (args, ahead) ← arguments inner ahead.length ahead
  let (_, ahead) ← expectClose opening ahead
  return (.call name.text args, ahead)

theorem call_cons {name tok : Token} {tail : List Token} (hname : name.kind = .ident) :
    call inner (name :: tok :: tail) = callAfter inner name (tok :: tail) := by
  simp only [call, enter_bind, liftM_eq, rounds_eq, expect, current, if_pos hname, advance, ok_bind]
  rfl

theorem callAfter_repeated (hinner : RepeatedBy inner inner') (name : Token) :
    RepeatedBy (callAfter inner name) (callAfter inner' name) := by
  intro ahead hahead
  refine Repeats.andThen hahead (expect_repeated _ _ (by decide) ahead hahead)
    fun opening ahead hahead => ?_
  refine Repeats.andThen hahead (arguments_repeats hinner ahead.length ahead hahead).ofLoop
    fun args ahead hahead => ?_
  refine Repeats.andThen hahead (expectClose_repeated opening ahead hahead) fun _ => ?_
  exact RepeatedBy.pure (Expr.call name.text args)

/-- The one rule that looks past its current token takes that token in either case, so it
    never stops before the token it looked at. -/
theorem named_repeats (hinner : RepeatedBy inner inner') {name : Token} {rest : List Token}
    (hahead : Ended (name :: rest)) (hname : name.kind = .ident) :
    Repeats (name :: rest) (Gives (named inner')) (named inner (name :: rest)) := by
  have hrest := hahead.tail (by rw [hname]; decide)
  obtain ⟨tok, tail, rfl⟩ := hrest.exists_cons
  simp only [named, enter_bind, liftM_eq, peek_one, ok_bind]
  by_cases htok : tok.kind = .lparen
  · rw [if_pos htok, call_cons hname]
    refine Repeats.cons ((callAfter_repeated hinner name _ hrest).of_head fun rest' y h => ?_)
    simpa only [Gives, named, enter_bind, liftM_eq, peek_one, ok_bind,
      if_pos htok, call_cons hname] using h
  · simp only [if_neg htok, advance, ok_bind]
    refine Repeats.cons (Repeats.pure fun rest' => ?_)
    simp only [Gives, named, enter_bind, liftM_eq, peek_one, ok_bind,
      if_neg htok, advance]
    rfl

theorem primary_repeated (hinner : RepeatedBy inner inner') :
    RepeatedBy (primary inner) (primary inner') := by
  intro ahead hahead
  obtain ⟨tok, rest, rfl⟩ := hahead.exists_cons
  simp only [primary, enter_bind, liftM_eq, current, ok_bind]
  split
  · rename_i htok
    refine (bracketed_repeats hinner hahead htok).of_head fun rest' y h => ?_
    simpa only [Gives, primary, enter_bind, liftM_eq, current, ok_bind, htok] using h
  · rename_i htok
    refine (literal_repeats hahead htok).of_head fun rest' y h => ?_
    simpa only [Gives, primary, enter_bind, liftM_eq, current, ok_bind, htok] using h
  · rename_i htok
    refine (named_repeats hinner hahead htok).of_head fun rest' y h => ?_
    simpa only [Gives, primary, enter_bind, liftM_eq, current, ok_bind, htok] using h
  all_goals
    refine Repeats.refuse fun rest' => ?_
    simp_all only [Gives, primary, enter_bind, liftM_eq, current, ok_bind]

theorem unary_repeated (hinner : RepeatedBy inner inner') :
    RepeatedBy (unary inner) (unary inner') := by
  intro ahead hahead
  induction ahead with
  | nil => exact absurd rfl hahead.ne_nil
  | cons tok rest ih =>
    by_cases htok : tok.kind = .minus
    · have hrest := hahead.tail (by rw [htok]; decide)
      rw [unary_of_minus htok hrest.ne_nil]
      have hnegated : Repeats rest
          (Gives fun input => unary inner' input >>= fun p => .ok (Expr.neg p.1, p.2))
          (unary inner rest >>= fun p => .ok (Expr.neg p.1, p.2)) :=
        Repeats.andThen hrest (ih hrest) fun e => RepeatedBy.pure (Expr.neg e)
      obtain ⟨tok', rest, rfl⟩ := hrest.exists_cons
      refine Repeats.cons (hnegated.of_head fun rest' y h => ?_)
      rw [Gives, unary_of_minus htok (List.cons_ne_nil _ _)]
      exact h
    · rw [unary_of_ne_minus htok]
      refine (primary_repeated hinner _ hahead).of_head fun rest' y h => ?_
      simpa only [Gives, unary_of_ne_minus htok] using h

theorem chain_repeats {operator? : Kind → Option Operator} {operand operand' : Rule Expr}
    (hoperand : RepeatedBy operand operand') (heof : operator? .eof = none) (rounds : Nat) :
    ∀ left ahead, Ended ahead →
      Repeats ahead (LoopGives 0 fun rounds => chain operator? operand' rounds left)
        (chain operator? operand rounds left ahead) := by
  induction rounds with
  | zero => intro left ahead _; trivial
  | succ rounds ih =>
    intro left ahead hahead
    obtain ⟨mark, rest, rfl⟩ := hahead.exists_cons
    simp only [chain, enter_bind, liftM_eq, current, ok_bind]
    rcases hop : operator? mark.kind with _ | op
    · refine Repeats.pure fun rest' rounds' hrounds' => ?_
      obtain ⟨rounds', rfl⟩ := Nat.exists_eq_succ_of_ne_zero (Nat.ne_zero_of_lt hrounds')
      simp only [chain, enter_bind, liftM_eq, current, ok_bind, hop]
      rfl
    · have hrest := hahead.tail (fun hmark => by rw [hmark, heof] at hop; cases hop)
      simp only [advance_cons hrest.ne_nil, ok_bind]
      have hlink : Repeats rest (LoopGives 0 fun rounds input => operand' input >>= fun p =>
          chain operator? operand' rounds (.bin op left p.1) p.2)
          (operand rest >>= fun p => chain operator? operand rounds (.bin op left p.1) p.2) :=
        Repeats.bindLoop hrest (Repeats.loop (hoperand rest hrest)) fun right =>
          ih (.bin op left right)
      obtain ⟨tok, rest, rfl⟩ := hrest.exists_cons
      refine Repeats.cons (hlink.of_head fun rest' y h rounds' hrounds' => ?_)
      obtain ⟨rounds', rfl⟩ := Nat.exists_eq_succ_of_ne_zero (Nat.ne_zero_of_lt hrounds')
      have hy := h rounds' (by simpa using hrounds')
      simp only [chain, enter_bind, liftM_eq, current, ok_bind, hop, advance]
      exact hy

theorem chained_repeated {operator? : Kind → Option Operator} {operand operand' : Rule Expr}
    (hoperand : RepeatedBy operand operand') (heof : operator? .eof = none) :
    RepeatedBy (chained operator? operand) (chained operator? operand') := by
  intro ahead hahead
  refine Repeats.andThen hahead (hoperand ahead hahead) fun left ahead hahead => ?_
  exact (chain_repeats hoperand heof ahead.length left ahead hahead).ofLoop

theorem multiply_repeated (hinner : RepeatedBy inner inner') :
    RepeatedBy (multiply inner) (multiply inner') :=
  chained_repeated (unary_repeated hinner) rfl

theorem addition_repeated (hinner : RepeatedBy inner inner') :
    RepeatedBy (addition inner) (addition inner') :=
  chained_repeated (multiply_repeated hinner) rfl

end Expressions

theorem noRoom_repeated (other : Rule Expr) : RepeatedBy noRoom other := by
  intro ahead hahead
  obtain ⟨tok, rest, rfl⟩ := hahead.exists_cons
  exact .inl rfl

theorem expression_repeated {room room' : Nat} (h : room ≤ room') :
    RepeatedBy (expression room) (expression room') := by
  induction room generalizing room' with
  | zero => exact noRoom_repeated _
  | succ room ih =>
    obtain ⟨room', rfl⟩ := Nat.exists_eq_succ_of_ne_zero (Nat.ne_zero_of_lt h)
    exact addition_repeated (ih (Nat.le_of_succ_le_succ h))

/-! ### Declarations -/

theorem parameters_repeats (rounds : Nat) :
    ∀ ahead, Ended ahead → Repeats ahead (LoopGives 0 parameters) (parameters rounds ahead) := by
  induction rounds with
  | zero => intro ahead _; trivial
  | succ rounds ih =>
    intro ahead hahead
    obtain ⟨tok, rest, rfl⟩ := hahead.exists_cons
    simp only [parameters, enter_bind, liftM_eq, current, ok_bind]
    by_cases hname : tok.kind = .ident
    · have hrest := hahead.tail (by rw [hname]; decide)
      have hmore : Repeats rest (LoopGives 0 fun rounds input =>
          parameters rounds input >>= fun p => .ok (tok.text :: p.1, p.2))
          (parameters rounds rest >>= fun p => .ok (tok.text :: p.1, p.2)) :=
        Repeats.bindLoop hrest (ih rest hrest) fun names rest hrest =>
          Repeats.loop (RepeatedBy.pure (tok.text :: names) rest hrest)
      obtain ⟨tok', rest, rfl⟩ := hrest.exists_cons
      simp only [if_pos (Or.inl hname), expectName_cons hname (List.cons_ne_nil _ _), ok_bind]
      refine Repeats.cons (hmore.of_head fun rest' y h rounds' hrounds' => ?_)
      obtain ⟨rounds', rfl⟩ := Nat.exists_eq_succ_of_ne_zero (Nat.ne_zero_of_lt hrounds')
      have hy := h rounds' (by simpa using hrounds')
      simp only [parameters, enter_bind, liftM_eq, current, ok_bind, if_pos (Or.inl hname),
        expectName_cons hname (List.cons_ne_nil _ _)]
      exact hy
    · by_cases hword : tok.kind.isReserved = true
      · simp only [if_pos (Or.inr hword), expectName, current, if_pos hword]
        refine Repeats.refuse fun rest' rounds' hrounds' => ?_
        obtain ⟨rounds', rfl⟩ := Nat.exists_eq_succ_of_ne_zero (Nat.ne_zero_of_lt hrounds')
        simp only [parameters, enter_bind, liftM_eq, current, ok_bind, if_pos (Or.inr hword),
          expectName, if_pos hword]
        rfl
      · have hneither : ¬ (tok.kind = .ident ∨ tok.kind.isReserved = true) := by simp [hname, hword]
        rw [if_neg hneither]
        refine Repeats.pure fun rest' rounds' hrounds' => ?_
        obtain ⟨rounds', rfl⟩ := Nat.exists_eq_succ_of_ne_zero (Nat.ne_zero_of_lt hrounds')
        simp only [parameters, enter_bind, liftM_eq, current, ok_bind, if_neg hneither]
        rfl

section Declarations

variable {inner inner' next next' : Rule Expr}

theorem binding_repeated (hinner : RepeatedBy inner inner') (hnext : RepeatedBy next next')
    (what : String) (build : Expr → Expr → Expr) :
    RepeatedBy (binding inner next what build) (binding inner' next' what build) := by
  intro ahead hahead
  refine Repeats.andThen hahead (expect_repeated _ _ (by decide) ahead hahead)
    fun _ ahead hahead => ?_
  refine Repeats.andThen hahead (hinner ahead hahead) fun value ahead hahead => ?_
  refine Repeats.andThen hahead (expect_repeated _ _ (by decide) ahead hahead)
    fun _ ahead hahead => ?_
  refine Repeats.andThen hahead (hnext ahead hahead) fun rest => ?_
  exact RepeatedBy.pure (build value rest)

theorem letDeclaration_repeats (hinner : RepeatedBy inner inner') (hnext : RepeatedBy next next')
    {word : Token} {rest : List Token} (hahead : Ended (word :: rest))
    (hword : word.kind = .letWord) :
    Repeats (word :: rest) (Gives (letDeclaration inner' next'))
      (letDeclaration inner next (word :: rest)) := by
  refine Repeats.advance hahead (by rw [hword]; decide) fun ahead hahead => ?_
  refine Repeats.andThen hahead (expectName_repeated _ ahead hahead) fun name => ?_
  exact binding_repeated hinner hnext _ (.letIn name.text)

theorem fnDeclaration_repeats (hinner : RepeatedBy inner inner') (hnext : RepeatedBy next next')
    {word : Token} {rest : List Token} (hahead : Ended (word :: rest))
    (hword : word.kind = .fnWord) :
    Repeats (word :: rest) (Gives (fnDeclaration inner' next'))
      (fnDeclaration inner next (word :: rest)) := by
  refine Repeats.advance hahead (by rw [hword]; decide) fun ahead hahead => ?_
  refine Repeats.andThen hahead (expectName_repeated _ ahead hahead) fun name ahead hahead => ?_
  refine Repeats.andThen hahead (parameters_repeats ahead.length ahead hahead).ofLoop
    fun params => ?_
  exact binding_repeated hinner hnext _ (.fnIn name.text params)

end Declarations

theorem declaration_repeated {room room' : Nat} (h : room ≤ room') :
    RepeatedBy (declaration room) (declaration room') := by
  induction room generalizing room' with
  | zero => exact noRoom_repeated _
  | succ room ih =>
    obtain ⟨room', rfl⟩ := Nat.exists_eq_succ_of_ne_zero (Nat.ne_zero_of_lt h)
    have hroom := Nat.le_of_succ_le_succ h
    intro ahead hahead
    obtain ⟨tok, rest, rfl⟩ := hahead.exists_cons
    simp only [declaration, enter_bind, liftM_eq, current, ok_bind]
    split
    · rename_i htok
      have hlet := letDeclaration_repeats (expression_repeated hroom) (ih hroom) hahead htok
      exact hlet.of_head fun rest' y hy => by
        simpa only [Gives, declaration, enter_bind, liftM_eq, current, ok_bind, htok] using hy
    · rename_i htok
      have hfn := fnDeclaration_repeats (expression_repeated hroom) (ih hroom) hahead htok
      exact hfn.of_head fun rest' y hy => by
        simpa only [Gives, declaration, enter_bind, liftM_eq, current, ok_bind, htok] using hy
    · refine (expression_repeated h _ hahead).of_head fun rest' y hy => ?_
      simp only [Gives, ok_bind]
      exact hy

/-- **What a program is found to be does not depend on the tokens after the one where its
    reading stopped, nor on spare room.** -/
theorem program_repeated {room room' : Nat} (h : room ≤ room') :
    RepeatedBy (program room) (program room') := by
  intro ahead hahead
  refine Repeats.andThen hahead (declaration_repeated h ahead hahead) fun e ahead hahead => ?_
  obtain ⟨tok, rest, rfl⟩ := hahead.exists_cons
  simp only [current, ok_bind]
  by_cases htok : tok.kind = .eof
  · rw [if_pos htok]
    refine Repeats.pure fun rest' => ?_
    simp only [Gives, ok_bind, if_pos htok]
    rfl
  · rw [if_neg htok]
    refine Repeats.refuse fun rest' => ?_
    simp only [Gives, ok_bind, if_neg htok]

end Abacus.Parse
