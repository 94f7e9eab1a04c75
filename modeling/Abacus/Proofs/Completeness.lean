/-
  Abacus/Proofs/Completeness.lean
  ===============================
  **What the grammar derives, the reader accepts.**  A rule takes the tokens that its symbol
  derives off the front of an input, and gives the tree of the derivation, whenever the next
  token cannot be part of a longer derivation and there is enough room.  The proof is one
  induction on derivations; repetitions are inductions on their links.

  How much room is enough comes out of the induction and is not computed.  It does not have
  to be: by `Locality` an answer stays the same with more room, and by `Soundness` tokens
  that nest below the room of a reader never make it give up for lack of room.  Together they
  say that reading tokens and deriving a tree from them is the same.
-/
import Abacus.Proofs.Locality

namespace Abacus.Parse

/-! ### Taking tokens off the front -/

/-- The rule of a symbol, with room for so many levels inside it. -/
def Symbol.rule (room : Nat) : Symbol → Rule Expr
  | .declaration => Parse.declaration room
  | .addition => Parse.addition (expression room)
  | .multiply => Parse.multiply (expression room)
  | .unary => Parse.unary (expression room)
  | .primary => Parse.primary (expression room)
  | .call => Parse.call (expression room)

/-- Whether what a symbol derives may end before a token of a kind. -/
def Symbol.endsBefore : Symbol → Kind → Bool
  | .call, _ => true
  | .primary, kind | .unary, kind => kind != .lparen
  | .multiply, kind => kind != .lparen && (multiplicative? kind).isNone
  | .addition, kind | .declaration, kind =>
    kind != .lparen && (multiplicative? kind).isNone && (additive? kind).isNone

/-- An input before which what a symbol derives may end; it is not empty. -/
def Symbol.EndsAt (s : Symbol) : List Token → Prop
  | [] => False
  | tok :: _ => s.endsBefore tok.kind = true

theorem Symbol.EndsAt.ne_nil {s : Symbol} {more : List Token} (h : s.EndsAt more) : more ≠ [] := by
  rintro rfl
  exact h

/-- A rule that takes `tokens` off the front and gives `e`. -/
def Takes (s : Symbol) (tokens : List Token) (e : Expr) (rule : Rule Expr) : Prop :=
  ∀ more, s.EndsAt more → rule (tokens ++ more) = .ok (e, more)

theorem advance_append {tok : Token} {tokens more : List Token} (h : more ≠ []) :
    advance (tok :: (tokens ++ more)) = .ok (tok, tokens ++ more) :=
  advance_cons (List.append_ne_nil_of_right_ne_nil tokens h)

/-! ### Repetitions -/

section Repetitions

variable {s : Symbol} {rule : Rule Expr}

theorem Symbol.EndsAt.links {links : List Link}
    (hmarks : ∀ l ∈ links, s.endsBefore l.mark.kind = true) {more : List Token}
    (hmore : s.EndsAt more) : s.EndsAt (links.flatMap Link.written ++ more) := by
  cases links with
  | nil => exact hmore
  | cons l links => exact hmarks l (by simp)

theorem chain_takes {operator? : Kind → Option Operator} {links : List Link}
    (hlinks : ∀ l ∈ links, Takes s l.tokens l.tree rule)
    (hmarks : ∀ kind, (operator? kind).isSome → s.endsBefore kind = true) {tok : Token}
    {tail : List Token} (htok : s.endsBefore tok.kind = true) (hstop : operator? tok.kind = none) :
    ∀ {left e : Expr} {rounds : Nat}, foldChain? operator? left links = some e →
      (links.flatMap Link.written ++ tok :: tail).length ≤ rounds →
      chain operator? rule rounds left (links.flatMap Link.written ++ tok :: tail) =
        .ok (e, tok :: tail) := by
  induction links with
  | nil =>
    intro left e rounds hfold hrounds
    obtain ⟨rounds, rfl⟩ := Nat.exists_eq_succ_of_ne_zero (Nat.ne_zero_of_lt hrounds)
    simp only [foldChain?, Option.some.injEq] at hfold
    subst hfold
    simp only [List.flatMap_nil, List.nil_append, chain, enter_bind, liftM_eq, current, ok_bind,
      hstop]
    rfl
  | cons l links ih =>
    intro left e rounds hfold hrounds
    obtain ⟨rounds, rfl⟩ := Nat.exists_eq_succ_of_ne_zero (Nat.ne_zero_of_lt hrounds)
    have hsome := isSome_of_foldChain? hfold
    obtain ⟨op, hop⟩ := Option.isSome_iff_exists.mp (hsome l (by simp))
    have hends : s.EndsAt (links.flatMap Link.written ++ tok :: tail) :=
      Symbol.EndsAt.links (fun l' hl' => hmarks _ (hsome l' (by simp [hl']))) htok
    have hrule := hlinks l (by simp) _ hends
    simp only [foldChain?, hop] at hfold
    simp only [List.flatMap_cons, Link.written, List.cons_append, List.append_assoc,
      List.length_cons, List.length_append] at hrounds ⊢
    simp only [chain, enter_bind, liftM_eq, current, ok_bind, hop, advance_append hends.ne_nil,
      hrule]
    refine ih (fun l' hl' => hlinks l' (by simp [hl'])) hfold ?_
    simp only [List.length_append, List.length_cons]
    omega

/-- Operands and the links after them, for both levels of operators. -/
theorem chained_takes {outer : Symbol} {operator? : Kind → Option Operator} {links : List Link}
    {tokens : List Token} {first e : Expr}
    (hmarks : ∀ kind, (operator? kind).isSome → s.endsBefore kind = true)
    (houter : ∀ kind, outer.endsBefore kind = true →
      s.endsBefore kind = true ∧ operator? kind = none)
    (hfirst : Takes s tokens first rule) (hlinks : ∀ l ∈ links, Takes s l.tokens l.tree rule)
    (hfold : foldChain? operator? first links = some e) :
    Takes outer (tokens ++ links.flatMap Link.written) e (chained operator? rule) := by
  intro more hmore
  rcases more with _ | ⟨tok, tail⟩
  · exact absurd rfl hmore.ne_nil
  obtain ⟨hends, hstop⟩ := houter tok.kind hmore
  have hrest : s.EndsAt (links.flatMap Link.written ++ tok :: tail) :=
    Symbol.EndsAt.links (fun l hl => hmarks _ (isSome_of_foldChain? hfold l hl)) hends
  simp only [chained, enter_bind, rounds_eq, List.append_assoc, hfirst _ hrest, ok_bind]
  exact chain_takes hlinks hmarks hends hstop hfold (Nat.le_refl _)

/-- An argument is not the closing bracket, so it is read before anything else is decided. -/
theorem arguments_append {tokens after : List Token} {arg : Expr} {rounds : Nat}
    (hderives : Derives .addition tokens arg) (htakes : Takes .addition tokens arg rule)
    (hafter : Symbol.addition.EndsAt after) :
    arguments rule (rounds + 1) (tokens ++ after) = argumentsAfter rule rounds arg after := by
  have hstep := htakes after hafter
  obtain ⟨tok, rest, rfl, htok⟩ := hderives.starts (by decide)
  have hopen : tok.kind ≠ .rparen := by
    intro hkind
    rw [hkind] at htok
    cases htok
  simp only [List.cons_append] at hstep ⊢
  rw [arguments_cons hopen, hstep, ok_bind]

theorem arguments_closing {closing : Token} {rest : List Token} {rounds : Nat}
    (hclosing : closing.kind = .rparen) :
    arguments rule (rounds + 1) (closing :: rest) = .ok ([], closing :: rest) := by
  simp only [arguments, enter_bind, liftM_eq, current, ok_bind, if_pos hclosing]
  rfl

theorem argumentsAfter_comma {comma : Token} {rest : List Token} {arg : Expr} {rounds : Nat}
    (hcomma : comma.kind = .comma) (hrest : rest ≠ []) :
    argumentsAfter rule rounds arg (comma :: rest) =
      (arguments rule rounds rest >>= fun p => .ok (arg :: p.1, p.2)) := by
  simp only [argumentsAfter, current, ok_bind, if_pos hcomma, advance_cons hrest]
  rfl

theorem arguments_takes {links : List Link} {comma : Option Token} {closing : Token}
    {more : List Token} (hcomma : ∀ tok ∈ comma, tok.kind = .comma)
    (hclosing : closing.kind = .rparen) (hlinks : ∀ l ∈ links, Derives .addition l.tokens l.tree)
    (htakes : ∀ l ∈ links, Takes .addition l.tokens l.tree rule)
    (hmarks : ∀ l ∈ links, l.mark.kind = .comma) :
    ∀ (rounds : Nat) {tokens : List Token} {first : Expr}, Derives .addition tokens first →
      Takes .addition tokens first rule →
      (tokens ++ (links.flatMap Link.written ++ (comma.toList ++ closing :: more))).length ≤
        rounds →
      arguments rule rounds
          (tokens ++ (links.flatMap Link.written ++ (comma.toList ++ closing :: more))) =
        .ok (first :: links.map Link.tree, closing :: more) := by
  have hend : Symbol.addition.EndsAt (comma.toList ++ closing :: more) := by
    rcases comma with _ | tok
    · simp only [Option.toList_none, List.nil_append, Symbol.EndsAt, hclosing]
      rfl
    · simp only [Option.toList_some, List.cons_append, Symbol.EndsAt, hcomma tok rfl]
      rfl
  induction links with
  | nil =>
    intro rounds tokens first hderives hfirst hrounds
    simp only [List.flatMap_nil, List.nil_append, List.map_nil, List.length_append,
      List.length_cons] at hrounds ⊢
    obtain ⟨rounds, rfl⟩ := Nat.exists_eq_succ_of_ne_zero (Nat.ne_zero_of_lt hrounds)
    rw [arguments_append hderives hfirst hend]
    rcases comma with _ | tok
    · simp only [Option.toList_none, List.nil_append, argumentsAfter, current, ok_bind, hclosing]
      rfl
    · -- after a comma the closing bracket ends the arguments as well
      simp only [Option.toList_some, List.length_cons, List.length_nil] at hrounds
      obtain ⟨rounds, rfl⟩ : ∃ n, rounds = n + 1 := ⟨rounds - 1, by omega⟩
      rw [Option.toList_some, List.singleton_append,
        argumentsAfter_comma (hcomma tok rfl) (List.cons_ne_nil _ _), arguments_closing hclosing]
      rfl
  | cons l links ih =>
    intro rounds tokens first hderives hfirst hrounds
    have hrest : Symbol.addition.EndsAt ((l :: links).flatMap Link.written ++
        (comma.toList ++ closing :: more)) :=
      Symbol.EndsAt.links (fun l' hl' => by rw [hmarks l' hl']; rfl) hend
    simp only [List.flatMap_cons, Link.written, List.cons_append, List.append_assoc,
      List.length_append, List.length_cons] at hrounds hrest
    obtain ⟨rounds, rfl⟩ : ∃ n, rounds = n + 1 := ⟨rounds - 1, by omega⟩
    have hless : (l.tokens ++ (links.flatMap Link.written ++
        (comma.toList ++ closing :: more))).length ≤ rounds := by
      simp only [List.length_append, List.length_cons]
      omega
    have hnext := ih (fun l' hl' => hlinks l' (by simp [hl']))
      (fun l' hl' => htakes l' (by simp [hl'])) (fun l' hl' => hmarks l' (by simp [hl'])) rounds
      (hlinks l (by simp)) (htakes l (by simp)) hless
    simp only [List.flatMap_cons, Link.written, List.cons_append, List.append_assoc]
    rw [arguments_append hderives hfirst hrest, argumentsAfter_comma (hmarks l (by simp)) (by simp),
      hnext]
    rfl

theorem parameters_takes {params : List Token} {tok : Token} {tail : List Token}
    (hparams : ∀ param ∈ params, param.kind = .ident)
    (htok : ¬ (tok.kind = .ident ∨ tok.kind.isReserved)) :
    ∀ rounds, (params ++ tok :: tail).length ≤ rounds →
      (parameters rounds (params ++ tok :: tail) : Except Stop _) =
        .ok (params.map Token.text, tok :: tail) := by
  induction params with
  | nil =>
    intro rounds hrounds
    obtain ⟨rounds, rfl⟩ := Nat.exists_eq_succ_of_ne_zero (Nat.ne_zero_of_lt hrounds)
    simp only [List.nil_append, parameters, enter_bind, liftM_eq, current, ok_bind, if_neg htok]
    rfl
  | cons param params ih =>
    intro rounds hrounds
    obtain ⟨rounds, rfl⟩ := Nat.exists_eq_succ_of_ne_zero (Nat.ne_zero_of_lt hrounds)
    have hparam : param.kind = .ident := hparams param (by simp)
    have hnext := ih (fun param' hparam' => hparams param' (by simp [hparam'])) rounds
      (by simpa using hrounds)
    simp only [List.cons_append, parameters, enter_bind, liftM_eq, current, ok_bind, hparam,
      true_or, if_true,
      expectName_cons hparam (List.append_ne_nil_of_right_ne_nil params (List.cons_ne_nil _ _)),
      hnext]
    rfl

end Repetitions

/-! ### Derivations -/

/-- What the rule of a symbol takes off the front, if it has enough room. -/
def Found (s : Symbol) (tokens : List Token) (e : Expr) : Prop :=
  ∃ enough, ∀ room, enough ≤ room → Takes s tokens e (s.rule room)

/-- There is enough room for all links of a repetition at once. -/
theorem exists_room_of_found {s : Symbol} {links : List Link}
    (h : ∀ l ∈ links, Found s l.tokens l.tree) :
    ∃ enough, ∀ room, enough ≤ room → ∀ l ∈ links, Takes s l.tokens l.tree (s.rule room) := by
  induction links with
  | nil => exact ⟨0, fun _ _ l hl => absurd hl List.not_mem_nil⟩
  | cons l links ih =>
    obtain ⟨first, hfirst⟩ := h l (by simp)
    obtain ⟨others, hothers⟩ := ih fun l' hl' => h l' (by simp [hl'])
    refine ⟨max first others, fun room hroom l' hl' => ?_⟩
    rcases List.mem_cons.mp hl' with rfl | hmem
    · exact hfirst room (by omega)
    · exact hothers room (by omega) l' hmem

/-- The expression inside brackets has one level less to open. -/
theorem expression_takes {tokens : List Token} {e : Expr} {enough room : Nat}
    (h : ∀ room, enough ≤ room → Takes .addition tokens e (Symbol.addition.rule room))
    (hroom : enough < room) : Takes .addition tokens e (expression room) := by
  obtain ⟨room, rfl⟩ := Nat.exists_eq_succ_of_ne_zero (Nat.ne_zero_of_lt hroom)
  exact h room (Nat.le_of_lt_succ hroom)

theorem Symbol.endsBefore_multiply {kind : Kind} (h : Symbol.multiply.endsBefore kind = true) :
    Symbol.unary.endsBefore kind = true ∧ multiplicative? kind = none := by
  simpa [Symbol.endsBefore] using h

theorem Symbol.endsBefore_addition {kind : Kind} (h : Symbol.addition.endsBefore kind = true) :
    Symbol.multiply.endsBefore kind = true ∧ additive? kind = none := by
  simpa [Symbol.endsBefore] using h

theorem bracketed_takes {opening closing : Token} {tokens : List Token} {e : Expr}
    {inner : Rule Expr} (hopening : opening.kind = .lparen) (hclosing : closing.kind = .rparen)
    (h : Takes .addition tokens e inner) :
    Takes .primary (opening :: (tokens ++ [closing])) e (primary inner) := by
  intro more hmore
  have hend : Symbol.addition.EndsAt (closing :: more) := by
    simp only [Symbol.EndsAt, hclosing]
    rfl
  simp only [List.cons_append, List.append_assoc, List.nil_append, primary, current, ok_bind,
    hopening, bracketed, enter_bind, liftM_eq, advance_append hend.ne_nil, h _ hend,
    expectClose_cons hclosing hmore.ne_nil]
  rfl

theorem literal_takes {tok : Token} {n : Nat} {inner : Rule Expr} (htok : tok.kind = .int)
    (hvalue : numeralValue? tok.text = some n) :
    Takes .primary [tok] (.num (Binary64.ofNat n)) (primary inner) := by
  intro more hmore
  simp only [List.singleton_append, primary, current, ok_bind, htok, literal, enter_bind, liftM_eq,
    advance_cons hmore.ne_nil, hvalue]
  rfl

theorem var_takes {name : Token} {inner : Rule Expr} (hname : name.kind = .ident) :
    Takes .primary [name] (.var name.text) (primary inner) := by
  intro more hmore
  rcases more with _ | ⟨tok, tail⟩
  · exact absurd rfl hmore.ne_nil
  have htok : tok.kind ≠ .lparen := by
    simpa [Symbol.EndsAt, Symbol.endsBefore] using hmore
  simp only [List.singleton_append, primary, current, ok_bind, hname, named, enter_bind, liftM_eq,
    peek_one, if_neg htok, advance_cons (List.cons_ne_nil _ _)]
  rfl

theorem called_takes {tokens : List Token} {e : Expr} {inner : Rule Expr}
    (hcall : Derives .call tokens e) (h : Takes .call tokens e (call inner)) :
    Takes .primary tokens e (primary inner) := by
  intro more hmore
  rcases more with _ | ⟨tok, tail⟩
  · exact absurd rfl hmore.ne_nil
  have htaken := h (tok :: tail) rfl
  -- a call starts with a name and an opening bracket, which is what the rule looks for
  obtain ⟨name, opening, rest, rfl, hname, hopening⟩ : ∃ name opening rest,
      tokens = name :: opening :: rest ∧ name.kind = .ident ∧ opening.kind = .lparen := by
    cases hcall with
    | emptyCall hname hopening => exact ⟨_, _, _, rfl, hname, hopening⟩
    | call hname hopening => exact ⟨_, _, _, rfl, hname, hopening⟩
  simp only [List.cons_append] at htaken ⊢
  simpa only [primary, current, ok_bind, hname, named, enter_bind, liftM_eq, peek_one,
    if_pos hopening] using htaken

theorem call_takes (inside : List Token) {name opening closing : Token} {args : List Expr}
    {inner : Rule Expr} (hname : name.kind = .ident) (hopening : opening.kind = .lparen)
    (hclosing : closing.kind = .rparen)
    (hargs : ∀ more,
      arguments inner (inside ++ closing :: more).length (inside ++ closing :: more) =
        .ok (args, closing :: more)) :
    Takes .call (name :: opening :: (inside ++ [closing])) (.call name.text args) (call inner) := by
  intro more hmore
  have hinside : inside ++ closing :: more ≠ [] := by simp
  simp only [List.cons_append, List.append_assoc, List.nil_append, call, enter_bind, liftM_eq,
    rounds_eq, expect_cons hname (List.cons_ne_nil _ _), expect_cons hopening hinside, ok_bind,
    hargs, expectClose_cons hclosing hmore.ne_nil]
  rfl

theorem letDeclaration_takes {word name equals semicolon : Token}
    {valueTokens nextTokens : List Token} {value next : Expr} {room : Nat}
    (hword : word.kind = .letWord) (hname : name.kind = .ident) (hequals : equals.kind = .equals)
    (hsemicolon : semicolon.kind = .semicolon)
    (hvalue : Takes .addition valueTokens value (expression room))
    (hnext : Takes .declaration nextTokens next (declaration room)) :
    Takes .declaration (word :: name :: equals :: (valueTokens ++ semicolon :: nextTokens))
      (.letIn name.text value next) (declaration (room + 1)) := by
  intro more hmore
  have hend : Symbol.addition.EndsAt (semicolon :: (nextTokens ++ more)) := by
    simp only [Symbol.EndsAt, hsemicolon]
    rfl
  simp only [List.cons_append, List.append_assoc, declaration, current, ok_bind, hword,
    letDeclaration, binding, enter_bind, liftM_eq]
  rw [advance_cons (List.cons_ne_nil _ _), ok_bind, expectName_cons hname (List.cons_ne_nil _ _),
    ok_bind, expect_cons hequals (List.append_ne_nil_of_right_ne_nil _ hend.ne_nil), ok_bind,
    hvalue _ hend, ok_bind,
    expect_cons hsemicolon (List.append_ne_nil_of_right_ne_nil _ hmore.ne_nil), ok_bind,
    hnext _ hmore]
  rfl

theorem fnDeclaration_takes {word name equals semicolon : Token}
    {params bodyTokens nextTokens : List Token} {body next : Expr} {room : Nat}
    (hword : word.kind = .fnWord) (hname : name.kind = .ident)
    (hparams : ∀ param ∈ params, param.kind = .ident) (hequals : equals.kind = .equals)
    (hsemicolon : semicolon.kind = .semicolon)
    (hbody : Takes .addition bodyTokens body (expression room))
    (hnext : Takes .declaration nextTokens next (declaration room)) :
    Takes .declaration
      (word :: name :: (params ++ equals :: (bodyTokens ++ semicolon :: nextTokens)))
      (.fnIn name.text (params.map Token.text) body next) (declaration (room + 1)) := by
  intro more hmore
  have hend : Symbol.addition.EndsAt (semicolon :: (nextTokens ++ more)) := by
    simp only [Symbol.EndsAt, hsemicolon]
    rfl
  have hequals' : ¬ (equals.kind = .ident ∨ equals.kind.isReserved) := by
    rw [hequals]
    decide
  simp only [List.cons_append, List.append_assoc, declaration, current, ok_bind, hword,
    fnDeclaration, binding, enter_bind, liftM_eq, rounds_eq]
  rw [advance_cons (List.cons_ne_nil _ _), ok_bind,
    expectName_cons hname (List.append_ne_nil_of_right_ne_nil _ (List.cons_ne_nil _ _)), ok_bind,
    parameters_takes hparams hequals' _ (Nat.le_refl _), ok_bind,
    expect_cons hequals (List.append_ne_nil_of_right_ne_nil _ hend.ne_nil), ok_bind,
    hbody _ hend, ok_bind,
    expect_cons hsemicolon (List.append_ne_nil_of_right_ne_nil _ hmore.ne_nil), ok_bind,
    hnext _ hmore]
  rfl

/-- A sign belongs to the rule above the primaries. -/
theorem Derives.exists_cons_of_primary {tokens : List Token} {e : Expr}
    (h : Derives .primary tokens e) : ∃ tok rest, tokens = tok :: rest ∧ tok.kind ≠ .minus := by
  cases h with
  | integer htok => exact ⟨_, _, rfl, by rw [htok]; decide⟩
  | var hname => exact ⟨_, _, rfl, by rw [hname]; decide⟩
  | bracketed hopening => exact ⟨_, _, rfl, by rw [hopening]; decide⟩
  | called h =>
    cases h with
    | emptyCall hname => exact ⟨_, _, rfl, by rw [hname]; decide⟩
    | call hname => exact ⟨_, _, rfl, by rw [hname]; decide⟩

/-- **What a symbol derives is taken by its rule**, with enough room. -/
theorem Derives.found {s : Symbol} {tokens : List Token} {e : Expr} (h : Derives s tokens e) :
    Found s tokens e := by
  induction h with
  | letIn hword hname hequals _ hsemicolon _ ihvalue ihnext =>
    obtain ⟨enough, hvalue⟩ := ihvalue
    obtain ⟨enough', hnext⟩ := ihnext
    refine ⟨max (enough + 1) enough' + 1, fun room hroom => ?_⟩
    obtain ⟨room, rfl⟩ := Nat.exists_eq_succ_of_ne_zero (Nat.ne_zero_of_lt hroom)
    have hvalue' := expression_takes hvalue (show enough < room by omega)
    exact letDeclaration_takes hword hname hequals hsemicolon hvalue' (hnext room (by omega))
  | fnIn hword hname hparams hequals _ hsemicolon _ ihbody ihnext =>
    obtain ⟨enough, hbody⟩ := ihbody
    obtain ⟨enough', hnext⟩ := ihnext
    refine ⟨max (enough + 1) enough' + 1, fun room hroom => ?_⟩
    obtain ⟨room, rfl⟩ := Nat.exists_eq_succ_of_ne_zero (Nat.ne_zero_of_lt hroom)
    have hbody' := expression_takes hbody (show enough < room by omega)
    exact fnDeclaration_takes hword hname hparams hequals hsemicolon hbody' (hnext room (by omega))
  | plain h ih =>
    obtain ⟨enough, htakes⟩ := ih
    refine ⟨enough + 1, fun room hroom more hmore => ?_⟩
    obtain ⟨room, rfl⟩ := Nat.exists_eq_succ_of_ne_zero (Nat.ne_zero_of_lt hroom)
    have hmore' : Symbol.addition.EndsAt more := by
      cases more with
      | nil => exact hmore
      | cons tok tail => exact hmore
    have htaken := expression_takes htakes hroom more hmore'
    obtain ⟨tok, rest, rfl, htok⟩ := h.starts (by decide)
    simp only [Symbol.rule, List.cons_append, declaration, enter_bind, liftM_eq, current,
      ok_bind] at htaken ⊢
    cases hkind : tok.kind <;> simp_all [startsExpression]
  | addition _ _ hfold ihfirst ihlinks =>
    obtain ⟨enough, hfirst⟩ := ihfirst
    obtain ⟨enough', hlinks⟩ := exists_room_of_found ihlinks
    refine ⟨max enough enough', fun room hroom => ?_⟩
    refine chained_takes (fun kind hkind => ?_) (fun _ => Symbol.endsBefore_addition)
      (hfirst room (Nat.max_le.mp hroom).1) (hlinks room (Nat.max_le.mp hroom).2) hfold
    rcases kind_of_additive? hkind with rfl | rfl <;> rfl
  | multiply _ _ hfold ihfirst ihlinks =>
    obtain ⟨enough, hfirst⟩ := ihfirst
    obtain ⟨enough', hlinks⟩ := exists_room_of_found ihlinks
    refine ⟨max enough enough', fun room hroom => ?_⟩
    refine chained_takes (fun kind hkind => ?_) (fun _ => Symbol.endsBefore_multiply)
      (hfirst room (Nat.max_le.mp hroom).1) (hlinks room (Nat.max_le.mp hroom).2) hfold
    rcases kind_of_multiplicative? hkind with rfl | rfl <;> rfl
  | @negative minus tokens e hminus _ ih =>
    obtain ⟨enough, htakes⟩ := ih
    refine ⟨enough, fun room hroom more hmore => ?_⟩
    have htaken := htakes room hroom more hmore
    simp only [Symbol.rule] at htaken
    have hmore := List.append_ne_nil_of_right_ne_nil tokens hmore.ne_nil
    simp only [Symbol.rule, List.cons_append, unary_of_minus hminus hmore, htaken, ok_bind]
  | unsigned h ih =>
    obtain ⟨enough, htakes⟩ := ih
    refine ⟨enough, fun room hroom more hmore => ?_⟩
    have htaken := htakes room hroom more hmore
    obtain ⟨tok, rest, rfl, htok⟩ := h.exists_cons_of_primary
    simp only [Symbol.rule, List.cons_append] at htaken ⊢
    rwa [unary_of_ne_minus htok]
  | integer htok hvalue => exact ⟨0, fun _ _ => literal_takes htok hvalue⟩
  | var hname => exact ⟨0, fun _ _ => var_takes hname⟩
  | bracketed hopening _ hclosing ih =>
    obtain ⟨enough, htakes⟩ := ih
    refine ⟨enough + 1, fun room hroom => ?_⟩
    exact bracketed_takes hopening hclosing (expression_takes htakes hroom)
  | called h ih =>
    obtain ⟨enough, htakes⟩ := ih
    exact ⟨enough, fun room hroom => called_takes h (htakes room hroom)⟩
  | emptyCall hname hopening hclosing =>
    refine ⟨0, fun _ _ => ?_⟩
    exact call_takes [] hname hopening hclosing fun more => arguments_closing hclosing
  | @call name opening closing tokens links comma first hname hopening hderives hlinks hmarks hcomma
      hclosing ihfirst ihlinks =>
    obtain ⟨enough, htakes⟩ := ihfirst
    obtain ⟨enough', htakesLinks⟩ := exists_room_of_found ihlinks
    refine ⟨max enough enough' + 1, fun room hroom => ?_⟩
    obtain ⟨room, rfl⟩ := Nat.exists_eq_succ_of_ne_zero (Nat.ne_zero_of_lt hroom)
    have hargs : ∀ more, arguments (expression (room + 1)) _
        (tokens ++ (links.flatMap Link.written ++ (comma.toList ++ closing :: more))) = _ :=
      fun more => arguments_takes hcomma hclosing hlinks (htakesLinks room (by omega)) hmarks _
        hderives (htakes room (by omega)) (Nat.le_refl _)
    have hcall := call_takes (tokens ++ (links.flatMap Link.written ++ comma.toList)) hname hopening
      hclosing fun more => by simpa only [List.append_assoc] using hargs more
    simpa only [List.append_assoc, Symbol.rule] using hcall

/-! ### Programs -/

theorem Derives.exists_room {body : List Token} {e : Expr} (h : Derives .declaration body e) :
    ∃ enough, ∀ room, enough ≤ room → ∀ (stop : Token) (tail : List Token), stop.kind = .eof →
      program room (body ++ stop :: tail) = .ok (e, stop :: tail) := by
  obtain ⟨enough, htakes⟩ := h.found
  refine ⟨enough, fun room hroom stop tail hstop => ?_⟩
  have hend : Symbol.declaration.EndsAt (stop :: tail) := by
    simp only [Symbol.EndsAt, hstop]
    rfl
  have htaken := htakes room hroom _ hend
  simp only [Symbol.rule] at htaken
  simp only [program, htaken, ok_bind, current, if_pos hstop]
  rfl

/-- Tokens have one tree at most, since a rule gives one answer. -/
theorem Derives.unique {body : List Token} {e e' : Expr} (h : Derives .declaration body e)
    (h' : Derives .declaration body e') : e = e' := by
  obtain ⟨enough, hprogram⟩ := h.exists_room
  obtain ⟨enough', hprogram'⟩ := h'.exists_room
  let stop : Token := ⟨.eof, "", 0⟩
  have htree := hprogram (max enough enough') (Nat.le_max_left _ _) stop [] rfl
  have htree' := hprogram' (max enough enough') (Nat.le_max_right _ _) stop [] rfl
  rw [htree] at htree'
  cases htree'
  rfl

theorem Ended.exists_eof {tokens : List Token} (h : Ended tokens) :
    ∃ stop : Token, stop.kind = .eof ∧ tokens = tokens.dropLast ++ [stop] := by
  induction h with
  | eof h => exact ⟨_, h, rfl⟩
  | cons _ hrest ih =>
    obtain ⟨stop, hstop, heq⟩ := ih
    refine ⟨stop, hstop, ?_⟩
    rw [List.dropLast_cons_of_ne_nil hrest.ne_nil, List.cons_append, ← heq]

section NestsBelow

variable {room : Nat} {tokens : List Token}

theorem not_tooDeep_of_nestsBelow (hended : Ended tokens) (hnests : NestsBelow room tokens)
    {p : Problem} {rest : List Token} (h : program room tokens = .error (.problem p rest)) :
    isTooDeep p = false := by
  have hmeets := program_reads room tokens hended
  rw [h] at hmeets
  obtain ⟨used, tok, tail, -, rfl, -, -, -, hdeep⟩ := hmeets
  cases hp : isTooDeep p with
  | false => rfl
  | true =>
    have hlevels := hdeep hp 0
    have hbelow := hnests.openLevels_lt
    simp only [openLevels] at hbelow
    omega

theorem program_eq_of_le (hended : Ended tokens) (hnests : NestsBelow room tokens)
    (hint : ∀ tok ∈ tokens, tok.kind = .int → (numeralValue? tok.text).isSome) {room' : Nat}
    (hroom : room ≤ room') : program room' tokens = program room tokens := by
  have hrepeats := program_repeated hroom tokens hended
  have hmeets := program_reads room tokens hended
  rcases houtcome : program room tokens with (⟨p, rest⟩ | f) | ⟨e, rest⟩
  · have hp := not_tooDeep_of_nestsBelow hended hnests houtcome
    rw [houtcome] at hrepeats
    rcases hrepeats with hdeep | ⟨used, tok, tail, rfl, rfl, hsame⟩
    · rw [hp] at hdeep
      cases hdeep
    · exact hsame tail Iff.rfl
  · rw [houtcome] at hmeets
    obtain ⟨tok, hmem, hbad⟩ := hmeets
    exact absurd (hint tok hmem) hbad
  · rw [houtcome] at hrepeats
    obtain ⟨used, tok, tail, rfl, rfl, hsame⟩ := hrepeats
    exact hsame tail Iff.rfl

theorem derives_of_readTokens {e : Expr} (hended : Ended tokens)
    (h : readTokens room tokens = .ok e) : Derives .declaration tokens.dropLast e := by
  have hmeets := program_reads room tokens hended
  rcases houtcome : program room tokens with (⟨p, rest⟩ | f) | ⟨e', rest⟩
  · simp [readTokens, houtcome] at h
  · simp [readTokens, houtcome] at h
  · obtain ⟨stop, tail, rfl, hstop⟩ := eof_of_program houtcome
    rw [houtcome] at hmeets
    obtain ⟨used, rfl, hrest, hderives⟩ := hmeets
    obtain rfl := hrest.eq_nil hstop
    simp only [readTokens, houtcome, Except.ok.injEq] at h
    rwa [List.dropLast_concat, ← h]

theorem readTokens_of_derives {e : Expr} (hended : Ended tokens) (hnests : NestsBelow room tokens)
    (h : Derives .declaration tokens.dropLast e) : readTokens room tokens = .ok e := by
  obtain ⟨stop, hstop, htokens⟩ := hended.exists_eof
  obtain ⟨enough, hprogram⟩ := h.exists_room
  have hint : ∀ tok ∈ tokens, tok.kind = .int → (numeralValue? tok.text).isSome := by
    intro tok htok hkind
    rw [htokens] at htok
    rcases List.mem_append.mp htok with hmem | hmem
    · exact (h.isTerminal tok hmem).2 hkind
    · obtain rfl := List.mem_singleton.mp hmem
      rw [hstop] at hkind
      cases hkind
  have hsame := program_eq_of_le hended hnests hint (Nat.le_max_left room enough)
  have hlarge := hprogram (max room enough) (Nat.le_max_right _ _) stop [] hstop
  rw [← htokens, hsame] at hlarge
  simp only [readTokens, hlarge]

end NestsBelow

/-- **The reader accepts exactly the grammar.**  Tokens that end in their only end token and
    nest below the room there is are read as a tree exactly if those before the end derive
    it; and no tokens, however deep, derive two trees. -/
theorem readTokens_eq_ok_iff_derives :
    (∀ (room : Nat) (tokens : List Token) (e : Expr), Ended tokens → NestsBelow room tokens →
      (readTokens room tokens = .ok e ↔ Derives .declaration tokens.dropLast e)) ∧
    ∀ (body : List Token) (e e' : Expr),
      Derives .declaration body e → Derives .declaration body e' → e = e' := by
  refine ⟨fun room tokens e hended hnests => ⟨fun h => ?_, fun h => ?_⟩, fun body e e' h h' => ?_⟩
  · exact derives_of_readTokens hended h
  · exact readTokens_of_derives hended hnests h
  · exact h.unique h'

/-- Tokens of `fn f a b = -(a - b - 12) * b; f(x, y,) / -z`. -/
def sampleProgram : List Token :=
  [(.fnWord, "fn"), (.ident, "f"), (.ident, "a"), (.ident, "b"), (.equals, "="), (.minus, "-"),
    (.lparen, "("), (.ident, "a"), (.minus, "-"), (.ident, "b"), (.minus, "-"), (.int, "12"),
    (.rparen, ")"), (.star, "*"), (.ident, "b"), (.semicolon, ";"), (.ident, "f"), (.lparen, "("),
    (.ident, "x"), (.comma, ","), (.ident, "y"), (.comma, ","), (.rparen, ")"), (.slash, "/"),
    (.minus, "-"), (.ident, "z"), (.eof, "")].map fun (kind, text) => ⟨kind, text, 0⟩

def sampleTree : Expr :=
  .fnIn "f" ["a", "b"]
    (.bin .mul (.neg (.bin .sub (.bin .sub (.var "a") (.var "b")) (.num (Binary64.ofNat 12))))
      (.var "b"))
    (.bin .div (.call "f" [.var "x", .var "y"]) (.neg (.var "z")))

theorem sampleProgram_derives :
    Ended sampleProgram ∧ NestsBelow 3 sampleProgram ∧
      Derives .declaration sampleProgram.dropLast sampleTree ∧
      ∀ e, Derives .declaration sampleProgram.dropLast e → e = sampleTree := by
  obtain ⟨hiff, hunique⟩ := readTokens_eq_ok_iff_derives
  have hended : Ended sampleProgram :=
    .append (show ∀ tok ∈ sampleProgram.dropLast, _ by decide) rfl
  have hnests : NestsBelow 3 sampleProgram := by decide
  have hderives := (hiff 3 sampleProgram sampleTree hended hnests).mp rfl
  exact ⟨hended, hnests, hderives, fun e h => hunique _ e sampleTree h hderives⟩

end Abacus.Parse
