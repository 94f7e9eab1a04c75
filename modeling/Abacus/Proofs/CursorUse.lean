/-
  Abacus/Proofs/CursorUse.lean
  ============================
  **A cursor is safe under any use.**  Single steps and whole rules can be run from a cursor in
  any order, from the middle of a construct and after a failure.  `Does` says once what each
  operation can do to a cursor, on both of its exits; `step_safe` shows that it does nothing
  else and that there is a current token afterwards, and `safe_of_mem_use` carries this through
  every sequence of operations.
-/
import Abacus.Proofs.FirstError
import Abacus.Proofs.Progress

namespace Abacus.Parse.Cursor

/-! ### Operations -/

/-- What can be done with a cursor. -/
inductive Operation where
  | peek (offset : Nat)
  | advance
  | expect (kind : Kind) (what : String)
  | expectName (what : String)
  | parse (name : RuleName)
deriving DecidableEq, Repr

/-- What an operation gives. -/
inductive Answer where
  | token (tok : Token)
  | tree (e : Expr)

/-- An operation with its answer, and the cursor before and after it. -/
structure Step where
  before : Cursor
  operation : Operation
  answer : Except Stop Answer
  after : Cursor

def reply {α : Type} (answer : α → Answer) (outcome : Except Stop α × Cursor) :
    Except Stop Answer × Cursor :=
  (outcome.1.map answer, outcome.2)

/-- Does an operation, with room for so many open levels. -/
def perform (room : Nat) (c : Cursor) : Operation → Except Stop Answer × Cursor
  | .peek offset => (((c.look offset).map Answer.token).elim (.error (.fault .noToken)) .ok, c)
  | .advance => reply .token (c.run Parse.advance)
  | .expect kind what => reply .token (c.run (Parse.expect kind what))
  | .expectName what => reply .token (c.run (Parse.expectName what))
  | .parse name => reply .tree (c.run (name.rule room))

/-- An operation as a step. -/
def step (room : Nat) (c : Cursor) (operation : Operation) : Step :=
  ⟨c, operation, (c.perform room operation).1, (c.perform room operation).2⟩

/-- Does operations one after the other, whether they fail or not. -/
def use (room : Nat) (c : Cursor) : List Operation → List Step
  | [] => []
  | operation :: others =>
    c.step room operation :: (c.step room operation).after.use room others

/-- The places of the cursor, from before the first operation on. -/
def places (room : Nat) (c : Cursor) (operations : List Operation) : List Nat :=
  c.index :: (c.use room operations).map fun s => s.after.index

/-! ### What an operation does -/

/-- The current token. -/
def current? (c : Cursor) : Option Token :=
  c.tokens[c.index]?

/-- The cursor one token further on; the last token is never passed. -/
def next (c : Cursor) : Cursor :=
  { c with index := min (c.index + 1) (c.tokens.length - 1) }

/-- The tokens from one cursor to another. -/
def upTo (c after : Cursor) : List Token :=
  (c.tokens.take after.index).drop c.index

/-- What each operation can do.  Looking and refusing leave the cursor as it is.  A rule that gives
    a tree has used up tokens that its symbol derives; one that does not has stopped at the token
    that its problem is about, and not for lack of room where there was a level for each token. -/
inductive Does (room : Nat) : Cursor → Operation → Except Stop Answer → Cursor → Prop where
  | peek {c : Cursor} {offset : Nat} {tok : Token}
      (htok : c.tokens[min (c.index + offset) (c.tokens.length - 1)]? = some tok) :
      Does room c (.peek offset) (.ok (.token tok)) c
  | advance {c : Cursor} {tok : Token} (htok : c.current? = some tok) :
      Does room c .advance (.ok (.token tok)) c.next
  | expect {c : Cursor} {what : String} {tok : Token} (htok : c.current? = some tok) :
      Does room c (.expect tok.kind what) (.ok (.token tok)) c.next
  | unexpected {c : Cursor} {kind : Kind} {what : String} {tok : Token}
      (htok : c.current? = some tok) (hkind : tok.kind ≠ kind) :
      Does room c (.expect kind what) (.error (.problem (.expected what tok) c.ahead)) c
  | expectName {c : Cursor} {what : String} {tok : Token} (htok : c.current? = some tok)
      (hkind : tok.kind = .ident) : Does room c (.expectName what) (.ok (.token tok)) c.next
  | reserved {c : Cursor} {what : String} {tok : Token} (htok : c.current? = some tok)
      (hkind : tok.kind.isReserved = true) :
      Does room c (.expectName what) (.error (.problem (.reserved tok) c.ahead)) c
  | unnamed {c : Cursor} {what : String} {tok : Token} (htok : c.current? = some tok)
      (hkind : tok.kind ≠ .ident) (hreserved : tok.kind.isReserved = false) :
      Does room c (.expectName what) (.error (.problem (.expected what tok) c.ahead)) c
  | parse {c after : Cursor} {name : RuleName} {e : Expr} (hindex : c.index < after.index)
      (hderives : Derives name.symbol (c.upTo after) e) :
      Does room c (.parse name) (.ok (.tree e)) after
  | stop {c after : Cursor} {name : RuleName} {p : Problem} {tok : Token}
      (hindex : c.index ≤ after.index) (htok : after.current? = some tok) (habout : IsAbout tok p)
      (hmarks : Marks p tok) (hroom : c.ahead.length ≤ room → isTooDeep p = false) :
      Does room c (.parse name) (.error (.problem p after.ahead)) after

/-- A cursor on some tokens, with a current token. -/
structure On (tokens : List Token) (c : Cursor) : Prop where
  same : c.tokens = tokens
  inside : c.index < c.tokens.length

/-- A step on some tokens that does what its operation can do, and does not go back. -/
structure Step.Safe (room : Nat) (tokens : List Token) (s : Step) : Prop where
  before : On tokens s.before
  after : On tokens s.after
  forward : s.before.index ≤ s.after.index
  does : Does room s.before s.operation s.answer s.after

/-! ### Moving -/

section Moving

variable {tokens : List Token} {c : Cursor}

theorem moveTo_ahead (c : Cursor) : c.moveTo c.ahead = c := by
  simp [moveTo]

theorem ahead_moveTo {used rest : List Token} (h : c.ahead = used ++ rest) :
    (c.moveTo rest).ahead = rest := by
  have hdrop : (c.moveTo rest).ahead = c.ahead.drop used.length := by
    rw [ahead, index_moveTo h, ahead, List.drop_drop]
    rfl
  rw [hdrop, h, List.drop_left]

theorem upTo_moveTo {used rest : List Token} (h : c.ahead = used ++ rest) :
    c.upTo (c.moveTo rest) = used := by
  rw [upTo, index_moveTo h, List.drop_take, Nat.add_sub_cancel_left]
  exact (congrArg (List.take used.length) h).trans List.take_left

theorem current?_eq_head? (c : Cursor) : c.current? = c.ahead.head? := by
  rw [current?, ahead, List.head?_drop]

theorem current?_of_ahead {tok : Token} {rest : List Token} (h : c.ahead = tok :: rest) :
    c.current? = some tok := by
  rw [current?_eq_head?, h]
  rfl

theorem current?_moveTo {used tail : List Token} {tok : Token} (h : c.ahead = used ++ tok :: tail) :
    (c.moveTo (tok :: tail)).current? = some tok :=
  current?_of_ahead (ahead_moveTo h)

theorem On.ended (h : On tokens c) (hended : Ended tokens) : Ended c.ahead := by
  have hdrop := (h.same ▸ hended : Ended c.tokens).drop h.inside
  exact hdrop

theorem On.moveTo (h : On tokens c) {used rest : List Token} (hused : c.ahead = used ++ rest)
    (hrest : rest ≠ []) : On tokens (c.moveTo rest) :=
  ⟨h.same, index_moveTo_lt hused hrest⟩

theorem On.next (h : On tokens c) : On tokens c.next := by
  refine ⟨h.same, ?_⟩
  have hinside := h.inside
  simp only [Cursor.next]
  omega

theorem index_le_next (h : On tokens c) : c.index ≤ c.next.index := by
  have hinside := h.inside
  simp only [next]
  omega

/-- Taking the current token moves the cursor on by one, up to the last token. -/
theorem run_of_eq_advance {rule : Rule Token} {tok : Token} {rest : List Token}
    (hahead : c.ahead = tok :: rest) (h : rule c.ahead = Parse.advance c.ahead) :
    c.run rule = (.ok tok, c.next) := by
  have hlength : c.tokens.length - c.index = rest.length + 1 := by
    have hdrop := congrArg List.length hahead
    rwa [ahead, List.length_drop] at hdrop
  rw [hahead] at h
  cases rest with
  | nil =>
    have hstays : c.next = c := by
      rw [List.length_nil] at hlength
      obtain ⟨tokens, index⟩ := c
      simp only [next, mk.injEq, true_and]
      dsimp only at hlength
      omega
    simp only [run, hahead, h, Parse.advance, hstays]
    rw [← hahead, moveTo_ahead]
  | cons tok' rest =>
    have hmoves : c.moveTo (tok' :: rest) = c.next := by
      rw [List.length_cons] at hlength
      simp only [moveTo, next, hahead, List.length_cons, mk.injEq, true_and]
      omega
    simp only [run, hahead, h, Parse.advance, hmoves]

theorem run_of_refused {α : Type} {rule : Rule α} {p : Problem}
    (h : rule c.ahead = .error (.problem p c.ahead)) :
    c.run rule = (.error (.problem p c.ahead), c) := by
  simp only [run, h, moveTo_ahead]

end Moving

/-! ### Single operations -/

section Operations

variable {tokens : List Token} {c : Cursor} {room : Nat}

theorem look_eq_some (h : On tokens c) (offset : Nat) :
    ∃ tok, c.look offset = some tok ∧
      c.tokens[min (c.index + offset) (c.tokens.length - 1)]? = some tok := by
  have hinside := h.inside
  have hplace : (0 : Int) ≤ c.index + offset := by omega
  have hnat : ((c.index : Int) + offset).toNat = c.index + offset := by omega
  simp only [look, if_pos hplace, hnat]
  by_cases hfar : c.index + offset < c.tokens.length
  · refine ⟨c.tokens[c.index + offset], ?_, ?_⟩
    · rw [List.getElem?_eq_getElem hfar, Option.some_or]
    · rw [Nat.min_eq_left (by omega), List.getElem?_eq_getElem hfar]
  · have hlast : c.tokens.length - 1 < c.tokens.length := by omega
    refine ⟨c.tokens[c.tokens.length - 1], ?_, ?_⟩
    · rw [List.getElem?_eq_none (by omega), Option.none_or, List.getLast?_eq_getElem?,
        List.getElem?_eq_getElem hlast]
    · rw [Nat.min_eq_right (by omega), List.getElem?_eq_getElem hlast]

theorem peek_safe (h : On tokens c) (offset : Nat) :
    (c.step room (.peek offset)).Safe room tokens := by
  obtain ⟨tok, hlook, htok⟩ := look_eq_some h offset
  refine ⟨h, h, le_rfl, ?_⟩
  simp only [step, perform, hlook]
  exact .peek htok

/-- An operation that takes the current token is safe if it may take it. -/
theorem taking_safe {operation : Operation} {rule : Rule Token} {tok : Token} {rest : List Token}
    (h : On tokens c) (hahead : c.ahead = tok :: rest)
    (hperform : c.perform room operation = reply .token (c.run rule))
    (hrule : rule c.ahead = Parse.advance c.ahead)
    (hdoes : Does room c operation (.ok (.token tok)) c.next) :
    (c.step room operation).Safe room tokens := by
  rw [run_of_eq_advance hahead hrule] at hperform
  refine ⟨h, ?_, ?_, ?_⟩
  all_goals simp only [step, hperform, reply]
  · exact h.next
  · exact index_le_next h
  · exact hdoes

/-- An operation that refuses the current token is safe if it may refuse it. -/
theorem refusing_safe {operation : Operation} {rule : Rule Token} {p : Problem}
    (h : On tokens c) (hperform : c.perform room operation = reply .token (c.run rule))
    (hrule : rule c.ahead = .error (.problem p c.ahead))
    (hdoes : Does room c operation (.error (.problem p c.ahead)) c) :
    (c.step room operation).Safe room tokens := by
  rw [run_of_refused hrule] at hperform
  refine ⟨h, ?_, ?_, ?_⟩
  all_goals simp only [step, hperform, reply]
  · exact h
  · exact le_rfl
  · exact hdoes

section Taking

variable {tok : Token} {rest : List Token}

theorem advance_safe (h : On tokens c) (hahead : c.ahead = tok :: rest) :
    (c.step room .advance).Safe room tokens :=
  taking_safe h hahead rfl rfl (.advance (current?_of_ahead hahead))

theorem expect_safe (h : On tokens c) (hahead : c.ahead = tok :: rest) (kind : Kind)
    (what : String) : (c.step room (.expect kind what)).Safe room tokens := by
  have htok := current?_of_ahead hahead
  by_cases hkind : tok.kind = kind
  · subst hkind
    refine taking_safe h hahead rfl ?_ (.expect htok)
    simp only [Parse.expect, hahead, current, if_true]
  · refine refusing_safe h rfl ?_ (.unexpected htok hkind)
    simp only [Parse.expect, hahead, current, if_neg hkind]

theorem expectName_safe (h : On tokens c) (hahead : c.ahead = tok :: rest) (what : String) :
    (c.step room (.expectName what)).Safe room tokens := by
  have htok := current?_of_ahead hahead
  by_cases hreserved : tok.kind.isReserved = true
  · refine refusing_safe h rfl ?_ (.reserved htok hreserved)
    simp only [Parse.expectName, hahead, current, if_pos hreserved]
  · by_cases hkind : tok.kind = .ident
    · refine taking_safe h hahead rfl ?_ (.expectName htok hkind)
      simp only [Parse.expectName, Parse.expect, hahead, current, if_neg hreserved, if_pos hkind]
    · have hfree := Bool.eq_false_of_not_eq_true hreserved
      refine refusing_safe h rfl ?_ (.unnamed htok hkind hfree)
      simp only [Parse.expectName, Parse.expect, hahead, current, if_neg hreserved, if_neg hkind]

end Taking

theorem parse_safe (h : On tokens c) (hended : Ended tokens)
    (hnumerals : ∀ tok ∈ tokens, tok.kind = .int → (numeralValue? tok.text).isSome)
    (name : RuleName) : (c.step room (.parse name)).Safe room tokens := by
  have hahead := h.ended hended
  obtain ⟨levels, -, hreads⟩ := name.reads room
  have hmeets := hreads c.ahead hahead
  rcases hrule : name.rule room c.ahead with (⟨p, left⟩ | fault) | ⟨e, left⟩
  · -- The rule stopped: the first token left is the one its problem is about.
    rw [hrule] at hmeets
    obtain ⟨used, tok, tail, rfl, hused, -, habout, -⟩ := hmeets
    have hindex := index_le_moveTo hused
    have hroom : c.ahead.length ≤ room → isTooDeep p = false := fun hroom =>
      name.not_tooDeep hahead hroom hrule
    have hdoes : Does room c (.parse name)
        (.error (.problem p (c.moveTo (tok :: tail)).ahead)) (c.moveTo (tok :: tail)) :=
      .stop hindex (current?_moveTo hused) habout habout.marks hroom
    rw [ahead_moveTo hused] at hdoes
    refine ⟨h, ?_, ?_, ?_⟩
    all_goals simp only [step, perform, reply, run, hrule]
    · exact h.moveTo hused (List.cons_ne_nil _ _)
    · exact hindex
    · exact hdoes
  · -- A fault would need an integer that is no numeral.
    rw [hrule] at hmeets
    obtain ⟨tok, hmem, hnumeral⟩ := hmeets
    rw [ahead, h.same] at hmem
    exact absurd (hnumerals tok (List.mem_of_mem_drop hmem)) hnumeral
  · -- The rule gave a tree: the tokens used up derive it, and there is at least one.
    rw [hrule] at hmeets
    obtain ⟨used, hused, hrest, hderives⟩ := hmeets
    have hindex := index_lt_moveTo hused hderives.ne_nil
    rw [← upTo_moveTo hused] at hderives
    refine ⟨h, ?_, ?_, ?_⟩
    all_goals simp only [step, perform, reply, run, hrule]
    · exact h.moveTo hused hrest.ne_nil
    · exact hindex.le
    · exact .parse hindex hderives

end Operations

/-! ### Sequences of operations -/

section Sequences

variable {tokens : List Token} (hended : Ended tokens)
  (hnumerals : ∀ tok ∈ tokens, tok.kind = .int → (numeralValue? tok.text).isSome)

include hended hnumerals

theorem step_safe {c : Cursor} (h : On tokens c) (room : Nat) (operation : Operation) :
    (c.step room operation).Safe room tokens := by
  obtain ⟨tok, rest, hahead⟩ := (h.ended hended).exists_cons
  cases operation with
  | peek offset => exact peek_safe h offset
  | advance => exact advance_safe h hahead
  | expect kind what => exact expect_safe h hahead kind what
  | expectName what => exact expectName_safe h hahead what
  | parse name => exact parse_safe h hended hnumerals name

/-- What one step keeps, every step of a sequence finds. -/
theorem safe_of_mem_use {c : Cursor} (h : On tokens c) (room : Nat)
    (operations : List Operation) : ∀ s ∈ c.use room operations, s.Safe room tokens := by
  induction operations generalizing c with
  | nil => simp [use]
  | cons operation others ih =>
    have hfirst := step_safe hended hnumerals h room operation
    intro s hs
    rcases List.mem_cons.mp hs with rfl | hs
    · exact hfirst
    · exact ih hfirst.after s hs

theorem places_sorted {c : Cursor} (h : On tokens c) (room : Nat) (operations : List Operation) :
    (c.places room operations).Pairwise (· ≤ ·) := by
  induction operations generalizing c with
  | nil => simp [places, use]
  | cons operation others ih =>
    have hfirst := step_safe hended hnumerals h room operation
    have hothers := ih hfirst.after
    refine List.pairwise_cons.mpr ⟨fun place hplace => ?_, hothers⟩
    rcases List.mem_cons.mp hplace with rfl | hplace
    · exact hfirst.forward
    · exact hfirst.forward.trans (List.rel_of_pairwise_cons hothers hplace)

end Sequences

/-- **A cursor is safe and goes forward under any use.**  On the tokens of a text, and whatever is
    done with a cursor that starts before them, there is always a current token, the end token is
    never passed, no step goes back, and each operation does what `Does` says, on both exits. -/
theorem use_safe {source : String} {tokens : List Token}
    (htokens : Scan.tokenize source = .ok tokens) (room : Nat) (operations : List Operation) :
    Ended tokens ∧ ((start tokens).places room operations).Pairwise (· ≤ ·) ∧
      ∀ s ∈ (start tokens).use room operations, s.Safe room tokens := by
  have hended := ended_of_tokenize htokens
  have hnumerals := numeral_of_tokenize htokens
  have hstart : On tokens (start tokens) := ⟨rfl, List.length_pos_of_ne_nil hended.ne_nil⟩
  exact ⟨hended, places_sorted hended hnumerals hstart room operations,
    safe_of_mem_use hended hnumerals hstart room operations⟩

/-- The tokens of `(2 3)+x`, whose bracket is not closed where it should be. -/
def unclosedTokens : List Token :=
  [⟨.lparen, "(", 0⟩, ⟨.int, "2", 1⟩, ⟨.int, "3", 3⟩, ⟨.rparen, ")", 4⟩, ⟨.plus, "+", 5⟩,
    ⟨.ident, "x", 6⟩, ⟨.eof, "", 7⟩]

/-- A use that goes on after each of three failures. -/
def stubbornUse : List Operation :=
  [.parse .addition, .parse .unary, .expect .plus "an operator", .advance, .parse .primary,
    .peek 9]

theorem stubbornUse_safe :
    Scan.tokenize "(2 3)+x" = .ok unclosedTokens ∧
    (start unclosedTokens).places 2 stubbornUse = [0, 2, 3, 3, 4, 4, 4] ∧
    Ended unclosedTokens ∧ ((start unclosedTokens).places 2 stubbornUse).Pairwise (· ≤ ·) ∧
      ∀ s ∈ (start unclosedTokens).use 2 stubbornUse, s.Safe 2 unclosedTokens := by
  have htokens : Scan.tokenize "(2 3)+x" = .ok unclosedTokens := by cbv
  exact ⟨htokens, by decide, use_safe htokens 2 stubbornUse⟩

end Abacus.Parse.Cursor
