/-
  Abacus/Proofs/Brackets.lean
  ===========================
  **Errors about brackets name the right bracket.**  To match brackets one keeps those that are
  not closed yet, the innermost first; `unclosed?` does so and knows nothing of the grammar.  The
  reader keeps no such list.  The brackets it has open are those of the rules under way, in
  groups and in calls.

  What ties the two together is how a rule leaves the brackets.  A rule that gives a value has
  closed what it opened and nothing else.  A rule that stops leaves some of its brackets open,
  and if the problem names a bracket, it is the innermost of these.  `Paired` says so of one
  outcome.  It adds up over the steps of a rule, so the only argument of its own is that for a
  bracket, what is read behind it, and the bracket that has to close it: `Paired.bracket`.
-/
import Abacus.Proofs.Layout
import Abacus.Proofs.Walk

namespace Abacus

/-- The bracket that a problem says is not closed. -/
def Problem.opening? : Problem → Option Token
  | .unclosed opening _ | .notClosing opening _ => some opening
  | _ => none

namespace Parse

/-! ### Matching brackets -/

/-- An opening bracket comes in front of those not closed yet, and a closing one takes the
    first of them away. -/
def matchBracket (unclosed : List Token) (tok : Token) : Option (List Token) :=
  match tok.kind, unclosed with
  | .lparen, _ => some (tok :: unclosed)
  | .rparen, [] => none
  | .rparen, _ :: outer => some outer
  | _, _ => some unclosed

/-- The brackets that are not closed after some tokens, if those in `before` were not closed
    before them; `none` if a closing bracket matches none. -/
def unclosed? (before tokens : List Token) : Option (List Token) :=
  tokens.foldlM matchBracket before

theorem unclosed?_append (before front back : List Token) :
    unclosed? before (front ++ back) =
      (unclosed? before front).bind fun unclosed => unclosed? unclosed back :=
  List.foldlM_append

theorem unclosed?_take_add {before tokens : List Token} {j : Nat}
    (h : unclosed? before (tokens.take j) = none) (n : Nat) :
    unclosed? before (tokens.take (j + n)) = none := by
  rw [List.take_add, unclosed?_append, h, Option.bind_none]

/-- Tokens that close none of the brackets before them, and leave open those in `opened`. -/
def Leaves (tokens opened : List Token) : Prop :=
  ∀ before, unclosed? before tokens = some (opened ++ before)

theorem Leaves.nil : Leaves [] [] := by
  intro before
  rfl

theorem Leaves.append {front back opened opened' : List Token} (hfront : Leaves front opened)
    (hback : Leaves back opened') : Leaves (front ++ back) (opened' ++ opened) := by
  intro before
  rw [unclosed?_append, hfront, Option.bind_some, hback, List.append_assoc]

theorem Leaves.other {tok : Token} (htok : isBracket tok = false) : Leaves [tok] [] := by
  intro before
  simp only [isBracket, decide_eq_false_iff_not, not_or] at htok
  have hstep : matchBracket before tok = some before := by
    unfold matchBracket
    split <;> simp_all
  simp only [unclosed?, List.foldlM_cons, List.foldlM_nil, hstep]
  rfl

theorem Leaves.opening {tok : Token} (htok : tok.kind = .lparen) : Leaves [tok] [tok] := by
  intro before
  simp only [unclosed?, List.foldlM_cons, List.foldlM_nil, matchBracket, htok]
  rfl

theorem Leaves.closed {opening closing : Token} {tokens : List Token}
    (hopening : opening.kind = .lparen) (hclosing : closing.kind = .rparen)
    (h : Leaves tokens []) : Leaves (opening :: (tokens ++ [closing])) [] := by
  intro before
  have hopened : Leaves (opening :: tokens) [opening] := (Leaves.opening hopening).append h
  rw [← List.cons_append, unclosed?_append, hopened, Option.bind_some]
  simp only [unclosed?, List.foldlM_cons, List.foldlM_nil, matchBracket, hclosing]
  rfl

/-! ### Outcomes -/

/-- A rule that made this of the tokens `ahead` has closed all it opened if it gave a value; if
    it met a problem that names a bracket, this is the innermost of those it left open. -/
def Paired {α : Type} (ahead : List Token) : Except Stop (α × List Token) → Prop
  | .ok (_, rest) => ∃ used, ahead = used ++ rest ∧ Ended rest ∧ Leaves used []
  | .error (.problem p rest) =>
    ∃ used opened, ahead = used ++ rest ∧ Leaves used opened ∧
      ∀ opening ∈ p.opening?, opened.head? = some opening
  | .error (.fault _) => True

theorem exists_problem_of_expectClose (opening : Token) {tok : Token} (rest : List Token)
    (htok : tok.kind ≠ .rparen) :
    ∃ p, expectClose opening (tok :: rest) = .error (.problem p (tok :: rest)) ∧
      p.opening? = some opening := by
  simp only [expectClose, current]
  split
  · contradiction
  · exact ⟨_, rfl, rfl⟩
  · exact ⟨_, rfl, rfl⟩

namespace Paired

variable {α β : Type} {ahead : List Token}

theorem pure {value : α} (hahead : Ended ahead) : Paired ahead (.ok (value, ahead)) :=
  ⟨[], rfl, hahead, .nil⟩

theorem refuse {p : Problem} (hp : p.opening? = none) :
    Paired ahead (.error (.problem p ahead) : Except Stop (α × List Token)) :=
  ⟨[], [], rfl, .nil, by simp [hp]⟩

theorem after {front : List Token} {x : Except Stop (α × List Token)} (h : Paired ahead x)
    (hfront : Leaves front []) : Paired (front ++ ahead) x := by
  match x, h with
  | .ok (value, rest), ⟨used, hused, hrest, hleaves⟩ =>
    exact ⟨front ++ used, by rw [hused, List.append_assoc], hrest, hfront.append hleaves⟩
  | .error (.problem p rest), ⟨used, opened, hused, hleaves, hp⟩ =>
    refine ⟨front ++ used, opened, by rw [hused, List.append_assoc], ?_, hp⟩
    simpa using hfront.append hleaves
  | .error (.fault _), _ => trivial

theorem bind {x : Except Stop (α × List Token)}
    {f : α × List Token → Except Stop (β × List Token)} (hx : Paired ahead x)
    (hf : ∀ value rest, Ended rest → Paired rest (f (value, rest))) : Paired ahead (x >>= f) := by
  match x, hx with
  | .ok (value, rest), ⟨used, hused, hrest, hleaves⟩ =>
    rw [hused]
    exact (hf value rest hrest).after hleaves
  | .error (.problem _ _), h => exact h
  | .error (.fault _), _ => trivial

/-- **A bracket and what has to close it.** -/
theorem bracket {opening : Token} {x : Except Stop (α × List Token)}
    (hopening : opening.kind = .lparen) (hx : Paired ahead x) (build : α → β) :
    Paired (opening :: ahead) (do
      let (value, rest) ← x
      let (_, rest) ← expectClose opening rest
      return (build value, rest)) := by
  match x, hx with
  | .error (.problem p rest), ⟨used, opened, hused, hleaves, hp⟩ =>
    -- a bracket that is named here was opened later than this one
    refine ⟨opening :: used, opened ++ [opening], by rw [hused]; rfl, ?_, ?_⟩
    · exact (Leaves.opening hopening).append hleaves
    · intro inner hinner
      rw [List.head?_append, hp inner hinner, Option.some_or]
  | .error (.fault _), _ => trivial
  | .ok (value, rest), ⟨used, hused, hrest, hleaves⟩ =>
    obtain ⟨tok, tail, rfl⟩ := hrest.exists_cons
    simp only [ok_bind]
    by_cases hclosing : tok.kind = .rparen
    · have htail := hrest.tail (by simp [hclosing])
      rw [expectClose_cons hclosing htail.ne_nil]
      refine ⟨opening :: (used ++ [tok]), by simp [hused], htail, ?_⟩
      exact hleaves.closed hopening hclosing
    · -- all brackets behind this one are closed, so it is the innermost
      obtain ⟨p, hp, hnamed⟩ := exists_problem_of_expectClose opening tail hclosing
      rw [hp]
      refine ⟨opening :: used, [opening], by rw [hused]; rfl, ?_, by simp [hnamed]⟩
      exact (Leaves.opening hopening).append hleaves

end Paired

theorem Raised.opening?_eq_none {p : Problem} (h : Raised p) : p.opening? = none := by
  cases h <;> rfl

theorem stepwise_paired : Stepwise fun _ => Paired where
  pure := .pure
  fault _ := trivial
  refuse hp := .refuse hp.opening?_eq_none
  cons htok hx := hx.after (.other htok)
  bind := .bind
  bracket := .bracket

theorem program_paired (room : Nat) {ahead : List Token} (hahead : Ended ahead) :
    Paired ahead (program room ahead) :=
  stepwise_paired.program room ahead hahead

/-! ### Sources -/

section Sources

variable {source : String} {tokens : List Token}

/-- Up to the token where reading stops every closing bracket has a match. -/
theorem exists_failsAt_of_rejected (htokens : Scan.tokenize source = .ok tokens) {p : Problem}
    {rest : List Token} (hrejected : parse source = .error (.problems [p]))
    (hstopped : program maxNesting tokens = .error (.problem p rest)) :
    ∃ k opened, FailsAt source tokens k p ∧ unclosed? [] (tokens.take k) = some opened ∧
      ∀ opening ∈ p.opening?, opened.head? = some opening := by
  have hended := ended_of_tokenize htokens
  have hreads := program_reads maxNesting tokens hended
  have hpaired := program_paired maxNesting hended
  rw [hstopped] at hreads hpaired
  obtain ⟨used, tok, tail, rfl, hsplit, -, habout, -⟩ := hreads
  obtain ⟨used', opened, hsplit', hleaves, hopening⟩ := hpaired
  -- both speak of what the reader has used up
  obtain rfl : used = used' := List.append_cancel_right (hsplit.symm.trans hsplit')
  have htake : tokens.take used.length = used := by rw [hsplit, List.take_left]
  have hdrop : tokens.drop used.length = tok :: tail := by rw [hsplit, List.drop_left]
  refine ⟨used.length, opened, ⟨hrejected, by rw [hdrop, hstopped], tok, ?_, habout.marks⟩, ?_,
    hopening⟩
  · rw [hsplit]
    simp
  · rw [htake, hleaves, List.append_nil]

theorem unclosed?_of_readTokens (hended : Ended tokens) {room : Nat} {e : Expr}
    (h : readTokens room tokens = .ok e) : unclosed? [] tokens = some [] := by
  have hpaired := program_paired room hended
  rcases hprogram : program room tokens with (⟨p, rest⟩ | f) | ⟨e', rest⟩
  · simp [readTokens, hprogram] at h
  · simp [readTokens, hprogram] at h
  · obtain ⟨tok, tail, rfl, heof⟩ := eof_of_program hprogram
    rw [hprogram] at hpaired
    obtain ⟨used, rfl, hrest, hleaves⟩ := hpaired
    obtain rfl := hrest.eq_nil heof
    have hall : Leaves (used ++ [tok]) [] := hleaves.append (.other (by simp [isBracket, heof]))
    exact hall []

/-- The first closing bracket that matches none is in place `j`. -/
structure FirstUnmatched (tokens : List Token) (j : Nat) : Prop where
  closing : ∃ tok, tokens[j]? = some tok ∧ tok.kind = .rparen
  alone : unclosed? [] (tokens.take j) = some []

theorem FirstUnmatched.unclosed?_eq_none {j : Nat} (h : FirstUnmatched tokens j) :
    unclosed? [] (tokens.take (j + 1)) = none := by
  obtain ⟨tok, htok, hkind⟩ := h.closing
  rw [List.take_add_one, htok, unclosed?_append, h.alone, Option.bind_some]
  simp only [unclosed?, Option.toList, List.foldlM_cons, matchBracket, hkind]
  rfl

theorem FirstUnmatched.le {j k : Nat} {opened : List Token} (h : FirstUnmatched tokens j)
    (hk : unclosed? [] (tokens.take k) = some opened) : k ≤ j := by
  by_contra hlt
  obtain ⟨n, rfl⟩ := Nat.exists_eq_add_of_le (Nat.not_le.mp hlt)
  rw [unclosed?_take_add h.unclosed?_eq_none n] at hk
  cases hk

/-- A diagnostic that reports a bracket in some place: it starts there, or its wording gives the
    place. -/
def ReportsBracketAt (place : Nat) (d : Diagnostic) : Prop :=
  (d.message = "Unclosed delimiter `(`, expected `)` before end of input" ∧ d.start = place) ∨
    ∃ found : Token, d.message =
      "Expected `)` to close `(` at " ++ toString place ++ ", found " ++ found.describe

theorem reportsBracketAt_of_opening? {p : Problem} {opening : Token}
    (h : p.opening? = some opening) : ReportsBracketAt opening.start p.diagnostic := by
  cases p with
  | unclosed first stop =>
    cases h
    exact .inl ⟨rfl, rfl⟩
  | notClosing first found =>
    cases h
    exact .inr ⟨found, rfl⟩
  | _ => cases h

/-- **Errors about brackets name the right bracket.**  A problem that names a bracket as not
    closed names the innermost one that is open at the token where reading stops, and reports
    its place.  A source whose brackets do not match is rejected, at the latest with the first
    closing bracket that matches none. -/
theorem bracket_errors (htokens : Scan.tokenize source = .ok tokens) :
    (∀ p opening, parse source = .error (.problems [p]) → p.opening? = some opening →
      ∃ k outer, FailsAt source tokens k p ∧
        unclosed? [] (tokens.take k) = some (opening :: outer) ∧
        ReportsBracketAt opening.start p.diagnostic) ∧
    (unclosed? [] tokens ≠ some [] → ∃ k p, FailsAt source tokens k p) ∧
    ∀ j, FirstUnmatched tokens j → ∃ k ≤ j, ∃ p, FailsAt source tokens k p := by
  rcases parse_of_tokenize htokens with ⟨e, hparse, hread⟩ | ⟨p, rest, hparse, hstopped⟩
  · have hclosed := unclosed?_of_readTokens (ended_of_tokenize htokens) hread
    refine ⟨fun p opening herror => ?_, fun hopen => absurd hclosed hopen, fun j hj => ?_⟩
    · rw [hparse] at herror
      cases herror
    · -- all brackets are closed, so every place is matched
      obtain ⟨tok, htok, -⟩ := hj.closing
      obtain ⟨hlt, -⟩ := List.getElem?_eq_some_iff.mp htok
      have hle := hj.le (k := tokens.length) (by rw [List.take_length, hclosed])
      omega
  · obtain ⟨k, opened, hfails, hopened, hnamed⟩ :=
      exists_failsAt_of_rejected htokens hparse hstopped
    refine ⟨fun p' opening herror hopening => ?_, fun _ => ⟨k, p, hfails⟩, fun j hj =>
      ⟨k, hj.le hopened, p, hfails⟩⟩
    obtain rfl : p = p' := by
      rw [hparse] at herror
      simpa using herror
    obtain ⟨outer, rfl⟩ := List.head?_eq_some_iff.mp (hnamed opening hopening)
    exact ⟨k, outer, hfails, hopened, reportsBracketAt_of_opening? hopening⟩

end Sources

/-- The tokens of `(f((1), 2; 3)))`, where the call is not closed before the semicolon and the
    last bracket matches none. -/
def mismatchedTokens : List Token :=
  [⟨.lparen, "(", 0⟩, ⟨.ident, "f", 1⟩, ⟨.lparen, "(", 2⟩, ⟨.lparen, "(", 3⟩, ⟨.int, "1", 4⟩,
    ⟨.rparen, ")", 5⟩, ⟨.comma, ",", 6⟩, ⟨.int, "2", 8⟩, ⟨.semicolon, ";", 9⟩, ⟨.int, "3", 11⟩,
    ⟨.rparen, ")", 12⟩, ⟨.rparen, ")", 13⟩, ⟨.rparen, ")", 14⟩, ⟨.eof, "", 15⟩]

theorem mismatchedTokens_bracket_errors :
    Scan.tokenize "(f((1), 2; 3)))" = .ok mismatchedTokens ∧
      parse "(f((1), 2; 3)))" =
        .error (.problems [.notClosing ⟨.lparen, "(", 2⟩ ⟨.semicolon, ";", 9⟩]) ∧
      (∃ k outer, FailsAt "(f((1), 2; 3)))" mismatchedTokens k
          (.notClosing ⟨.lparen, "(", 2⟩ ⟨.semicolon, ";", 9⟩) ∧
        unclosed? [] (mismatchedTokens.take k) = some (⟨.lparen, "(", 2⟩ :: outer)) ∧
      unclosed? [] mismatchedTokens ≠ some [] ∧ FirstUnmatched mismatchedTokens 12 ∧
      ∃ k ≤ 12, ∃ p, FailsAt "(f((1), 2; 3)))" mismatchedTokens k p := by
  have htokens : Scan.tokenize "(f((1), 2; 3)))" = .ok mismatchedTokens := by cbv
  have hparse : parse "(f((1), 2; 3)))" =
      .error (.problems [.notClosing ⟨.lparen, "(", 2⟩ ⟨.semicolon, ";", 9⟩]) := by
    simp only [parse, read, htokens]
    rfl
  have hunmatched : FirstUnmatched mismatchedTokens 12 :=
    ⟨⟨⟨.rparen, ")", 14⟩, rfl, rfl⟩, by decide⟩
  obtain ⟨hnamed, -, hfirst⟩ := bracket_errors htokens
  obtain ⟨k, outer, hfails, hopen, -⟩ := hnamed _ _ hparse rfl
  exact ⟨htokens, hparse, ⟨k, outer, hfails, hopen⟩, by decide, hunmatched, hfirst 12 hunmatched⟩

end Parse
end Abacus
