/-
  Abacus/Proofs/FirstError.lean
  =============================
  **Syntax errors are found at the first token that makes the input hopeless.**  Up to the
  token where reading stops some program goes on, and from that token on none does.

  The first half is the `viable` part of `Soundness`.  The second half puts `Completeness` and
  `Locality` together: a program that went on past the current token would be read by a reader
  with enough room, while that reader stops at the same token as the one that gave up.
-/
import Abacus.Proofs.Completeness
import Abacus.Proofs.Scan

namespace Abacus.Parse

/-- A token at place `k` up to which the tokens could be those of a program, and with which
    they cannot; if it is the end token, those before it are no program. -/
structure FirstHopeless (tokens : List Token) (k : Nat) (tok : Token) : Prop where
  current : tokens[k]? = some tok
  viable : Viable .declaration (tokens.take k)
  hopeless : tok.kind ≠ .eof → ¬ Viable .declaration (tokens.take (k + 1))
  incomplete : tok.kind = .eof → ∀ e, ¬ Derives .declaration (tokens.take k) e

/-- A diagnostic that marks a token or, for input that ends inside brackets, a stretch up to
    the end token. -/
def Marks (p : Problem) (tok : Token) : Prop :=
  (p.diagnostic.start = tok.start ∧ p.diagnostic.stop = tok.stop) ∨
    (tok.kind = .eof ∧ (∃ opening, p = .unclosed opening tok) ∧ p.diagnostic.stop = tok.start)

theorem IsAbout.marks {p : Problem} {tok : Token} (h : IsAbout tok p) : Marks p tok := by
  cases p with
  | malformedNumber | strayCharacter => exact absurd h id
  | unclosed opening stop =>
    obtain ⟨rfl, heof⟩ := h
    exact .inr ⟨heof, ⟨opening, rfl⟩, rfl⟩
  | expected what found | reserved found | notClosing opening found | noExpression found
  | leftover found | tooDeep found =>
    obtain rfl : found = tok := h
    exact .inl ⟨rfl, rfl⟩

section Hopeless

variable {room : Nat} {used tail : List Token} {tok : Token} {p : Problem}

theorem program_error_of_le (hended : Ended (used ++ tok :: tail))
    (hnests : NestsBelow room (used ++ tok :: tail))
    (h : program room (used ++ tok :: tail) = .error (.problem p (tok :: tail)))
    {room' : Nat} (hroom : room ≤ room') {tail' : List Token} (htail : tail' = [] ↔ tail = []) :
    program room' (used ++ tok :: tail') = .error (.problem p (tok :: tail')) := by
  have hrepeats := program_repeated hroom _ hended
  rw [h] at hrepeats
  rcases hrepeats with hdeep | ⟨used', tok', tail₀, hrest, hused, hsame⟩
  · rw [not_tooDeep_of_nestsBelow hended hnests h] at hdeep
    cases hdeep
  · obtain ⟨rfl, rfl⟩ := List.cons.inj hrest
    obtain rfl := List.append_cancel_right hused
    exact hsame tail' htail

theorem not_viable_of_program_error (hended : Ended (used ++ tok :: tail))
    (hnests : NestsBelow room (used ++ tok :: tail))
    (h : program room (used ++ tok :: tail) = .error (.problem p (tok :: tail)))
    (htok : tok.kind ≠ .eof) : ¬ Viable .declaration (used ++ [tok]) := by
  rintro ⟨suffix, e, hderives⟩
  obtain ⟨enough, hprogram⟩ := hderives.exists_room
  let stop : Token := ⟨.eof, "", 0⟩
  have hgood := hprogram (max room enough) (Nat.le_max_right _ _) stop [] rfl
  have htail : suffix ++ [stop] = [] ↔ tail = [] := by
    have htail := (hended.suffix.tail htok).ne_nil
    simp [htail]
  have hbad := program_error_of_le hended hnests h (Nat.le_max_left room enough) htail
  rw [List.append_assoc, List.append_assoc, List.singleton_append] at hgood
  rw [hgood] at hbad
  cases hbad

theorem not_derives_of_program_error (hended : Ended (used ++ tok :: tail))
    (hnests : NestsBelow room (used ++ tok :: tail))
    (h : program room (used ++ tok :: tail) = .error (.problem p (tok :: tail)))
    (htok : tok.kind = .eof) (e : Expr) : ¬ Derives .declaration used e := by
  intro hderives
  obtain ⟨enough, hprogram⟩ := hderives.exists_room
  have hgood := hprogram (max room enough) (Nat.le_max_right _ _) tok tail htok
  have hbad := program_error_of_le hended hnests h (Nat.le_max_left room enough) Iff.rfl
  rw [hgood] at hbad
  cases hbad

end Hopeless

theorem firstHopeless_of_program_error {room : Nat} {tokens rest : List Token} {p : Problem}
    (hended : Ended tokens) (hnests : NestsBelow room tokens)
    (h : program room tokens = .error (.problem p rest)) :
    ∃ k tok, rest = tokens.drop k ∧ FirstHopeless tokens k tok ∧ Marks p tok := by
  have hmeets := program_reads room tokens hended
  rw [h] at hmeets
  obtain ⟨used, tok, tail, rfl, rfl, -, habout, hviable, -⟩ := hmeets
  have htake : (used ++ tok :: tail).take (used.length + 1) = used ++ [tok] := by
    rw [← List.singleton_append, ← List.append_assoc]
    exact List.take_left' (by simp)
  refine ⟨used.length, tok, by simp, ⟨by simp, by simpa using hviable, ?_, ?_⟩, habout.marks⟩
  · intro htok
    rw [htake]
    exact not_viable_of_program_error hended hnests h htok
  · intro htok e
    rw [List.take_left]
    exact not_derives_of_program_error hended hnests h htok e

/-- **The first hopeless token.**  A source that is made of tokens, nests below the limit and
    is rejected has one problem.  It is met with a token current up to which some program, of
    any nesting, goes on, and which no program has there; and it is about that token. -/
theorem parse_error_at_firstHopeless {source : String} {tokens : List Token} {r : Rejection}
    (htokens : Scan.tokenize source = .ok tokens) (hnests : NestsBelow maxNesting tokens)
    (h : parse source = .error r) :
    ∃ p k tok, program maxNesting tokens = .error (.problem p (tokens.drop k)) ∧
      FirstHopeless tokens k tok ∧ r = .problems [p] ∧ r.diagnostics = [p.diagnostic] ∧
      Marks p tok := by
  have hended := ended_of_tokenize htokens
  have hmeets := program_reads maxNesting tokens hended
  simp only [parse, read, htokens, readTokens] at h
  rcases houtcome : program maxNesting tokens with (⟨p, rest⟩ | f) | ⟨e, rest⟩
  · rw [houtcome] at h
    obtain rfl := Except.error.inj h
    obtain ⟨k, tok, rfl, hfirst, hmarks⟩ := firstHopeless_of_program_error hended hnests houtcome
    exact ⟨p, k, tok, rfl, hfirst, rfl, rfl, hmarks⟩
  · -- the integers of a source are numerals, so there is no fault
    rw [houtcome] at hmeets
    obtain ⟨tok, hmem, hbad⟩ := hmeets
    exact absurd (numeral_of_tokenize htokens tok hmem) hbad
  · rw [houtcome] at h
    cases h

/-- The tokens of `fn f x = (x + 2; f(1)`, where the bracket is not closed. -/
def brokenTokens : List Token :=
  [⟨.fnWord, "fn", 0⟩, ⟨.ident, "f", 3⟩, ⟨.ident, "x", 5⟩, ⟨.equals, "=", 7⟩, ⟨.lparen, "(", 9⟩,
    ⟨.ident, "x", 10⟩, ⟨.plus, "+", 12⟩, ⟨.int, "2", 14⟩, ⟨.semicolon, ";", 15⟩,
    ⟨.ident, "f", 17⟩, ⟨.lparen, "(", 18⟩, ⟨.int, "1", 19⟩, ⟨.rparen, ")", 20⟩, ⟨.eof, "", 21⟩]

theorem brokenTokens_at_firstHopeless :
    Scan.tokenize "fn f x = (x + 2; f(1)" = .ok brokenTokens ∧
      NestsBelow maxNesting brokenTokens ∧
      parse "fn f x = (x + 2; f(1)" =
        .error (.problems [.notClosing ⟨.lparen, "(", 9⟩ ⟨.semicolon, ";", 15⟩]) ∧
      ∃ p k tok, program maxNesting brokenTokens = .error (.problem p (brokenTokens.drop k)) ∧
        FirstHopeless brokenTokens k tok ∧ Marks p tok := by
  have htokens : Scan.tokenize "fn f x = (x + 2; f(1)" = .ok brokenTokens := by cbv
  have hnests : NestsBelow maxNesting brokenTokens := by decide
  have herror : parse "fn f x = (x + 2; f(1)" =
      .error (.problems [.notClosing ⟨.lparen, "(", 9⟩ ⟨.semicolon, ";", 15⟩]) := by
    simp only [parse, read, htokens]
    rfl
  obtain ⟨p, k, tok, hprogram, hfirst, -, -, hmarks⟩ :=
    parse_error_at_firstHopeless htokens hnests herror
  exact ⟨htokens, hnests, herror, p, k, tok, hprogram, hfirst, hmarks⟩

end Abacus.Parse
