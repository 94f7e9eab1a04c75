/-
  Abacus/Proofs/Layout.lean
  =========================
  **Layout does not matter.**  A row of lexemes can be written down in many ways: with any
  blanks around the lexemes, as long as two neighbours that could be taken for one word or
  number are kept apart.  All of them are cut into the same tokens, are read as the same tree,
  and if they are no program they fail at the same token.

  That the trees agree is `Derives.relocate`.  That the failures agree needs no look at the
  reader: `FirstError` says what the token is where it stops, in words that do not mention
  places, and there is only one such token.
-/
import Abacus.Proofs.FirstError
import Abacus.Proofs.RoundTrip

namespace Abacus

/-! ### Layouts -/

namespace Scan

/-- A lexeme with the blanks in front of it. -/
structure Part where
  gap : String
  lexeme : Lexeme
  blank : Text.isBlankLine gap = true
  isLexeme : IsLexeme lexeme.kind lexeme.text.toList

/-- A way to write lexemes down one after the other. -/
structure Layout where
  parts : List Part
  last : String
  blank_last : Text.isBlankLine last = true
  apart : parts.IsChain fun before after =>
    isOpenEnded before.lexeme.kind = true → isOpenEnded after.lexeme.kind = true →
      after.gap ≠ ""

def Part.chars (part : Part) : List Char :=
  part.gap.toList ++ part.lexeme.text.toList

def Layout.lexemes (layout : Layout) : List Lexeme :=
  layout.parts.map Part.lexeme

def Layout.source (layout : Layout) : String :=
  String.ofList (layout.parts.flatMap Part.chars) ++ layout.last

/-! ### What a layout spells -/

theorem isNumberPart_of_isBlank {c : Char} (h : Text.isBlank c = true) :
    isNumberPart c = false := by
  apply Bool.eq_false_iff.mpr
  intro hpart
  rw [isBlank_of_isNumberPart hpart] at h
  cases h

theorem Stops.of_blanks {gap : List Char} (h : gap.all Text.isBlank = true) (hgap : gap ≠ [])
    (cs : List Char) : Stops (gap ++ cs) := by
  cases gap with
  | nil => exact absurd rfl hgap
  | cons c gap =>
    simp only [List.all_cons, Bool.and_eq_true] at h
    exact stops_cons (isNumberPart_of_isBlank h.1)

/-- A lexeme that is no word and no number does not go on with one before it. -/
theorem Stops.of_isLexeme {kind : Kind} {chars : List Char} (h : IsLexeme kind chars)
    (hkind : isOpenEnded kind ≠ true) (cs : List Char) : Stops (chars ++ cs) := by
  cases h with
  | word => exact absurd (isOpenEnded_wordKind _) hkind
  | zero | numeral => exact absurd rfl hkind
  | mark hmark => exact stops_cons (isNumberPart_of_punctuation hmark)

theorem Stops.of_part {part : Part}
    (h : isOpenEnded part.lexeme.kind = true → part.gap ≠ "") (cs : List Char) :
    Stops (part.chars ++ cs) := by
  rw [Part.chars, List.append_assoc]
  by_cases hgap : part.gap = ""
  · rw [hgap]
    exact Stops.of_isLexeme part.isLexeme (fun hkind => h hkind hgap) cs
  · exact Stops.of_blanks part.blank (by simpa using hgap) _

theorem Spells.blanks {gap cs : List Char} {lexemes : List Lexeme}
    (hgap : gap.all Text.isBlank = true) (h : Spells cs lexemes) : Spells (gap ++ cs) lexemes := by
  induction gap with
  | nil => exact h
  | cons c gap ih =>
    simp only [List.all_cons, Bool.and_eq_true] at hgap
    exact .blank hgap.1 (ih hgap.2)

theorem Spells.part {part : Part} {cs : List Char} {lexemes : List Lexeme}
    (hend : isOpenEnded part.lexeme.kind = true → Stops cs) (h : Spells cs lexemes) :
    Spells (part.chars ++ cs) (part.lexeme :: lexemes) := by
  have hlexeme := Spells.lexeme part.isLexeme hend h
  rw [String.ofList_toList] at hlexeme
  rw [Part.chars, List.append_assoc]
  exact .blanks part.blank hlexeme

theorem spells_parts {last : List Char} (hlast : last.all Text.isBlank = true)
    {parts : List Part}
    (hapart : parts.IsChain fun before after =>
      isOpenEnded before.lexeme.kind = true → isOpenEnded after.lexeme.kind = true →
        after.gap ≠ "") :
    Spells (parts.flatMap Part.chars ++ last) (parts.map Part.lexeme) := by
  induction parts with
  | nil => simpa using Spells.blanks hlast .nil
  | cons part parts ih =>
    rw [List.flatMap_cons, List.map_cons, List.append_assoc]
    refine .part (fun hkind => ?_) (ih hapart.tail)
    -- what follows is the next part, or the blanks at the end
    cases parts with
    | nil =>
      by_cases hend : last = []
      · simp [hend, Stops]
      · simpa using Stops.of_blanks hlast hend []
    | cons next parts =>
      rw [List.flatMap_cons, List.append_assoc]
      exact .of_part ((List.isChain_cons_cons.mp hapart).1 hkind) _

theorem Layout.spells (layout : Layout) : Spells layout.source.toList layout.lexemes := by
  have hparts := spells_parts layout.blank_last layout.apart
  rwa [Layout.source, String.toList_append, String.toList_ofList]

theorem Layout.exists_tokens (layout : Layout) :
    ∃ tokens, tokenize layout.source = .ok tokens ∧
      tokens.map Token.lexeme = layout.lexemes ++ [⟨.eof, ""⟩] := by
  obtain ⟨body, hpieces, hlexemes⟩ := layout.spells.exists_pieces 0
  refine ⟨_, tokenize_of_pieces hpieces, ?_⟩
  rw [List.map_append, hlexemes]
  rfl

end Scan

/-! ### The reader and the places of tokens -/

namespace Parse

section Relocation

variable {tokens tokens' : List Token}

theorem SameLexemes.symm (h : SameLexemes tokens tokens') : SameLexemes tokens' tokens :=
  Eq.symm h

theorem SameLexemes.take (h : SameLexemes tokens tokens') (n : Nat) :
    SameLexemes (tokens.take n) (tokens'.take n) := by
  rw [SameLexemes, List.map_take, List.map_take, h]

theorem SameLexemes.dropLast (h : SameLexemes tokens tokens') :
    SameLexemes tokens.dropLast tokens'.dropLast := by
  rw [SameLexemes, List.map_dropLast, List.map_dropLast, h]

theorem SameLexemes.append_right (h : SameLexemes tokens tokens') (suffix : List Token) :
    SameLexemes (tokens ++ suffix) (tokens' ++ suffix) := by
  rw [SameLexemes, List.map_append, List.map_append, h]

theorem SameLexemes.openLevels_eq (h : SameLexemes tokens tokens') :
    openLevels tokens' = openLevels tokens := by
  have hlevels : ∀ tokens : List Token, openLevels tokens =
      (tokens.map Token.lexeme).foldl (fun n l => bracketsAfter n l.kind) 0 +
        (tokens.map Token.lexeme).countP fun l => l.kind.isReserved := by
    intro tokens
    rw [List.foldl_map, List.countP_map]
    rfl
  rw [hlevels, hlevels, h]

theorem NestsBelow.relocate {limit : Nat} (hnests : NestsBelow limit tokens)
    (h : SameLexemes tokens tokens') : NestsBelow limit tokens' := by
  intro n hn
  have hlength : tokens'.length = tokens.length := by
    simpa using congrArg List.length h
  rw [(h.take n).openLevels_eq]
  exact hnests n (hlength ▸ hn)

theorem Viable.relocate {s : Symbol} (hviable : Viable s tokens)
    (h : SameLexemes tokens tokens') : Viable s tokens' := by
  obtain ⟨suffix, e, hderives⟩ := hviable
  exact ⟨suffix, e, hderives.relocate (h.append_right suffix)⟩

theorem FirstHopeless.relocate {k : Nat} {tok : Token} (hfirst : FirstHopeless tokens k tok)
    (h : SameLexemes tokens tokens') : ∃ tok', FirstHopeless tokens' k tok' := by
  have hcurrent : (tokens'.map Token.lexeme)[k]? = some tok.lexeme := by
    rw [h, List.getElem?_map, hfirst.current]
    rfl
  rw [List.getElem?_map] at hcurrent
  obtain ⟨tok', htok', hlexeme⟩ := Option.map_eq_some_iff.mp hcurrent
  obtain ⟨hkind, -⟩ := Lexeme.mk.inj hlexeme
  refine ⟨tok', htok', hfirst.viable.relocate (h.take k), ?_, ?_⟩
  · intro hne hviable
    exact hfirst.hopeless (hkind ▸ hne) (hviable.relocate (h.take (k + 1)).symm)
  · intro heof e hderives
    exact hfirst.incomplete (hkind ▸ heof) e (hderives.relocate (h.take k).symm)

end Relocation

/-! ### One token is the first hopeless one -/

section Unique

variable {tokens : List Token} {k k' : Nat} {tok tok' : Token}

theorem Viable.of_append {s : Symbol} {front back : List Token} (h : Viable s (front ++ back)) :
    Viable s front := by
  obtain ⟨suffix, e, hderives⟩ := h
  exact ⟨back ++ suffix, e, by rwa [← List.append_assoc]⟩

theorem FirstHopeless.le (h : FirstHopeless tokens k tok) (h' : FirstHopeless tokens k' tok') :
    k' ≤ k := by
  by_contra hlt
  by_cases heof : tok.kind = .eof
  · -- a program goes on past `k`, and no program has an end token inside
    obtain ⟨suffix, e, hderives⟩ := h'.viable
    have hcurrent : (tokens.take k')[k]? = some tok := by
      rw [List.getElem?_take_of_lt (by omega), h.current]
    have hmem := List.mem_append_left suffix (List.mem_of_getElem? hcurrent)
    exact (hderives.isTerminal tok hmem).1 heof
  · have hsplit : tokens.take k' = tokens.take (k + 1) ++ (tokens.take k').drop (k + 1) := by
      have htake : (tokens.take k').take (k + 1) = tokens.take (k + 1) := by
        rw [List.take_take, Nat.min_eq_left (by omega)]
      rw [← htake, List.take_append_drop]
    exact h.hopeless heof (hsplit ▸ h'.viable).of_append

theorem FirstHopeless.unique (h : FirstHopeless tokens k tok)
    (h' : FirstHopeless tokens k' tok') : k = k' :=
  Nat.le_antisymm (h'.le h) (h.le h')

end Unique

/-! ### Sources with the same lexemes -/

/-- A source is rejected with one problem, at the token in place `k`. -/
structure FailsAt (source : String) (tokens : List Token) (k : Nat) (p : Problem) : Prop where
  rejected : parse source = .error (.problems [p])
  stopped : program maxNesting tokens = .error (.problem p (tokens.drop k))
  marks : ∃ tok, tokens[k]? = some tok ∧ Marks p tok

section SameReading

variable {source source' : String} {tokens tokens' : List Token}

theorem exists_failsAt (htokens : Scan.tokenize source = .ok tokens)
    (hnests : NestsBelow maxNesting tokens) {p : Problem} {rest : List Token}
    (hrejected : parse source = .error (.problems [p]))
    (hstopped : program maxNesting tokens = .error (.problem p rest)) :
    ∃ k tok, FirstHopeless tokens k tok ∧ FailsAt source tokens k p := by
  obtain ⟨k, tok, rfl, hfirst, hmarks⟩ :=
    firstHopeless_of_program_error (ended_of_tokenize htokens) hnests hstopped
  exact ⟨k, tok, hfirst, hrejected, hstopped, tok, hfirst.current, hmarks⟩

theorem parse_of_sameLexemes (htokens : Scan.tokenize source = .ok tokens)
    (htokens' : Scan.tokenize source' = .ok tokens') (hsame : SameLexemes tokens tokens')
    (hnests : NestsBelow maxNesting tokens) {e : Expr}
    (h : readTokens maxNesting tokens = .ok e) : parse source' = .ok e := by
  have hderives := derives_of_readTokens (ended_of_tokenize htokens) h
  rw [parse_eq_readTokens htokens']
  exact readTokens_of_derives (ended_of_tokenize htokens') (hnests.relocate hsame)
    (hderives.relocate hsame.dropLast)

theorem sameReading_of_sameLexemes (htokens : Scan.tokenize source = .ok tokens)
    (htokens' : Scan.tokenize source' = .ok tokens') (hsame : SameLexemes tokens tokens')
    (hnests : NestsBelow maxNesting tokens) :
    (∃ e, parse source = .ok e ∧ parse source' = .ok e) ∨
    ∃ k p p', FailsAt source tokens k p ∧ FailsAt source' tokens' k p' := by
  have hnests' := hnests.relocate hsame
  rcases parse_of_tokenize htokens with ⟨e, hparse, hread⟩ | ⟨p, rest, hparse, hstopped⟩
  · exact .inl ⟨e, hparse, parse_of_sameLexemes htokens htokens' hsame hnests hread⟩
  rcases parse_of_tokenize htokens' with ⟨e, -, hread'⟩ | ⟨p', rest', hparse', hstopped'⟩
  · -- what is read as a tree in one layout is read as a tree in the other
    rw [parse_of_sameLexemes htokens' htokens hsame.symm hnests' hread'] at hparse
    cases hparse
  · right
    obtain ⟨k, tok, hfirst, hfails⟩ := exists_failsAt htokens hnests hparse hstopped
    obtain ⟨k', tok', hfirst', hfails'⟩ := exists_failsAt htokens' hnests' hparse' hstopped'
    obtain ⟨moved, hmoved⟩ := hfirst.relocate hsame
    obtain rfl := hmoved.unique hfirst'
    exact ⟨k, p, p', hfails, hfails'⟩

end SameReading

/-- **Layout does not matter.**  Two layouts of the same lexemes are cut into tokens with just
    these lexemes.  If they nest below the limit, both are read as one tree, or both are
    rejected with one problem at the token in the same place. -/
theorem layout_insignificant (first second : Scan.Layout) (h : first.lexemes = second.lexemes) :
    ∃ tokens tokens',
      Scan.tokenize first.source = .ok tokens ∧ Scan.tokenize second.source = .ok tokens' ∧
      tokens.map Token.lexeme = first.lexemes ++ [⟨.eof, ""⟩] ∧
      tokens'.map Token.lexeme = first.lexemes ++ [⟨.eof, ""⟩] ∧
      (NestsBelow maxNesting tokens →
        (∃ e, parse first.source = .ok e ∧ parse second.source = .ok e) ∨
        ∃ k p p', FailsAt first.source tokens k p ∧ FailsAt second.source tokens' k p') := by
  obtain ⟨tokens, htokens, hlexemes⟩ := first.exists_tokens
  obtain ⟨tokens', htokens', hlexemes'⟩ := second.exists_tokens
  rw [← h] at hlexemes'
  have hsame : SameLexemes tokens tokens' := hlexemes'.trans hlexemes.symm
  exact ⟨tokens, tokens', htokens, htokens', hlexemes, hlexemes',
    sameReading_of_sameLexemes htokens htokens' hsame⟩

/-- `(let 2`, where an expression cannot start with a reserved word. -/
def tightLayout : Scan.Layout where
  parts := [⟨"", ⟨.lparen, "("⟩, rfl, .mark rfl⟩, ⟨"", ⟨.letWord, "let"⟩, rfl, isLexeme_let⟩,
    ⟨" ", ⟨.int, "2"⟩, rfl, isLexeme_toDigits 2⟩]
  last := ""
  blank_last := rfl
  apart := by simp [Scan.isOpenEnded]

/-- The same with other blanks. -/
def looseLayout : Scan.Layout where
  parts := [⟨" ", ⟨.lparen, "("⟩, rfl, .mark rfl⟩, ⟨"\t", ⟨.letWord, "let"⟩, rfl, isLexeme_let⟩,
    ⟨"\n ", ⟨.int, "2"⟩, rfl, isLexeme_toDigits 2⟩]
  last := " "
  blank_last := rfl
  apart := by simp [Scan.isOpenEnded]

theorem looseLayout_insignificant :
    tightLayout.source = "(let 2" ∧ looseLayout.source = " (\tlet\n 2 " ∧
      tightLayout.lexemes = looseLayout.lexemes ∧
      ∃ tokens tokens' k p p', FailsAt tightLayout.source tokens k p ∧
        FailsAt looseLayout.source tokens' k p' := by
  have htight : tightLayout.source = "(let 2" := by decide
  obtain ⟨tokens, tokens', htokens, -, -, -, hreading⟩ :=
    layout_insignificant tightLayout looseLayout rfl
  have hnests : NestsBelow maxNesting tokens :=
    sourceNestsBelow_of_length (by decide) tokens htokens
  refine ⟨htight, by decide, rfl, ?_⟩
  rcases hreading hnests with ⟨e, hparse, -⟩ | ⟨k, p, p', hfails, hfails'⟩
  · have hcut : Scan.tokenize "(let 2" =
        .ok [⟨.lparen, "(", 0⟩, ⟨.letWord, "let", 1⟩, ⟨.int, "2", 5⟩, ⟨.eof, "", 6⟩] := by
      cbv
    rw [htight, parse_eq_readTokens hcut] at hparse
    cases hparse
  · exact ⟨tokens, tokens', k, p, p', hfails, hfails'⟩

end Parse
end Abacus
