/-
  Abacus/Proofs/Spans.lean
  ========================
  **Diagnostics of a source are well located and never mixed.**  A source is rejected for what in
  it is no token, all of it, or else for one token that cannot stand where it does.  In both cases
  every diagnostic marks a stretch of the source that starts with a visible character, or the
  empty stretch at its end.

  The stretches come from three places: from pieces that are no token, from the token where the
  reader stops, and, for a bracket that is never closed, from two tokens at once.  For the last
  kind it takes `Brackets` to know that the bracket is a token of this source and stands before
  its end.
-/
import Abacus.Proofs.Brackets
import Abacus.Proofs.Tiling

namespace Abacus

/-- Whether a problem is about characters, not about the order of tokens. -/
def Problem.isLexical : Problem → Bool
  | .malformedNumber .. | .strayCharacter .. => true
  | _ => false

/-- A stretch of a source that can be marked: it is empty only at the end, and else starts with a
    character that is not blank. -/
structure Locates (source : String) (start stop : Int) : Prop where
  nonneg : 0 ≤ start
  le : start ≤ stop
  inside : stop ≤ source.toList.length
  empty : start = stop → stop = source.toList.length
  visible : ∀ h : start.toNat < source.toList.length,
    Text.isBlank source.toList[start.toNat] = false

theorem Locates.toEnd {source : String} {start stop : Int} (h : Locates source start stop) :
    Locates source start source.toList.length where
  nonneg := h.nonneg
  le := h.le.trans h.inside
  inside := Int.le_refl _
  empty _ := rfl
  visible := h.visible

namespace Scan

/-! ### What the scanner hands out -/

section Pieces

variable {source : String}

theorem locates_of_mem_pieces {piece : Piece} (h : piece ∈ pieces 0 source.toList) :
    piece.start < piece.stop ∧ Locates source piece.start piece.stop := by
  have htiles := pieces_tiles 0 source.toList
  obtain ⟨hlt, hle, -⟩ := htiles.isPiece piece h
  refine ⟨hlt, ?_⟩
  constructor
  · exact Int.natCast_nonneg _
  · exact Int.ofNat_le.mpr hlt.le
  · exact Int.ofNat_le.mpr hle
  · intro heq
    exact absurd (Int.ofNat_inj.mp heq) hlt.ne
  · intro hstart
    exact htiles.not_isBlank h hstart (Nat.le_refl _) hlt

theorem isLexical_of_mem_pieces {p : Problem} (h : .problem p ∈ pieces 0 source.toList) :
    p.isLexical = true := by
  obtain ⟨before, chars, after, -, hpiece⟩ := (pieces_tiles 0 source.toList).exists_split _ h
  cases hpiece <;> rfl

theorem problem?_eq_some_iff {piece : Piece} {p : Problem} :
    piece.problem? = some p ↔ piece = .problem p := by
  cases piece <;> simp [Piece.problem?]

/-- Problems of characters alone, in the order of their places. -/
structure Lexical (problems : List Problem) : Prop where
  ne_nil : problems ≠ []
  isLexical : ∀ p ∈ problems, p.isLexical = true
  nonempty : ∀ p ∈ problems, p.diagnostic.start < p.diagnostic.stop
  increasing : problems.Pairwise fun p q => p.diagnostic.stop ≤ q.diagnostic.start

theorem exists_lexical_of_tokenize {r : Rejection} (h : tokenize source = .error r) :
    ∃ problems, r = .problems problems ∧ Lexical problems ∧
      ∀ p ∈ problems, Locates source p.diagnostic.start p.diagnostic.stop := by
  rw [tokenize_eq_ite] at h
  split at h
  · cases h
  · rename_i hne
    cases h
    have hmem : ∀ p ∈ (pieces 0 source.toList).filterMap Piece.problem?,
        Piece.problem p ∈ pieces 0 source.toList := by
      intro p hp
      obtain ⟨piece, hpiece, heq⟩ := List.mem_filterMap.mp hp
      rwa [← problem?_eq_some_iff.mp heq]
    refine ⟨_, rfl, ⟨hne, ?_, ?_, ?_⟩, ?_⟩
    · intro p hp
      exact isLexical_of_mem_pieces (hmem p hp)
    · intro p hp
      exact Int.ofNat_lt.mpr (locates_of_mem_pieces (hmem p hp)).1
    · refine (pieces_tiles 0 source.toList).increasing.filterMap _ ?_
      intro piece piece' hle p hp q hq
      rw [problem?_eq_some_iff.mp hp, problem?_eq_some_iff.mp hq] at hle
      exact Int.ofNat_le.mpr hle
    · intro p hp
      exact (locates_of_mem_pieces (hmem p hp)).2

theorem locates_of_mem_tokenize {tokens : List Token} (h : tokenize source = .ok tokens)
    {tok : Token} (htok : tok ∈ tokens) : Locates source tok.start tok.stop := by
  obtain ⟨body, hpieces, rfl⟩ := exists_pieces_of_tokenize h
  rcases List.mem_append.mp htok with hbody | hlast
  · have hpiece : Piece.token tok ∈ pieces 0 source.toList := by
      rw [hpieces]
      exact List.mem_map_of_mem hbody
    exact (locates_of_mem_pieces hpiece).2
  · obtain rfl := List.mem_singleton.mp hlast
    constructor
    · exact Int.natCast_nonneg _
    · exact Int.le_refl _
    · exact Int.le_refl _
    · exact fun _ => rfl
    · exact fun hlt => absurd hlt (Nat.lt_irrefl _)

theorem start_of_eof {tokens : List Token} (h : tokenize source = .ok tokens) {tok : Token}
    (htok : tok ∈ tokens) (heof : tok.kind = .eof) : tok.start = source.toList.length := by
  obtain ⟨body, rfl, hbody⟩ := exists_body_of_tokenize h
  rcases List.mem_append.mp htok with hmem | hlast
  · obtain ⟨chars, -, hlexeme⟩ := hbody tok hmem
    exact absurd heof (not_eof_of_isLexeme hlexeme)
  · obtain rfl := List.mem_singleton.mp hlast
    rfl

end Pieces
end Scan

/-! ### What the reader reports -/

namespace Parse

theorem mem_of_unclosed? {tokens : List Token} :
    ∀ {before unclosed : List Token}, unclosed? before tokens = some unclosed →
      ∀ tok ∈ unclosed, tok ∈ before ∨ tok ∈ tokens := by
  induction tokens with
  | nil =>
    intro before unclosed h tok htok
    cases h
    exact .inl htok
  | cons first tokens ih =>
    intro before unclosed h tok htok
    simp only [unclosed?, List.foldlM_cons, Option.bind_eq_bind, Option.bind_eq_some_iff] at h
    obtain ⟨next, hnext, hrest⟩ := h
    have hstep : ∀ tok ∈ next, tok ∈ before ∨ tok = first := by
      unfold matchBracket at hnext
      split at hnext <;> cases hnext <;> simp_all
    rcases ih hrest tok htok with hmem | hmem
    · rcases hstep tok hmem with hold | rfl
      · exact .inl hold
      · exact .inr List.mem_cons_self
    · exact .inr (List.mem_cons_of_mem first hmem)

section Reports

variable {source : String} {tokens : List Token} {p : Problem}

theorem isLexical_of_stopped {room : Nat} {rest : List Token} (hended : Ended tokens)
    (h : program room tokens = .error (.problem p rest)) : p.isLexical = false := by
  have hreads := program_reads room tokens hended
  rw [h] at hreads
  obtain ⟨used, tok, tail, -, -, -, habout, -⟩ := hreads
  cases p with
  | malformedNumber | strayCharacter => exact absurd habout id
  | _ => rfl

theorem FailsAt.locates {k : Nat} (h : FailsAt source tokens k p)
    (htokens : Scan.tokenize source = .ok tokens)
    (hopening : ∀ opening ∈ p.opening?, opening ∈ tokens) :
    Locates source p.diagnostic.start p.diagnostic.stop := by
  obtain ⟨tok, htok, hmarks⟩ := h.marks
  have hmem : tok ∈ tokens := List.mem_of_getElem? htok
  rcases hmarks with ⟨hstart, hstop⟩ | ⟨heof, ⟨opening, rfl⟩, -⟩
  · rw [hstart, hstop]
    exact Scan.locates_of_mem_tokenize htokens hmem
  · -- the stretch starts with one token and ends with another
    have hlocates := Scan.locates_of_mem_tokenize htokens (hopening opening rfl)
    show Locates source opening.start tok.start
    rw [Scan.start_of_eof htokens hmem heof]
    exact hlocates.toEnd

theorem locates_of_stopped (htokens : Scan.tokenize source = .ok tokens) {rest : List Token}
    (hrejected : parse source = .error (.problems [p]))
    (hstopped : program maxNesting tokens = .error (.problem p rest)) :
    Locates source p.diagnostic.start p.diagnostic.stop := by
  obtain ⟨k, opened, hfails, hopened, hnamed⟩ :=
    exists_failsAt_of_rejected htokens hrejected hstopped
  refine hfails.locates htokens ?_
  intro opening hopening
  have hmem : opening ∈ opened := List.mem_of_head? (hnamed opening hopening)
  rcases mem_of_unclosed? hopened opening hmem with hnone | htaken
  · cases hnone
  · exact List.mem_of_mem_take htaken

end Reports

/-- **Diagnostics are well located and never mixed.**  A rejected source has the problems of its
    characters, if there are any, one after the other and none of them empty, or else one problem
    with the order of its tokens.  Each diagnostic marks a stretch of the source that starts with
    a visible character, or the end. -/
theorem diagnostics_located {source : String} {r : Rejection} (h : parse source = .error r) :
    ((∃ problems, Scan.tokenize source = .error (.problems problems) ∧ r = .problems problems ∧
        Scan.Lexical problems) ∨
      ∃ tokens p, Scan.tokenize source = .ok tokens ∧ r = .problems [p] ∧ p.isLexical = false) ∧
    ∀ d ∈ r.diagnostics, Locates source d.start d.stop := by
  rcases htokenize : Scan.tokenize source with rejection | tokens
  · obtain ⟨problems, rfl, hlexical, hlocates⟩ := Scan.exists_lexical_of_tokenize htokenize
    simp only [parse, read, htokenize] at h
    cases h
    refine ⟨.inl ⟨problems, rfl, rfl, hlexical⟩, ?_⟩
    intro d hd
    obtain ⟨p, hp, rfl⟩ := List.mem_map.mp hd
    exact hlocates p hp
  · rcases parse_of_tokenize htokenize with ⟨e, hparse, -⟩ | ⟨p, rest, hparse, hstopped⟩
    · rw [hparse] at h
      cases h
    · obtain rfl : .problems [p] = r := Except.error.inj (hparse.symm.trans h)
      have hsyntactic := isLexical_of_stopped (ended_of_tokenize htokenize) hstopped
      refine ⟨.inr ⟨tokens, p, rfl, rfl, hsyntactic⟩, ?_⟩
      intro d hd
      obtain rfl := List.mem_singleton.mp hd
      exact locates_of_stopped htokenize hparse hstopped

/-- A call that is not closed, with blanks before the end, and a source with two pieces that are no
    tokens. -/
theorem diagnostics_located_both_ways :
    (parse "f(1,\n (2) " =
        .error (.problems [.unclosed ⟨.lparen, "(", 1⟩ ⟨.eof, "", 10⟩]) ∧
      Locates "f(1,\n (2) " 1 10) ∧
    (parse "1 + 2x * é" =
        .error (.problems [.malformedNumber "2x" 4, .strayCharacter 'é' 9]) ∧
      Scan.Lexical [.malformedNumber "2x" 4, .strayCharacter 'é' 9]) := by
  have htokens : Scan.tokenize "f(1,\n (2) " =
      .ok [⟨.ident, "f", 0⟩, ⟨.lparen, "(", 1⟩, ⟨.int, "1", 2⟩, ⟨.comma, ",", 3⟩,
        ⟨.lparen, "(", 6⟩, ⟨.int, "2", 7⟩, ⟨.rparen, ")", 8⟩, ⟨.eof, "", 10⟩] := by
    cbv
  have hunclosed : parse "f(1,\n (2) " =
      .error (.problems [.unclosed ⟨.lparen, "(", 1⟩ ⟨.eof, "", 10⟩]) := by
    simp only [parse, read, htokens]
    rfl
  have hscan : Scan.tokenize "1 + 2x * é" =
      .error (.problems [.malformedNumber "2x" 4, .strayCharacter 'é' 9]) := by
    cbv
  have hlexical : parse "1 + 2x * é" =
      .error (.problems [.malformedNumber "2x" 4, .strayCharacter 'é' 9]) := by
    simp only [parse, read, hscan]
  refine ⟨⟨hunclosed, ?_⟩, hlexical, ?_⟩
  · exact (diagnostics_located hunclosed).2 _ List.mem_cons_self
  · rcases (diagnostics_located hlexical).1 with ⟨problems, -, heq, h⟩ | ⟨tokens, p, htokens, -⟩
    · cases heq
      exact h
    · rw [hscan] at htokens
      cases htokens

end Parse
end Abacus
