/-
  Abacus/Proofs/Separation.lean
  =============================
  **Blanks keep sources apart.**  Two sources with a blank between them are scanned like each of
  them alone: no piece reaches across the blank, and what is wrong on one side neither hides nor
  changes what is wrong on the other.  Only the places on the right of the blank move.

  A piece in front of the blank is as long as it would be at the end of the source, because the
  blank is in none of the classes that let a piece go on.  That the scan does not depend on where
  it starts is `Moved`: the same pieces come out, further on.
-/
import Abacus.Proofs.Layout
import Abacus.Proofs.Tiling

namespace Abacus

/-! ### Moving on -/

/-- The same token `n` characters further on. -/
def Token.shift (n : Nat) (t : Token) : Token :=
  { t with start := t.start + n }

/-- The same message about a stretch `n` characters further on. -/
def Diagnostic.shift (n : Nat) (d : Diagnostic) : Diagnostic :=
  ⟨d.message, d.start + n, d.stop + n⟩

namespace Scan

/-- What a piece becomes `n` characters further on. -/
inductive Moved (n : Nat) : Piece → Piece → Prop where
  | token (t : Token) : Moved n (.token t) (.token (t.shift n))
  | problem {p q : Problem} (h : q.diagnostic = p.diagnostic.shift n) :
      Moved n (.problem p) (.problem q)

theorem Moved.size_eq {n : Nat} {piece piece' : Piece} (h : Moved n piece piece') :
    piece'.size = piece.size := by
  cases h with
  | token t => rfl
  | @problem p q h =>
    simp only [Problem.diagnostic, Diagnostic.shift, Diagnostic.mk.injEq] at h
    obtain ⟨-, hstart, hstop⟩ := h
    simp only [Piece.size]
    omega

theorem diagnostic_malformedNumber (run : String) (start n : Nat) :
    (Problem.malformedNumber run (start + n)).diagnostic =
      (Problem.malformedNumber run start).diagnostic.shift n := by
  simp only [Problem.diagnostic, Diagnostic.shift, Diagnostic.mk.injEq, Problem.start, Problem.stop]
  exact ⟨rfl, by omega, by omega⟩

theorem diagnostic_strayCharacter (c : Char) (start n : Nat) :
    (Problem.strayCharacter c (start + n)).diagnostic =
      (Problem.strayCharacter c start).diagnostic.shift n := by
  simp only [Problem.diagnostic, Diagnostic.shift, Diagnostic.mk.injEq, Problem.start, Problem.stop]
  exact ⟨rfl, by omega, by omega⟩

/-- What a number is does not depend on where it starts. -/
theorem numberPiece_moved (n start : Nat) {c : Char} (hc : c.isDigit = true) (rest : List Char) :
    Moved n (numberPiece start (c :: rest)) (numberPiece (start + n) (c :: rest)) := by
  obtain ⟨numeral, hnumeral⟩ : ∃ numeral, numeral? (c :: rest) = some numeral := by
    simp only [numeral?, if_pos hc]
    split
    · exact ⟨_, rfl⟩
    · exact ⟨_, rfl⟩
  simp only [numberPiece, numberRun?, if_pos hc, hnumeral]
  split
  · exact .token _
  · exact .problem (diagnostic_malformedNumber _ start n)

theorem firstPiece_moved (n start : Nat) (c : Char) (rest : List Char) :
    Moved n (firstPiece start c rest) (firstPiece (start + n) c rest) := by
  unfold firstPiece
  split
  · rename_i hc
    exact numberPiece_moved n start hc rest
  · split
    · exact .token _
    · split
      · exact .token _
      · exact .problem (diagnostic_strayCharacter c start n)

/-- **The scan does not depend on where it starts.** -/
theorem pieces_moved (n start : Nat) (cs : List Char) :
    List.Forall₂ (Moved n) (pieces start cs) (pieces (start + n) cs) := by
  fun_induction pieces start cs with
  | case1 start =>
    rw [pieces_nil]
    exact .nil
  | case2 start c rest hc ih =>
    rw [pieces_blank hc, Nat.add_right_comm]
    exact ih
  | case3 start c rest hc first ih =>
    have hmoved : Moved n first (firstPiece (start + n) c rest) := firstPiece_moved n start c rest
    rw [pieces_cons (by simpa using hc), hmoved.size_eq, Nat.add_right_comm]
    exact .cons hmoved ih

section Moved

variable {n : Nat} {found found' : List Piece}

theorem tokens_of_moved (h : List.Forall₂ (Moved n) found found') :
    found'.filterMap Piece.token? = (found.filterMap Piece.token?).map (Token.shift n) := by
  induction h with
  | nil => rfl
  | cons hfirst _ ih =>
    cases hfirst with
    | token t => simp only [List.filterMap_cons, Piece.token?, ih, List.map_cons]
    | problem h => simp only [List.filterMap_cons, Piece.token?, ih]

theorem diagnostics_of_moved (h : List.Forall₂ (Moved n) found found') :
    (found'.filterMap Piece.problem?).map Problem.diagnostic =
      ((found.filterMap Piece.problem?).map Problem.diagnostic).map (Diagnostic.shift n) := by
  induction h with
  | nil => rfl
  | cons hfirst _ ih =>
    cases hfirst with
    | token t => simp only [List.filterMap_cons, Piece.problem?, ih]
    | problem h => simp only [List.filterMap_cons, Piece.problem?, ih, List.map_cons, h]

end Moved

/-! ### Across a blank -/

section Blank

variable {w : Char}

theorem takeWhile_before_stop {p : Char → Bool} (hw : p w = false) (front back : List Char) :
    (front ++ w :: back).takeWhile p = front.takeWhile p := by
  induction front with
  | nil => simp [hw]
  | cons c front ih => simp only [List.cons_append, List.takeWhile_cons, ih]

/-- A piece ends before a blank as it would at the end of the source. -/
theorem firstPiece_before_blank (hw : Text.isBlank w = true) (start : Nat) (c : Char)
    (front back : List Char) :
    firstPiece start c (front ++ w :: back) = firstPiece start c front := by
  have hnumber : isNumberPart w = false := isNumberPart_of_isBlank hw
  have hword : isWordPart w = false := by
    rw [isNumberPart, Bool.or_eq_false_iff] at hnumber
    exact hnumber.1
  have hdigit : w.isDigit = false := by
    rw [← Bool.not_eq_true]
    intro hdigit
    rw [isWordPart_of_isDigit hdigit] at hword
    cases hword
  simp only [firstPiece, numberPiece, numberRun?, numeral?, takeWhile_before_stop hnumber,
    takeWhile_before_stop hword, takeWhile_before_stop hdigit]

theorem size_firstPiece {c : Char} (hc : Text.isBlank c = false) (start : Nat)
    (rest : List Char) :
    1 ≤ (firstPiece start c rest).size ∧ (firstPiece start c rest).size ≤ rest.length + 1 := by
  obtain ⟨chars, after, hsplit, hpiece⟩ := exists_isPiece_of_firstPiece hc start rest
  have hlength := congrArg List.length hsplit
  rw [List.length_cons, List.length_append] at hlength
  rw [hpiece.size_eq]
  exact ⟨List.length_pos_of_ne_nil hpiece.chars_ne_nil, by omega⟩

/-- **No piece reaches across a blank.** -/
theorem pieces_append_blank (hw : Text.isBlank w = true) (start : Nat) (front back : List Char) :
    pieces start (front ++ w :: back) =
      pieces start front ++ pieces (start + (front.length + 1)) back := by
  fun_induction pieces start front with
  | case1 start =>
    rw [List.nil_append, pieces_blank hw]
    rfl
  | case2 start c rest hc ih =>
    rw [List.cons_append, pieces_blank hc, ih, List.length_cons]
    congr 2
    omega
  | case3 start c rest hc first ih =>
    have hblank : Text.isBlank c = false := by simpa using hc
    obtain ⟨hpos, hle⟩ : 1 ≤ first.size ∧ first.size ≤ rest.length + 1 :=
      size_firstPiece hblank start rest
    have hdrop : (rest ++ w :: back).drop (first.size - 1) =
        rest.drop (first.size - 1) ++ w :: back :=
      List.drop_append_of_le_length (by omega)
    have hplace : start + first.size + ((rest.drop (first.size - 1)).length + 1) =
        start + ((c :: rest).length + 1) := by
      rw [List.length_drop, List.length_cons]
      omega
    rw [hplace] at ih
    rw [List.cons_append, pieces_cons hblank, firstPiece_before_blank hw]
    change first :: pieces (start + first.size) ((rest ++ w :: back).drop (first.size - 1)) = _
    rw [hdrop, ih, List.cons_append]

end Blank

/-! ### Two sources and a blank -/

/-- What is wrong with the characters of a source. -/
def complaints (source : String) : List Diagnostic :=
  match tokenize source with
  | .ok _ => []
  | .error r => r.diagnostics

theorem complaints_eq (source : String) :
    complaints source = ((pieces 0 source.toList).filterMap Piece.problem?).map Problem.diagnostic := by
  rw [complaints, tokenize_eq_ite]
  by_cases hnone : (pieces 0 source.toList).filterMap Piece.problem? = []
  · rw [if_pos hnone, hnone]
    rfl
  · rw [if_neg hnone]
    rfl

theorem exists_tokens_iff (source : String) :
    (∃ tokens, tokenize source = .ok tokens) ↔ complaints source = [] := by
  rw [complaints_eq, List.map_eq_nil_iff, tokenize_eq_ite]
  constructor
  · rintro ⟨tokens, htokens⟩
    by_contra hsome
    rw [if_neg hsome] at htokens
    cases htokens
  · intro hnone
    rw [if_pos hnone]
    exact ⟨_, rfl⟩

theorem tokens_eq_of_tokenize {source : String} {tokens : List Token}
    (h : tokenize source = .ok tokens) :
    tokens = (pieces 0 source.toList).filterMap Piece.token? ++
      [⟨.eof, "", source.toList.length⟩] := by
  rw [tokenize_eq_ite] at h
  split at h
  · cases h
    rfl
  · cases h

section Append

variable (a b : String) {w : Char}

theorem toList_separated : (a ++ String.singleton w ++ b).toList = a.toList ++ w :: b.toList := by
  simp

theorem pieces_separated (hw : Text.isBlank w = true) :
    pieces 0 (a ++ String.singleton w ++ b).toList =
      pieces 0 a.toList ++ pieces (0 + (a.length + 1)) b.toList := by
  rw [toList_separated, pieces_append_blank hw, String.length_toList]

theorem complaints_separated (hw : Text.isBlank w = true) :
    complaints (a ++ String.singleton w ++ b) =
      complaints a ++ (complaints b).map (Diagnostic.shift (a.length + 1)) := by
  rw [complaints_eq, complaints_eq, complaints_eq, pieces_separated a b hw, List.filterMap_append,
    List.map_append, diagnostics_of_moved (pieces_moved (a.length + 1) 0 b.toList)]

/-- **Scanning is compositional across a blank.**  A source with a blank in it is made of tokens if
    both sides are, and then has the tokens of the left side, less its end token, and those of the
    right side further on.  If not, everything that is wrong with the left side is reported and
    then everything that is wrong with the right side, further on and in the same words. -/
theorem tokenize_separated (hw : Text.isBlank w = true) :
    ((∃ tokens, tokenize (a ++ String.singleton w ++ b) = .ok tokens) ↔
      (∃ tokens, tokenize a = .ok tokens) ∧ ∃ tokens, tokenize b = .ok tokens) ∧
    (∀ first second, tokenize a = .ok first → tokenize b = .ok second →
      tokenize (a ++ String.singleton w ++ b) =
        .ok (first.dropLast ++ second.map (Token.shift (a.length + 1)))) ∧
    ∀ r, tokenize (a ++ String.singleton w ++ b) = .error r →
      ∃ problems, r = .problems problems ∧ problems.map Problem.diagnostic =
        complaints a ++ (complaints b).map (Diagnostic.shift (a.length + 1)) := by
  have hiff : (∃ tokens, tokenize (a ++ String.singleton w ++ b) = .ok tokens) ↔
      (∃ tokens, tokenize a = .ok tokens) ∧ ∃ tokens, tokenize b = .ok tokens := by
    rw [exists_tokens_iff, exists_tokens_iff, exists_tokens_iff, complaints_separated a b hw,
      List.append_eq_nil_iff, List.map_eq_nil_iff]
  refine ⟨hiff, ?_, ?_⟩
  · intro first second hfirst hsecond
    obtain ⟨tokens, htokens⟩ := hiff.mpr ⟨⟨first, hfirst⟩, second, hsecond⟩
    rw [htokens, tokens_eq_of_tokenize htokens, tokens_eq_of_tokenize hfirst,
      tokens_eq_of_tokenize hsecond, pieces_separated a b hw, List.filterMap_append,
      tokens_of_moved (pieces_moved (a.length + 1) 0 b.toList)]
    have hend : (a ++ String.singleton w ++ b).toList.length = b.toList.length + (a.length + 1) := by
      rw [toList_separated, List.length_append, List.length_cons, String.length_toList]
      omega
    rw [hend, List.dropLast_concat, List.map_append, List.append_assoc]
    rfl
  · intro r hr
    rw [← complaints_separated a b hw]
    rw [tokenize_eq_ite] at hr
    split at hr
    · cases hr
    · cases hr
      exact ⟨_, rfl, (complaints_eq _).symm⟩

end Append

/-- Something wrong on both sides of a line feed, and nothing wrong on both sides of a wide
    blank. -/
theorem tokenize_separated_both_ways :
    Text.isBlank '\n' = true ∧ Text.isBlank '\u3000' = true ∧
    (∃ problems, tokenize ("2x" ++ String.singleton '\n' ++ "+ @") = .error (.problems problems) ∧
      problems.map Problem.diagnostic =
        [(Problem.malformedNumber "2x" 0).diagnostic, (Problem.strayCharacter '@' 5).diagnostic]) ∧
    tokenize ("a1" ++ String.singleton '\u3000' ++ "1") =
      .ok [⟨.ident, "a1", 0⟩, ⟨.int, "1", 3⟩, ⟨.eof, "", 4⟩] := by
  have hleft : tokenize "2x" = .error (.problems [.malformedNumber "2x" 0]) := by cbv
  have hright : tokenize "+ @" = .error (.problems [.strayCharacter '@' 2]) := by cbv
  obtain ⟨hiff, -, hproblems⟩ := tokenize_separated "2x" "+ @" (by decide : Text.isBlank '\n' = true)
  obtain ⟨-, htokens, -⟩ := tokenize_separated "a1" "1" (by decide : Text.isBlank '\u3000' = true)
  refine ⟨by decide, by decide, ?_, ?_⟩
  · cases hsource : tokenize ("2x" ++ String.singleton '\n' ++ "+ @") with
    | ok tokens =>
      obtain ⟨⟨tokens', htokens'⟩, -⟩ := hiff.mp ⟨tokens, hsource⟩
      rw [hleft] at htokens'
      cases htokens'
    | error r =>
      obtain ⟨problems, rfl, hdiagnostics⟩ := hproblems r hsource
      refine ⟨problems, rfl, ?_⟩
      have hlength : "2x".length + 1 = 3 := by decide
      rw [hdiagnostics, complaints, complaints, hleft, hright, hlength]
      simp only [Rejection.diagnostics, List.map_cons, List.map_nil, List.cons_append, List.nil_append,
        diagnostic_strayCharacter '@' 2 3]
  · exact htokens [⟨.ident, "a1", 0⟩, ⟨.eof, "", 2⟩] [⟨.int, "1", 0⟩, ⟨.eof, "", 1⟩] (by cbv) (by cbv)

end Scan
end Abacus
