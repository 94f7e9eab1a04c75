/-
  Abacus/Proofs/Scan.lean
  =======================
  **What a source is made of.**  `IsLexeme` says which texts are lexemes of which kind, in the
  words of the scanner's character classes and not through its functions.  `Spells` says how
  characters spell a row of lexemes: with blanks wherever one likes, and with something between
  a word or a number and whatever could be taken for its continuation.

  Scanning undoes spelling: characters that spell a row of lexemes are cut into just these.
  In the other direction, every token that a source has is a lexeme.
-/
import Abacus.Proofs.Number
import Abacus.Proofs.Soundness

namespace Abacus.Scan

/-! ### Lexemes -/

/-- The characters of a lexeme of a kind: a word, a numeral or a punctuation mark. -/
inductive IsLexeme : Kind → List Char → Prop where
  | word {c : Char} {rest : List Char} (hc : isWordStart c = true)
      (hrest : ∀ d ∈ rest, isWordPart d = true) :
      IsLexeme (wordKind (String.ofList (c :: rest))) (c :: rest)
  | zero : IsLexeme .int ['0']
  | numeral {c : Char} {rest : List Char} (hc : c.isDigit = true) (hzero : c ≠ '0')
      (hrest : ∀ d ∈ rest, d.isDigit = true) : IsLexeme .int (c :: rest)
  | mark {c : Char} {kind : Kind} (h : punctuation? c = some kind) : IsLexeme kind [c]

/-- Characters that do not go on with a word or a number before them. -/
def Stops (cs : List Char) : Prop :=
  ∀ c ∈ cs.head?, isNumberPart c = false

/-- Whether a lexeme of a kind could go on in the characters after it. -/
def isOpenEnded : Kind → Bool
  | .int | .ident | .letWord | .fnWord => true
  | _ => false

/-- Characters that spell a row of lexemes. -/
inductive Spells : List Char → List Lexeme → Prop where
  | nil : Spells [] []
  | blank {c : Char} {cs : List Char} {lexemes : List Lexeme} (hc : Text.isBlank c = true)
      (h : Spells cs lexemes) : Spells (c :: cs) lexemes
  | lexeme {kind : Kind} {chars cs : List Char} {lexemes : List Lexeme}
      (hchars : IsLexeme kind chars) (hend : isOpenEnded kind = true → Stops cs)
      (h : Spells cs lexemes) : Spells (chars ++ cs) (⟨kind, String.ofList chars⟩ :: lexemes)

/-! ### Character classes -/

theorem isBlank_eq_false {c : Char} (hlow : 0x20 < c.toNat) (hhigh : c.toNat < 0x7F) :
    Text.isBlank c = false := by
  simp only [Text.isBlank, Bool.or_eq_false_iff, Bool.and_eq_false_iff, decide_eq_false_iff_not,
    beq_eq_false_iff_ne, ne_eq]
  omega

theorem isBlank_of_isNumberPart {c : Char} (h : isNumberPart c = true) :
    Text.isBlank c = false := by
  have hvisible : ∀ {low high : Nat}, 0x20 < low → high < 0x7F → low ≤ c.toNat →
      c.toNat ≤ high → Text.isBlank c = false := by
    intro low high hlow hhigh hle hge
    exact isBlank_eq_false (Nat.lt_of_lt_of_le hlow hle) (Nat.lt_of_le_of_lt hge hhigh)
  simp only [isNumberPart, isWordPart, Char.isAlphanum, Char.isAlpha, Char.isUpper, Char.isLower,
    Char.isDigit, Bool.or_eq_true, Bool.and_eq_true, decide_eq_true_eq, beq_iff_eq, ge_iff_le,
    UInt32.le_iff_toNat_le] at h
  rcases h with (((⟨hlow, hhigh⟩ | ⟨hlow, hhigh⟩) | ⟨hlow, hhigh⟩) | rfl) | rfl
  · exact hvisible (by decide) (by decide) hlow hhigh
  · exact hvisible (by decide) (by decide) hlow hhigh
  · exact hvisible (by decide) (by decide) hlow hhigh
  · decide
  · decide

theorem isWordPart_of_isWordStart {c : Char} (h : isWordStart c = true) : isWordPart c = true := by
  simp only [isWordStart, isWordPart, Char.isAlphanum, Bool.or_eq_true] at h ⊢
  rcases h with halpha | hunderscore
  · exact .inl (.inl halpha)
  · exact .inr hunderscore

theorem isWordPart_of_isDigit {c : Char} (h : c.isDigit = true) : isWordPart c = true := by
  simp [isWordPart, Char.isAlphanum, h]

theorem isNumberPart_of_isWordPart {c : Char} (h : isWordPart c = true) :
    isNumberPart c = true := by
  simp [isNumberPart, h]

theorem isDigit_of_isWordStart {c : Char} (h : isWordStart c = true) : c.isDigit = false := by
  have hnine : '9'.val.toNat < 'A'.val.toNat := by decide
  have hcases : 'A'.val.toNat < 'a'.val.toNat := by decide
  simp only [isWordStart, Char.isAlpha, Char.isUpper, Char.isLower, Bool.or_eq_true,
    Bool.and_eq_true, decide_eq_true_eq, beq_iff_eq, ge_iff_le, UInt32.le_iff_toNat_le] at h
  simp only [Char.isDigit, Bool.and_eq_false_iff, decide_eq_false_iff_not, ge_iff_le,
    UInt32.le_iff_toNat_le]
  rcases h with (⟨hlow, -⟩ | ⟨hlow, -⟩) | rfl
  · omega
  · omega
  · decide

theorem classes_of_punctuation {c : Char} {kind : Kind} (h : punctuation? c = some kind) :
    Text.isBlank c = false ∧ c.isDigit = false ∧ isWordStart c = false := by
  unfold punctuation? at h
  split at h
  any_goals decide
  cases h

theorem isNumberPart_of_punctuation {c : Char} {kind : Kind} (h : punctuation? c = some kind) :
    isNumberPart c = false := by
  unfold punctuation? at h
  split at h
  any_goals decide
  cases h

theorem isOpenEnded_wordKind (text : String) : isOpenEnded (wordKind text) = true := by
  unfold wordKind
  split
  · rfl
  · split <;> rfl

theorem wordKind_ne_int (text : String) : wordKind text ≠ .int := by
  unfold wordKind
  split
  · decide
  · split <;> decide

theorem Stops.append {front back : List Char} (hfront : Stops front) (hback : Stops back) :
    Stops (front ++ back) := by
  cases front with
  | nil => exact hback
  | cons c front => exact hfront

theorem takeWhile_append_stop {p : Char → Bool} {front back : List Char}
    (hfront : ∀ c ∈ front, p c = true) (hback : ∀ c ∈ back.head?, p c = false) :
    (front ++ back).takeWhile p = front := by
  rw [List.takeWhile_append_of_pos hfront]
  cases back with
  | nil => simp
  | cons c back => simp [hback c rfl]

/-! ### One piece -/

theorem numberPiece_of_digits {c : Char} {rest cs : List Char} {start : Nat}
    (hc : c.isDigit = true) (hzero : c = '0' → rest = [])
    (hrest : ∀ d ∈ rest, d.isDigit = true) (hcs : Stops cs) :
    numberPiece start (c :: (rest ++ cs)) = .token ⟨.int, String.ofList (c :: rest), start⟩ := by
  have hrun : (rest ++ cs).takeWhile isNumberPart = rest :=
    takeWhile_append_stop
      (fun d hd => isNumberPart_of_isWordPart (isWordPart_of_isDigit (hrest d hd))) hcs
  have hdigits : (rest ++ cs).takeWhile Char.isDigit = rest := by
    refine takeWhile_append_stop hrest fun d hd => ?_
    cases hdigit : d.isDigit with
    | false => rfl
    | true =>
      have hpart := isNumberPart_of_isWordPart (isWordPart_of_isDigit hdigit)
      rw [hcs d hd] at hpart
      cases hpart
  have hnumeral : numeral? (c :: (rest ++ cs)) = some (c :: rest) := by
    by_cases hc0 : c = '0'
    · simp only [numeral?, if_pos hc0, hzero hc0]
    · simp only [numeral?, if_neg hc0, if_pos hc, hdigits]
  simp only [numberPiece, numberRun?, if_pos hc, hrun, hnumeral, if_true]

theorem firstPiece_of_isLexeme {kind : Kind} {c : Char} {rest cs : List Char} {start : Nat}
    (h : IsLexeme kind (c :: rest)) (hend : isOpenEnded kind = true → Stops cs) :
    firstPiece start c (rest ++ cs) = .token ⟨kind, String.ofList (c :: rest), start⟩ := by
  cases h with
  | word hc hrest =>
    have hword : (rest ++ cs).takeWhile isWordPart = rest := by
      refine takeWhile_append_stop hrest fun d hd => ?_
      have hstop := hend (isOpenEnded_wordKind _) d hd
      simp only [isNumberPart, Bool.or_eq_false_iff] at hstop
      exact hstop.1
    simp [firstPiece, isDigit_of_isWordStart hc, hc, hword]
  | zero =>
    have hdigit : '0'.isDigit = true := by decide
    simp only [firstPiece, hdigit, if_true]
    exact numberPiece_of_digits hdigit (fun _ => rfl) (by simp) (hend rfl)
  | numeral hc hzero hrest =>
    rw [firstPiece, if_pos hc]
    exact numberPiece_of_digits hc (fun h => absurd h hzero) hrest (hend rfl)
  | mark hmark =>
    obtain ⟨-, hdigit, hstart⟩ := classes_of_punctuation hmark
    simp [firstPiece, hdigit, hstart, hmark]

theorem not_isBlank_of_isLexeme {kind : Kind} {c : Char} {rest : List Char}
    (h : IsLexeme kind (c :: rest)) : Text.isBlank c = false := by
  cases h with
  | word hc =>
    exact isBlank_of_isNumberPart (isNumberPart_of_isWordPart (isWordPart_of_isWordStart hc))
  | zero => decide
  | numeral hc =>
    exact isBlank_of_isNumberPart (isNumberPart_of_isWordPart (isWordPart_of_isDigit hc))
  | mark hmark => exact (classes_of_punctuation hmark).1

/-! ### Scanning what is spelled -/

theorem pieces_nil (start : Nat) : pieces start [] = [] := by
  rw [pieces]

theorem pieces_blank {c : Char} (hc : Text.isBlank c = true) (start : Nat) (rest : List Char) :
    pieces start (c :: rest) = pieces (start + 1) rest := by
  rw [pieces, if_pos hc]

theorem pieces_cons {c : Char} (hc : Text.isBlank c = false) (start : Nat) (rest : List Char) :
    pieces start (c :: rest) =
      firstPiece start c rest :: pieces (start + (firstPiece start c rest).size)
        (rest.drop ((firstPiece start c rest).size - 1)) := by
  rw [pieces, if_neg (by simp [hc])]

/-- **Scanning undoes spelling.** -/
theorem Spells.exists_pieces {cs : List Char} {lexemes : List Lexeme} (h : Spells cs lexemes) :
    ∀ start, ∃ tokens : List Token, pieces start cs = tokens.map Piece.token ∧
      tokens.map Token.lexeme = lexemes := by
  induction h with
  | nil =>
    intro start
    exact ⟨[], pieces_nil start, rfl⟩
  | blank hc _ ih =>
    intro start
    rw [pieces_blank hc]
    exact ih (start + 1)
  | @lexeme kind chars cs lexemes hchars hend _ ih =>
    intro start
    obtain ⟨c, rest, rfl⟩ : ∃ c rest, chars = c :: rest := by
      cases hchars <;> exact ⟨_, _, rfl⟩
    obtain ⟨tokens, hpieces, hlexemes⟩ := ih (start + (String.ofList (c :: rest)).length)
    have hsize : (String.ofList (c :: rest)).length - 1 = rest.length := by simp
    refine ⟨⟨kind, String.ofList (c :: rest), start⟩ :: tokens, ?_, ?_⟩
    · rw [List.cons_append, pieces_cons (not_isBlank_of_isLexeme hchars),
        firstPiece_of_isLexeme hchars hend]
      simp only [Piece.size, hsize, List.drop_left, hpieces, List.map_cons]
    · simp only [List.map_cons, hlexemes, Token.lexeme]

theorem tokenize_of_pieces {source : String} {tokens : List Token}
    (h : pieces 0 source.toList = tokens.map Piece.token) :
    tokenize source = .ok (tokens ++ [⟨.eof, "", source.toList.length⟩]) := by
  have hfault : (tokens.map Piece.token).findSome? Piece.fault? = none := by
    simp [List.findSome?_map, List.findSome?_eq_none_iff, Piece.fault?]
  have hproblems : (tokens.map Piece.token).filterMap Piece.problem? = [] := by
    simp [List.filterMap_map, Piece.problem?]
  have htokens : (tokens.map Piece.token).filterMap Piece.token? = tokens := by
    simp [List.filterMap_map, Function.comp_def, Piece.token?]
  simp only [tokenize, h, hfault, hproblems, htokens]

/-! ### The tokens of a source -/

theorem exists_firstPiece_of_mem {start : Nat} {cs : List Char} {piece : Piece}
    (h : piece ∈ pieces start cs) :
    ∃ start' c rest, Text.isBlank c = false ∧ piece = firstPiece start' c rest := by
  fun_induction pieces start cs with
  | case1 => cases h
  | case2 start c rest hc ih => exact ih h
  | case3 start c rest hc first ih =>
    rcases List.mem_cons.mp h with rfl | hmem
    · exact ⟨start, c, rest, by simpa using hc, rfl⟩
    · exact ih hmem

theorem isLexeme_of_numeral? {cs numeral : List Char} (h : numeral? cs = some numeral) :
    IsLexeme .int numeral := by
  cases cs with
  | nil => cases h
  | cons c rest =>
    simp only [numeral?] at h
    split at h
    · rename_i hzero
      cases h
      rw [hzero]
      exact .zero
    · rename_i hzero
      split at h
      · rename_i hc
        cases h
        exact .numeral hc hzero (List.all_eq_true.mp List.all_takeWhile)
      · cases h

theorem isLexeme_of_firstPiece {start : Nat} {c : Char} {rest : List Char} {t : Token}
    (h : firstPiece start c rest = .token t) :
    ∃ chars, t.text = String.ofList chars ∧ IsLexeme t.kind chars := by
  unfold firstPiece at h
  split at h
  · unfold numberPiece at h
    split at h
    · rename_i run numeral _ hnumeral
      split at h
      · cases h
        exact ⟨numeral, rfl, isLexeme_of_numeral? hnumeral⟩
      · cases h
    · cases h
  · split at h
    · rename_i hstart
      cases h
      exact ⟨_, rfl, .word hstart (List.all_eq_true.mp List.all_takeWhile)⟩
    · split at h
      · rename_i hmark
        cases h
        exact ⟨[c], rfl, .mark hmark⟩
      · cases h

theorem eq_map_token {found : List Piece} (hfault : found.findSome? Piece.fault? = none)
    (hproblems : found.filterMap Piece.problem? = []) :
    found = (found.filterMap Piece.token?).map Piece.token := by
  induction found with
  | nil => rfl
  | cons piece found ih =>
    cases piece with
    | token t =>
      simp only [List.findSome?_cons, Piece.fault?] at hfault
      simp only [List.filterMap_cons, Piece.problem?] at hproblems
      simp only [List.filterMap_cons, Piece.token?, List.map_cons]
      rw [← ih hfault hproblems]
    | problem p => simp [Piece.problem?] at hproblems
    | fault f => simp [Piece.fault?] at hfault

theorem exists_pieces_of_tokenize {source : String} {tokens : List Token}
    (h : tokenize source = .ok tokens) :
    ∃ body : List Token, pieces 0 source.toList = body.map Piece.token ∧
      tokens = body ++ [⟨.eof, "", source.toList.length⟩] := by
  unfold tokenize at h
  simp only at h
  split at h
  · cases h
  · rename_i hfault hproblems
    cases h
    exact ⟨_, eq_map_token hfault hproblems, rfl⟩
  · cases h

/-- **Every token of a source is a lexeme**, up to the end token. -/
theorem exists_body_of_tokenize {source : String} {tokens : List Token}
    (h : tokenize source = .ok tokens) :
    ∃ body, tokens = body ++ [⟨.eof, "", source.toList.length⟩] ∧
      ∀ t ∈ body, ∃ chars, t.text = String.ofList chars ∧ IsLexeme t.kind chars := by
  obtain ⟨body, hpieces, rfl⟩ := exists_pieces_of_tokenize h
  refine ⟨body, rfl, fun t ht => ?_⟩
  have hmem : Piece.token t ∈ pieces 0 source.toList := by
    rw [hpieces]
    exact List.mem_map_of_mem ht
  obtain ⟨start, c, rest, -, hpiece⟩ := exists_firstPiece_of_mem hmem
  exact isLexeme_of_firstPiece hpiece.symm

theorem not_eof_of_isLexeme {kind : Kind} {chars : List Char} (h : IsLexeme kind chars) :
    kind ≠ .eof := by
  cases h with
  | @word c rest =>
    intro heof
    have hopen := isOpenEnded_wordKind (String.ofList (c :: rest))
    rw [heof] at hopen
    cases hopen
  | zero => decide
  | numeral => decide
  | mark hmark =>
    unfold punctuation? at hmark
    split at hmark <;> cases hmark <;> decide

theorem isDigit_of_isLexeme {kind : Kind} {chars : List Char} (h : IsLexeme kind chars)
    (hkind : kind = .int) : chars ≠ [] ∧ ∀ c ∈ chars, c.isDigit = true := by
  cases h with
  | word => exact absurd hkind (wordKind_ne_int _)
  | zero => exact ⟨List.cons_ne_nil _ _, List.forall_mem_singleton.mpr rfl⟩
  | numeral hc _ hrest => exact ⟨List.cons_ne_nil _ _, by simpa using ⟨hc, hrest⟩⟩
  | mark hmark =>
    unfold punctuation? at hmark
    split at hmark <;> cases hmark <;> cases hkind

theorem length_pieces_le (start : Nat) (cs : List Char) : (pieces start cs).length ≤ cs.length := by
  fun_induction pieces start cs with
  | case1 => exact Nat.le_refl _
  | case2 start c rest hc ih => exact Nat.le_succ_of_le ih
  | case3 start c rest hc piece ih =>
    rw [List.length_drop] at ih
    simp only [List.length_cons]
    omega

end Abacus.Scan

/-! ### Sources as inputs of the reader -/

namespace Abacus.Parse

section Tokenize

variable {source : String} {tokens : List Token}

theorem ended_of_tokenize (h : Scan.tokenize source = .ok tokens) : Ended tokens := by
  obtain ⟨body, rfl, hbody⟩ := Scan.exists_body_of_tokenize h
  refine Ended.append (fun t ht => ?_) rfl
  obtain ⟨chars, -, hlexeme⟩ := hbody t ht
  exact Scan.not_eof_of_isLexeme hlexeme

theorem numeral_of_tokenize (h : Scan.tokenize source = .ok tokens) :
    ∀ tok ∈ tokens, tok.kind = .int → (numeralValue? tok.text).isSome := by
  obtain ⟨body, rfl, hbody⟩ := Scan.exists_body_of_tokenize h
  intro tok htok hkind
  rcases List.mem_append.mp htok with hmem | hmem
  · obtain ⟨chars, htext, hlexeme⟩ := hbody tok hmem
    obtain ⟨hne, hdigits⟩ := Scan.isDigit_of_isLexeme hlexeme hkind
    rw [htext, numeralValue?_of_isDigit hne hdigits]
    rfl
  · obtain rfl := List.mem_singleton.mp hmem
    cases hkind

/-- The tokens of a source lead to no fault, with whatever room. -/
theorem program_ne_fault (h : Scan.tokenize source = .ok tokens) (room : Nat) (fault : Fault) :
    program room tokens ≠ .error (.fault fault) := by
  intro hfault
  have hmeets := program_reads room tokens (ended_of_tokenize h)
  rw [hfault] at hmeets
  obtain ⟨tok, hmem, hbad⟩ := hmeets
  exact hbad (numeral_of_tokenize h tok hmem)

theorem parse_eq_readTokens (h : Scan.tokenize source = .ok tokens) :
    parse source = readTokens maxNesting tokens := by
  simp only [parse, read, h]

/-- A source that is made of tokens is read as a tree, or has one problem. -/
theorem parse_of_tokenize (h : Scan.tokenize source = .ok tokens) :
    (∃ e, parse source = .ok e ∧ readTokens maxNesting tokens = .ok e) ∨
    ∃ p rest, parse source = .error (.problems [p]) ∧
      program maxNesting tokens = .error (.problem p rest) := by
  rw [parse_eq_readTokens h]
  rcases houtcome : program maxNesting tokens with (⟨p, rest⟩ | fault) | ⟨e, rest⟩
  · right
    refine ⟨p, rest, ?_, rfl⟩
    simp only [readTokens, houtcome]
  · exact absurd houtcome (program_ne_fault h maxNesting fault)
  · left
    have hread : readTokens maxNesting tokens = .ok e := by
      simp only [readTokens, houtcome]
    exact ⟨e, hread, hread⟩

end Tokenize

def SourceNestsBelow (limit : Nat) (source : String) : Prop :=
  ∀ tokens, Scan.tokenize source = .ok tokens → NestsBelow limit tokens

theorem openBrackets_add_declarationCount_le (n : Nat) (tokens : List Token) :
    openBrackets n tokens + declarationCount tokens ≤ n + tokens.length := by
  induction tokens generalizing n with
  | nil => exact Nat.le_refl _
  | cons tok tokens ih =>
    have hrest := ih (bracketsAfter n tok.kind)
    have hsplit :
        declarationCount (tok :: tokens) = declarationCount [tok] + declarationCount tokens :=
      declarationCount_append [tok] tokens
    have htok : bracketsAfter n tok.kind + declarationCount [tok] ≤ n + 1 := by
      simp only [declarationCount, List.countP_singleton]
      cases tok.kind <;> simp [bracketsAfter, Kind.isReserved]
      -- a closing bracket is all that is left
      omega
    rw [openBrackets_cons, hsplit, List.length_cons]
    omega

theorem sourceNestsBelow_of_length {limit : Nat} {source : String}
    (h : source.toList.length + 1 < limit) : SourceNestsBelow limit source := by
  intro tokens htokens n _
  obtain ⟨body, hpieces, rfl⟩ := Scan.exists_pieces_of_tokenize htokens
  have hbody := Scan.length_pieces_le 0 source.toList
  have hlevels := openBrackets_add_declarationCount_le 0
    ((body ++ [Token.mk .eof "" source.toList.length]).take n)
  rw [hpieces, List.length_map] at hbody
  simp only [List.length_take, List.length_append, List.length_singleton] at hlevels
  unfold openLevels
  omega

end Abacus.Parse
