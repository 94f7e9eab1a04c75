/-
  Abacus/Proofs/Tiling.lean
  =========================
  **How a source falls into pieces.**  Every character of a source is a blank or belongs to
  exactly one piece.  `IsPiece` says, by character classes alone, what a piece is made of and
  that the characters after it do not go on with it; it has a constructor for each way a piece
  can look, those that are no token included.

  `Tiles` follows the scan from a place on: a blank is stepped over, a piece takes its
  characters.  `pieces_tiles` is the run of the scanner; the places of pieces in the whole
  source are read off it.
-/
import Abacus.Proofs.Scan

namespace Abacus.Scan

/-! ### Pieces by their characters -/

/-- A lone zero, or digits of which the first is not zero. -/
def IsNumeral (chars : List Char) : Prop :=
  chars = ['0'] ∨ (∀ c ∈ chars, c.isDigit = true) ∧ chars.head? ≠ some '0'

/-- What the characters `chars` make, starting at `start` and followed by `rest`. -/
inductive IsPiece (start : Nat) : (chars rest : List Char) → Piece → Prop where
  | int {c : Char} {run rest : List Char} (hc : c.isDigit = true)
      (hrun : ∀ d ∈ run, isNumberPart d = true) (hrest : ∀ d ∈ rest.head?, isNumberPart d = false)
      (hnumeral : IsNumeral (c :: run)) :
      IsPiece start (c :: run) rest (.token ⟨.int, String.ofList (c :: run), start⟩)
  | malformed {c : Char} {run rest : List Char} (hc : c.isDigit = true)
      (hrun : ∀ d ∈ run, isNumberPart d = true) (hrest : ∀ d ∈ rest.head?, isNumberPart d = false)
      (hnumeral : ¬ IsNumeral (c :: run)) :
      IsPiece start (c :: run) rest
        (.problem (.malformedNumber (String.ofList (c :: run)) start))
  | word {c : Char} {run rest : List Char} {kind : Kind} (hc : isWordStart c = true)
      (hrun : ∀ d ∈ run, isWordPart d = true) (hrest : ∀ d ∈ rest.head?, isWordPart d = false)
      (hkind : kind = .letWord ∧ String.ofList (c :: run) = "let" ∨
        kind = .fnWord ∧ String.ofList (c :: run) = "fn" ∨
        kind = .ident ∧ String.ofList (c :: run) ≠ "let" ∧ String.ofList (c :: run) ≠ "fn") :
      IsPiece start (c :: run) rest (.token ⟨kind, String.ofList (c :: run), start⟩)
  | mark {c : Char} {rest : List Char} {kind : Kind} (hmark : punctuation? c = some kind) :
      IsPiece start [c] rest (.token ⟨kind, String.ofList [c], start⟩)
  | stray {c : Char} {rest : List Char} (hblank : Text.isBlank c = false)
      (hdigit : c.isDigit = false) (hword : isWordStart c = false)
      (hmark : punctuation? c = none) :
      IsPiece start [c] rest (.problem (.strayCharacter c start))

/-- Where a piece starts. -/
def Piece.start : Piece → Nat
  | .token t => t.start
  | .problem p => p.start
  | .fault _ => 0

/-- The place just past a piece. -/
def Piece.stop : Piece → Nat
  | .token t => t.stop
  | .problem p => p.stop
  | .fault _ => 0

namespace IsPiece

variable {start : Nat} {chars rest : List Char} {piece : Piece}

theorem chars_ne_nil (h : IsPiece start chars rest piece) : chars ≠ [] := by
  cases h <;> exact List.cons_ne_nil _ _

theorem start_eq (h : IsPiece start chars rest piece) : piece.start = start := by
  cases h <;> rfl

theorem stop_eq (h : IsPiece start chars rest piece) : piece.stop = start + chars.length := by
  cases h with
  | int | malformed | word | mark =>
    simp only [Piece.stop, Token.stop, Problem.stop, String.length_ofList]
  | stray => rfl

theorem size_eq (h : IsPiece start chars rest piece) : piece.size = chars.length := by
  cases h with
  | int | word | mark => exact String.length_ofList
  | malformed =>
    simp only [Piece.size, Problem.stop, Problem.start, String.length_ofList]
    omega
  | stray =>
    simp only [Piece.size, Problem.stop, Problem.start, List.length_singleton]
    omega

theorem fault?_eq_none (h : IsPiece start chars rest piece) : piece.fault? = none := by
  cases h <;> rfl

theorem not_isBlank (h : IsPiece start chars rest piece) :
    ∀ c ∈ chars, Text.isBlank c = false := by
  have hpart : ∀ {c : Char}, isWordPart c = true → Text.isBlank c = false :=
    fun h => isBlank_of_isNumberPart (isNumberPart_of_isWordPart h)
  intro d hd
  cases h with
  | int hc hrun | malformed hc hrun =>
    rcases List.mem_cons.mp hd with rfl | hmem
    · exact hpart (isWordPart_of_isDigit hc)
    · exact isBlank_of_isNumberPart (hrun d hmem)
  | word hc hrun =>
    rcases List.mem_cons.mp hd with rfl | hmem
    · exact hpart (isWordPart_of_isWordStart hc)
    · exact hpart (hrun d hmem)
  | mark hmark =>
    obtain rfl := List.mem_singleton.mp hd
    exact (classes_of_punctuation hmark).1
  | stray hblank =>
    obtain rfl := List.mem_singleton.mp hd
    exact hblank

end IsPiece

/-! ### One piece -/

theorem isNumeral_of_isLexeme {chars : List Char} (h : IsLexeme .int chars) : IsNumeral chars := by
  generalize hkind : Kind.int = kind at h
  cases h with
  | word => exact absurd hkind.symm (wordKind_ne_int _)
  | zero => exact Or.inl rfl
  | numeral hc hzero hrest =>
    refine Or.inr ⟨?_, by simpa using hzero⟩
    intro d hd
    rcases List.mem_cons.mp hd with rfl | hmem
    · exact hc
    · exact hrest d hmem
  | mark hmark =>
    unfold punctuation? at hmark
    split at hmark <;> cases hmark <;> cases hkind

/-- A numeral goes no further than the run it stands in. -/
theorem numeral?_isPrefix {c : Char} {rest numeral : List Char}
    (h : numeral? (c :: rest) = some numeral) :
    numeral <+: c :: rest.takeWhile isNumberPart := by
  have hdigits : rest.takeWhile Char.isDigit <+: rest.takeWhile isNumberPart := by
    have hboth : (rest.takeWhile isNumberPart).takeWhile Char.isDigit =
        rest.takeWhile Char.isDigit := by
      rw [List.takeWhile_takeWhile]
      congr 1
      funext d
      cases hd : d.isDigit with
      | false => simp
      | true => simp [isNumberPart_of_isWordPart (isWordPart_of_isDigit hd)]
    rw [← hboth]
    exact List.takeWhile_prefix _
  simp only [numeral?] at h
  split at h
  · cases h
    exact List.prefix_append [c] _
  · split at h
    · cases h
      exact List.prefix_cons_inj c |>.mpr hdigits
    · cases h

theorem numberPiece_isPiece {c : Char} {run after : List Char} (start : Nat)
    (hc : c.isDigit = true) (hrun : ∀ d ∈ run, isNumberPart d = true) (hafter : Stops after) :
    IsPiece start (c :: run) after (numberPiece start (c :: (run ++ after))) := by
  have htake : (run ++ after).takeWhile isNumberPart = run := takeWhile_append_stop hrun hafter
  by_cases hnumeral : IsNumeral (c :: run)
  · have hpiece : numberPiece start (c :: (run ++ after)) =
        .token ⟨.int, String.ofList (c :: run), start⟩ := by
      rcases hnumeral with hzero | ⟨hdigits, hhead⟩
      · cases hzero
        exact numberPiece_of_digits hc (fun _ => rfl) (by simp) hafter
      · refine numberPiece_of_digits hc (fun h => ?_) (fun d hd => ?_) hafter
        · rw [h] at hhead
          exact absurd rfl hhead
        · exact hdigits d (List.mem_cons_of_mem c hd)
    rw [hpiece]
    exact .int hc hrun hafter hnumeral
  · obtain ⟨numeral, hsome⟩ : ∃ numeral, numeral? (c :: (run ++ after)) = some numeral := by
      simp only [numeral?, if_pos hc]
      split
      · exact ⟨_, rfl⟩
      · exact ⟨_, rfl⟩
    -- the numeral is a front part of the run, so one that is as long would be the run
    have hlength : numeral.length ≠ (c :: run).length := by
      intro hlength
      have hfront := numeral?_isPrefix hsome
      rw [htake] at hfront
      rw [hfront.eq_of_length hlength] at hsome
      exact hnumeral (isNumeral_of_isLexeme (isLexeme_of_numeral? hsome))
    have hpiece : numberPiece start (c :: (run ++ after)) =
        .problem (.malformedNumber (String.ofList (c :: run)) start) := by
      simp only [numberPiece, numberRun?, if_pos hc, htake, hsome, if_neg hlength]
    rw [hpiece]
    exact .malformed hc hrun hafter hnumeral

theorem wordKind_cases (word : String) :
    wordKind word = .letWord ∧ word = "let" ∨ wordKind word = .fnWord ∧ word = "fn" ∨
      wordKind word = .ident ∧ word ≠ "let" ∧ word ≠ "fn" := by
  unfold wordKind
  split
  · rename_i hlet
    exact Or.inl ⟨rfl, hlet⟩
  · rename_i hlet
    split
    · rename_i hfn
      exact Or.inr (Or.inl ⟨rfl, hfn⟩)
    · rename_i hfn
      exact Or.inr (Or.inr ⟨rfl, hlet, hfn⟩)

theorem exists_takeWhile (p : Char → Bool) (cs : List Char) :
    ∃ run after, cs = run ++ after ∧ (∀ d ∈ run, p d = true) ∧ ∀ d ∈ after.head?, p d = false := by
  refine ⟨cs.takeWhile p, cs.dropWhile p, List.takeWhile_append_dropWhile.symm, ?_, ?_⟩
  · exact List.all_eq_true.mp List.all_takeWhile
  · intro d hd
    have hdrop := List.head?_dropWhile_not p cs
    rw [Option.mem_def.mp hd] at hdrop
    simpa using hdrop

/-- **A step of the scanner** takes a piece off the front. -/
theorem exists_isPiece_of_firstPiece {c : Char} (hblank : Text.isBlank c = false) (start : Nat)
    (rest : List Char) :
    ∃ chars after, c :: rest = chars ++ after ∧
      IsPiece start chars after (firstPiece start c rest) := by
  unfold firstPiece
  split
  · rename_i hc
    obtain ⟨run, after, rfl, hrun, hafter⟩ := exists_takeWhile isNumberPart rest
    exact ⟨c :: run, after, rfl, numberPiece_isPiece start hc hrun hafter⟩
  · rename_i hdigit
    split
    · rename_i hc
      obtain ⟨run, after, rfl, hrun, hafter⟩ := exists_takeWhile isWordPart rest
      refine ⟨c :: run, after, rfl, ?_⟩
      rw [takeWhile_append_stop hrun hafter]
      exact .word hc hrun hafter (wordKind_cases _)
    · rename_i hstart
      split
      · rename_i kind hmark
        exact ⟨[c], rest, rfl, .mark hmark⟩
      · rename_i hmark
        exact ⟨[c], rest, rfl, .stray hblank (by simpa using hdigit) (by simpa using hstart) hmark⟩

/-! ### The run of the scanner -/

/-- The characters from a place on are blanks and these pieces. -/
inductive Tiles : (start : Nat) → List Char → List Piece → Prop where
  | nil (start : Nat) : Tiles start [] []
  | blank {start : Nat} {c : Char} {cs : List Char} {found : List Piece}
      (hc : Text.isBlank c = true) (h : Tiles (start + 1) cs found) : Tiles start (c :: cs) found
  | piece {start : Nat} {chars rest : List Char} {first : Piece} {found : List Piece}
      (hfirst : IsPiece start chars rest first) (h : Tiles (start + chars.length) rest found) :
      Tiles start (chars ++ rest) (first :: found)

theorem pieces_tiles (start : Nat) (cs : List Char) : Tiles start cs (pieces start cs) := by
  fun_induction pieces start cs with
  | case1 start => exact .nil start
  | case2 start c rest hc ih => exact .blank hc ih
  | case3 start c rest hc first ih =>
    obtain ⟨chars, after, hsplit, hfirst⟩ :=
      exists_isPiece_of_firstPiece (by simpa using hc) start rest
    have hsize : first.size = chars.length := hfirst.size_eq
    -- the first character of the piece is off already
    have hrest : rest.drop (first.size - 1) = after := by
      obtain ⟨d, run, rfl⟩ := List.exists_cons_of_ne_nil hfirst.chars_ne_nil
      rw [List.cons_append, List.cons.injEq] at hsplit
      obtain ⟨-, rfl⟩ := hsplit
      simp [hsize]
    rw [hrest, hsize] at ih ⊢
    rw [hsplit]
    exact .piece hfirst ih

namespace Tiles

variable {start : Nat} {cs : List Char} {found : List Piece}

/-- A piece stands somewhere between other characters. -/
theorem exists_split (h : Tiles start cs found) : ∀ p ∈ found, ∃ before chars after,
    cs = before ++ (chars ++ after) ∧ IsPiece (start + before.length) chars after p := by
  induction h with
  | nil =>
    intro p hp
    cases hp
  | @blank start c cs found _ _ ih =>
    intro p hp
    obtain ⟨before, chars, after, rfl, hpiece⟩ := ih p hp
    refine ⟨c :: before, chars, after, rfl, ?_⟩
    rwa [List.length_cons, Nat.add_comm before.length, ← Nat.add_assoc]
  | @piece start chars rest first found hfirst _ ih =>
    intro p hp
    rcases List.mem_cons.mp hp with rfl | hmem
    · exact ⟨[], chars, rest, rfl, hfirst⟩
    · obtain ⟨before, chars', after, rfl, hpiece⟩ := ih p hmem
      refine ⟨chars ++ before, chars', after, by rw [List.append_assoc], ?_⟩
      rwa [List.length_append, ← Nat.add_assoc]

theorem start_le (h : Tiles start cs found) : ∀ p ∈ found, start ≤ p.start := by
  intro p hp
  obtain ⟨before, chars, after, -, hpiece⟩ := h.exists_split p hp
  rw [hpiece.start_eq]
  exact Nat.le_add_right _ _

theorem increasing (h : Tiles start cs found) : found.Pairwise fun p q => p.stop ≤ q.start := by
  induction h with
  | nil => exact List.Pairwise.nil
  | blank _ _ ih => exact ih
  | piece hfirst hrest ih =>
    refine List.Pairwise.cons ?_ ih
    intro q hq
    rw [hfirst.stop_eq]
    exact hrest.start_le q hq

/-- A character that is not blank is in a piece. -/
theorem exists_piece (h : Tiles start cs found) : ∀ i c, cs[i]? = some c →
    Text.isBlank c = false → ∃ p ∈ found, p.start ≤ start + i ∧ start + i < p.stop := by
  induction h with
  | nil =>
    intro i c hi
    cases hi
  | @blank start b cs found hb _ ih =>
    intro i c hi hc
    cases i with
    | zero =>
      obtain rfl : b = c := Option.some.inj hi
      rw [hb] at hc
      cases hc
    | succ i =>
      obtain ⟨p, hp, hstart, hstop⟩ := ih i c hi hc
      exact ⟨p, hp, by omega, by omega⟩
  | @piece start chars rest first found hfirst _ ih =>
    intro i c hi hc
    by_cases hinside : i < chars.length
    · refine ⟨first, List.mem_cons_self, ?_, ?_⟩
      · rw [hfirst.start_eq]
        omega
      · rw [hfirst.stop_eq]
        omega
    · rw [List.getElem?_append_right (Nat.le_of_not_lt hinside)] at hi
      obtain ⟨p, hp, hstart, hstop⟩ := ih (i - chars.length) c hi hc
      exact ⟨p, List.mem_cons_of_mem first hp, by omega, by omega⟩

end Tiles

/-! ### Places in the whole source -/

/-- A source and its pieces: each is what the characters at its place make it, they stand one
    after the other, and the characters outside all of them are blank. -/
structure Segments (cs : List Char) (found : List Piece) : Prop where
  isPiece : ∀ p ∈ found, p.start < p.stop ∧ p.stop ≤ cs.length ∧
    IsPiece p.start (cs.extract p.start p.stop) (cs.drop p.stop) p
  increasing : found.Pairwise fun p q => p.stop ≤ q.start
  covers : ∀ i (h : i < cs.length), Text.isBlank cs[i] = false ↔
    ∃! p, p ∈ found ∧ p.start ≤ i ∧ i < p.stop

theorem Tiles.isPiece {cs : List Char} {found : List Piece} (h : Tiles 0 cs found) :
    ∀ p ∈ found, p.start < p.stop ∧ p.stop ≤ cs.length ∧
      IsPiece p.start (cs.extract p.start p.stop) (cs.drop p.stop) p := by
  intro p hp
  obtain ⟨before, chars, after, rfl, hpiece⟩ := h.exists_split p hp
  rw [Nat.zero_add] at hpiece
  have hpos := List.length_pos_of_ne_nil hpiece.chars_ne_nil
  have hchars : (before ++ (chars ++ after)).extract before.length (before.length + chars.length) =
      chars := by
    simp [List.extract_eq_take_drop]
  have hafter : (before ++ (chars ++ after)).drop (before.length + chars.length) = after := by
    rw [← List.append_assoc]
    exact List.drop_left' (by simp)
  rw [hpiece.start_eq, hpiece.stop_eq, hchars, hafter]
  refine ⟨by omega, ?_, hpiece⟩
  simp only [List.length_append]
  omega

/-- The character of a place inside a piece is not blank. -/
theorem Tiles.not_isBlank {cs : List Char} {found : List Piece} (h : Tiles 0 cs found) {p : Piece}
    (hp : p ∈ found) {i : Nat} (hi : i < cs.length) (hstart : p.start ≤ i) (hstop : i < p.stop) :
    Text.isBlank cs[i] = false := by
  obtain ⟨before, chars, after, rfl, hpiece⟩ := h.exists_split p hp
  rw [hpiece.start_eq] at hstart
  rw [hpiece.stop_eq] at hstop
  refine hpiece.not_isBlank _ ?_
  rw [List.getElem_append_right (by omega), List.getElem_append_left (by omega)]
  exact List.getElem_mem _

/-- Of two pieces one stops before the other starts, so they share no place. -/
theorem eq_of_shared_place {found : List Piece}
    (h : found.Pairwise fun p q => p.stop ≤ q.start) {p q : Piece} (hp : p ∈ found) (hq : q ∈ found)
    {i : Nat} (hstart : p.start ≤ i) (hstop : i < p.stop) (hstart' : q.start ≤ i)
    (hstop' : i < q.stop) : p = q := by
  induction h with
  | nil => cases hp
  | cons hfirst _ ih =>
    rcases List.mem_cons.mp hp with rfl | hlater
    · rcases List.mem_cons.mp hq with rfl | hlater'
      · rfl
      · have hle := hfirst q hlater'
        omega
    · rcases List.mem_cons.mp hq with rfl | hlater'
      · have hle := hfirst p hlater
        omega
      · exact ih hlater hlater'

theorem Tiles.segments {cs : List Char} {found : List Piece} (h : Tiles 0 cs found) :
    Segments cs found := by
  refine ⟨h.isPiece, h.increasing, ?_⟩
  intro i hi
  constructor
  · intro hblank
    obtain ⟨p, hp, hstart, hstop⟩ := h.exists_piece i cs[i] (List.getElem?_eq_getElem hi) hblank
    rw [Nat.zero_add] at hstart hstop
    refine ⟨p, ⟨hp, hstart, hstop⟩, ?_⟩
    rintro q ⟨hq, hstart', hstop'⟩
    exact eq_of_shared_place h.increasing hq hp hstart' hstop' hstart hstop
  · rintro ⟨p, ⟨hp, hstart, hstop⟩, -⟩
    exact h.not_isBlank hp hi hstart hstop

theorem tokenize_eq_ite (source : String) :
    tokenize source =
      if (pieces 0 source.toList).filterMap Piece.problem? = [] then
        .ok ((pieces 0 source.toList).filterMap Piece.token? ++
          [⟨.eof, "", source.toList.length⟩])
      else .error (.problems ((pieces 0 source.toList).filterMap Piece.problem?)) := by
  have hfault : (pieces 0 source.toList).findSome? Piece.fault? = none := by
    rw [List.findSome?_eq_none_iff]
    intro p hp
    obtain ⟨before, chars, after, -, hpiece⟩ := (pieces_tiles 0 source.toList).exists_split p hp
    exact hpiece.fault?_eq_none
  simp only [tokenize, hfault]
  split
  · rename_i heq
    cases heq
  · rename_i hproblems
    rw [if_pos hproblems]
  · rename_i hproblems
    rw [if_neg hproblems]

/-- **The scanner segments every source** without loss and by longest match, and hands out all
    tokens and the end token if everything in it is a token, all problems if not. -/
theorem tokenize_segments (source : String) :
    Segments source.toList (pieces 0 source.toList) ∧
    tokenize source =
      if (pieces 0 source.toList).filterMap Piece.problem? = [] then
        .ok ((pieces 0 source.toList).filterMap Piece.token? ++
          [⟨.eof, "", source.toList.length⟩])
      else .error (.problems ((pieces 0 source.toList).filterMap Piece.problem?)) :=
  ⟨(pieces_tiles 0 source.toList).segments, tokenize_eq_ite source⟩

example : pieces 0 "let1 2x+é".toList =
    [.token ⟨.ident, "let1", 0⟩, .problem (.malformedNumber "2x" 5), .token ⟨.plus, "+", 7⟩,
      .problem (.strayCharacter 'é' 8)] := by cbv

end Abacus.Scan
