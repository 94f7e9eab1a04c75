/-
  Abacus/Proofs/Alignment.lean
  ============================
  **Where the carets stand.**  A shown diagnostic has three rows, and the carets of the third are
  there to point at characters of the second.  Their place is counted in the source.  The row above
  them leaves out the characters that would move the printing position, so the carets stand as many
  columns too far to the right as such characters come before them on their line.

  Without such characters up to the end of what is marked, the carets stand right under it, and at
  the end of the source a single caret stands just past the row.  The vertical tab, the form feed
  and the carriage return are blanks of the language, so this is not so for all sources.
-/
import Abacus.Proofs.Excerpts
import Abacus.Proofs.Wording

namespace Abacus

open Position

/-! ### What a rejected source reports -/

theorem Scan.mem_pieces_of_tokenize {source : String} {problems : List Problem}
    (h : tokenize source = .error (.problems problems)) :
    ∀ p ∈ problems, Piece.problem p ∈ pieces 0 source.toList := by
  rw [tokenize_eq_ite] at h
  split at h
  · cases h
  · cases h
    intro p hp
    obtain ⟨piece, hpiece, heq⟩ := List.mem_filterMap.mp hp
    rwa [← problem?_eq_some_iff.mp heq]

namespace Parse

/-- Every diagnostic of a source marks a stretch of it and has a message of one line. -/
theorem locates_and_oneLine {source : String} {r : Rejection} (h : parse source = .error r)
    {d : Diagnostic} (hd : d ∈ r.diagnostics) :
    Locates source d.start d.stop ∧ OneLine d.message := by
  rcases htokenize : Scan.tokenize source with rejection | tokens
  · obtain ⟨problems, rfl, -, hlocates⟩ := Scan.exists_lexical_of_tokenize htokenize
    simp only [parse, read, htokenize] at h
    cases h
    obtain ⟨p, hp, rfl⟩ := List.mem_map.mp hd
    have hpiece := Scan.mem_pieces_of_tokenize htokenize p hp
    exact ⟨hlocates p hp, Scan.oneLine_of_mem_pieces hpiece⟩
  · rcases parse_of_tokenize htokenize with ⟨e, hparse, -⟩ | ⟨p, rest, hparse, hstopped⟩
    · rw [hparse] at h
      cases h
    · obtain rfl : .problems [p] = r := Except.error.inj (hparse.symm.trans h)
      obtain rfl := List.mem_singleton.mp hd
      exact ⟨locates_of_stopped htokenize hparse hstopped, oneLine_of_stopped htokenize hstopped⟩

end Parse

/-! ### Rows -/

/-- A text of three rows: above the last of them stands `shown`, and the last is `indent` other
    characters and then `width` carets. -/
def Pictures (text shown : List Char) (indent width : Nat) : Prop :=
  ∃ header front, lines text = [header, shown, front ++ List.replicate width '^'] ∧
    '^' ∉ front ∧ front.length = indent

theorem Pictures.unique {text shown shown' : List Char} {indent indent' width width' : Nat}
    (h : Pictures text shown indent width) (h' : Pictures text shown' indent' width') :
    shown' = shown ∧ indent' = indent ∧ width' = width := by
  obtain ⟨header, front, hrows, hfront, rfl⟩ := h
  obtain ⟨header', front', hrows', hfront', rfl⟩ := h'
  rw [hrows] at hrows'
  simp only [List.cons.injEq, and_true] at hrows'
  obtain ⟨-, rfl, hmarker⟩ := hrows'
  -- all carets of the last row stand at its end
  have hcount := congrArg (List.count '^') hmarker
  rw [List.count_append, List.count_append, List.count_eq_zero_of_not_mem hfront,
    List.count_eq_zero_of_not_mem hfront', List.count_replicate_self,
    List.count_replicate_self] at hcount
  have hlength := congrArg List.length hmarker
  simp only [List.length_append, List.length_replicate] at hlength
  exact ⟨rfl, by omega, by omega⟩

/-- The carets stand under the characters of a source from `start` up to `stop`, one under each; at
    the end of the source, a single caret stands just past the row. -/
def Underlines (source shown : List Char) (indent width start stop : Nat) : Prop :=
  (start < source.length → width = stop - start ∧
    (shown.drop indent).take width = source.extract start stop) ∧
  (start = source.length → width = 1 ∧ indent = shown.length)

theorem not_mem_gutter {c : Char} (hdigit : c.isDigit = false) (hblank : c ≠ ' ') (hbar : c ≠ '|')
    (number : Nat) : c ∉ gutter number := by
  intro h
  simp only [gutter, List.mem_append, List.mem_cons, List.not_mem_nil, or_false] at h
  rcases h with (hpad | hdigits) | rfl | rfl | rfl
  · exact hblank (List.eq_of_mem_replicate hpad)
  · rw [Nat.isDigit_of_mem_toDigits (by decide) (by decide) hdigits] at hdigit
    cases hdigit
  · exact hblank rfl
  · exact hbar rfl
  · exact hblank rfl

theorem not_mem_indent {c : Char} (hblank : c ≠ ' ') (hbar : c ≠ '|') (number indent : Nat) :
    c ∉ blankGutter number ++ List.replicate indent ' ' := by
  intro h
  simp only [blankGutter, List.mem_append, List.mem_cons, List.not_mem_nil, or_false] at h
  rcases h with (hpad | rfl | rfl) | hindent
  · exact hblank (List.eq_of_mem_replicate hpad)
  · exact hbar rfl
  · exact hblank rfl
  · exact hblank (List.eq_of_mem_replicate hindent)

theorem not_mem_visible {c : Char} {cs : List Char} (h : c ∉ cs) : c ∉ visible cs :=
  fun hmem => h (List.mem_of_mem_filter hmem)

theorem length_visible_add_countP (cs : List Char) :
    (visible cs).length + cs.countP movesPrinting = cs.length := by
  rw [visible, ← List.countP_eq_length_filter, Nat.add_comm]
  simpa using (List.length_eq_countP_add_countP movesPrinting).symm

namespace Position.Around

variable {before front back after : List Char}

theorem pictures {source : String} {d : Diagnostic} {width : Nat}
    (h : Around source.toList before front back after) (hmessage : OneLine d.message)
    (hstart : d.start = (before.length + front.length : Nat))
    (hwidth : (width : Int) =
      max 1 (min d.stop (before.length + front.length + back.length : Nat) - d.start)) :
    Pictures (d.render source).plain (gutter (before.count '\n' + 1) ++ visible (front ++ back))
      ((gutter (before.count '\n' + 1)).length + front.length) width := by
  generalize hnumber : before.count '\n' + 1 = number
  have hexcerpt := h.excerpt hstart hwidth
  rw [hnumber] at hexcerpt
  have hheader : '\n' ∉ visible ("Error: ".toList ++ d.message.toList) := by
    apply not_mem_visible
    rw [List.mem_append, not_or]
    exact ⟨by decide, hmessage⟩
  have hshown : '\n' ∉ gutter number ++ visible (front ++ back) := by
    rw [List.mem_append, not_or]
    exact ⟨not_mem_gutter (by decide) (by decide) (by decide) number, not_mem_visible h.line⟩
  have hmarker : '\n' ∉ blankGutter number ++ List.replicate front.length ' ' ++
      List.replicate width '^' := by
    rw [List.mem_append, not_or]
    refine ⟨not_mem_indent (by decide) (by decide) number front.length, ?_⟩
    intro hmem
    exact absurd (List.eq_of_mem_replicate hmem) (by decide)
  refine ⟨visible ("Error: ".toList ++ d.message.toList),
    blankGutter number ++ List.replicate front.length ' ', ?_,
    not_mem_indent (by decide) (by decide) number front.length, ?_⟩
  · rw [plain_render, hexcerpt, lines_append, lines_append, lines_of_not_mem hheader,
      lines_of_not_mem hshown, lines_of_not_mem hmarker]
    rfl
  · rw [List.length_append, length_blankGutter, List.length_replicate]

/-- Before a place that holds no line feed and is not the end, the line is not over. -/
theorem back_ne_nil {source : List Char} (h : Around source before front back after)
    (hlt : before.length + front.length < source.length)
    (hchar : source[before.length + front.length]? ≠ some '\n') : back ≠ [] := by
  rintro rfl
  have hsource : source = (before ++ front) ++ after := by
    rw [h.source_eq, List.nil_append, List.append_assoc]
  rcases h.after with rfl | ⟨later, rfl⟩
  · rw [hsource] at hlt
    simp at hlt
  · apply hchar
    rw [hsource, ← List.length_append, List.getElem?_append_right (Nat.le_refl _), Nat.sub_self]
    rfl

theorem extract_front {source : List Char} (h : Around source before front back after) :
    source.extract before.length (before.length + front.length) = front := by
  rw [h.source_eq]
  exact extract_middle before front _ rfl

theorem extract_marked {source marked rest : List Char}
    (h : Around source before front (marked ++ rest) after) :
    source.extract (before.length + front.length)
      (before.length + front.length + marked.length) = marked := by
  rw [h.source_eq, List.append_assoc marked, ← List.append_assoc before, ← List.length_append]
  exact extract_middle (before ++ front) marked _ rfl

theorem extract_upTo {source marked rest : List Char}
    (h : Around source before front (marked ++ rest) after) :
    source.extract before.length (before.length + front.length + marked.length) =
      front ++ marked := by
  rw [h.source_eq, List.append_assoc marked, ← List.append_assoc front]
  exact extract_middle before _ _ (by rw [List.length_append, Nat.add_assoc])

theorem underlines {source marked rest : List Char}
    (h : Around source before front (marked ++ rest) after)
    (hmarked : before.length + front.length < source.length → 0 < marked.length)
    (hclean : ∀ c ∈ front ++ marked, movesPrinting c = false) (number : Nat) :
    Underlines source (gutter number ++ visible front ++ visible marked ++ visible rest)
      ((gutter number).length + front.length) (max 1 marked.length)
      (before.length + front.length) (before.length + front.length + marked.length) := by
  have hfront : visible front = front :=
    visible_eq_self fun c hc => hclean c (List.mem_append_left marked hc)
  have hkept : visible marked = marked :=
    visible_eq_self fun c hc => hclean c (List.mem_append_right front hc)
  rw [hfront, hkept, ← List.length_append]
  constructor
  · intro hlt
    rw [Nat.max_eq_right (hmarked hlt), h.extract_marked, List.append_assoc _ marked,
      List.drop_left, List.take_left]
    exact ⟨(Nat.add_sub_cancel_left _ _).symm, rfl⟩
  · intro hend
    -- nothing of the line is left at the end of the source
    have hlength := congrArg List.length h.source_eq
    simp only [List.length_append] at hlength hend
    obtain rfl : marked = [] := List.length_eq_zero_iff.mp (by omega)
    obtain rfl : rest = [] := List.length_eq_zero_iff.mp (by omega)
    simp [visible]

end Position.Around

/-! ### Alignment -/

/-- **The carets point at what is marked, up to characters that are not shown.**  For every
    diagnostic of a rejected source, the carets stand to the right of the first marked character by
    as many columns as characters were left out before it on its line.  If none of the characters
    up to the end of what is marked on that line is left out, the carets stand right under it. -/
theorem carets_under_marked {source : String} {r : Rejection}
    (h : Parse.parse source = .error r) {d : Diagnostic} (hd : d ∈ r.diagnostics) :
    ∃ start stop first last : Nat, d.start = start ∧ d.stop = stop ∧
      LineAt source.toList start first last ∧
      ∃ left right indent width,
        Pictures (d.render source).plain
          (left ++ visible (source.toList.extract start (min stop last)) ++ right) indent width ∧
        (∃ number, left = gutter number ++ visible (source.toList.extract first start)) ∧
        indent = left.length + (source.toList.extract first start).countP movesPrinting ∧
        width = max 1 (min stop last - start) ∧
        ((∀ c ∈ source.toList.extract first (min stop last), movesPrinting c = false) →
          Underlines source.toList
            (left ++ visible (source.toList.extract start (min stop last)) ++ right)
            indent width start (min stop last)) := by
  obtain ⟨hlocates, hmessage⟩ := Parse.locates_and_oneLine h hd
  obtain ⟨start, hstart⟩ := Int.eq_ofNat_of_zero_le hlocates.nonneg
  obtain ⟨stop, hstop⟩ := Int.eq_ofNat_of_zero_le (hlocates.nonneg.trans hlocates.le)
  rw [hstart, hstop] at hlocates
  have hle : start ≤ stop := Int.ofNat_le.mp hlocates.le
  have hinside : stop ≤ source.toList.length := Int.ofNat_le.mp hlocates.inside
  obtain ⟨before, front, back, after, haround, rfl⟩ := exists_around (hle.trans hinside)
  obtain ⟨marked, rest, rfl, hmarked⟩ : ∃ marked rest, back = marked ++ rest ∧
      min stop (before.length + front.length + back.length) =
        before.length + front.length + marked.length := by
    refine ⟨back.take (stop - (before.length + front.length)), _,
      (List.take_append_drop _ back).symm, ?_⟩
    rw [List.length_take]
    omega
  have hwidth : ((max 1 marked.length : Nat) : Int) = max 1
      (min d.stop (before.length + front.length + (marked ++ rest).length : Nat) - d.start) := by
    rw [hstart, hstop]
    omega
  refine ⟨_, stop, before.length, _, hstart, hstop, haround.lineAt,
    gutter (before.count '\n' + 1) ++ visible front, visible rest,
    (gutter (before.count '\n' + 1)).length + front.length, max 1 marked.length, ?_, ?_, ?_, ?_, ?_⟩
  · have hpictures := haround.pictures hmessage hstart hwidth
    rw [hmarked, haround.extract_marked]
    rwa [visible_append, visible_append, ← List.append_assoc, ← List.append_assoc] at hpictures
  · rw [haround.extract_front]
    exact ⟨_, rfl⟩
  · rw [haround.extract_front, List.length_append, Nat.add_assoc, length_visible_add_countP]
  · rw [hmarked, Nat.add_sub_cancel_left]
  · rw [hmarked, haround.extract_marked, haround.extract_upTo]
    intro hclean
    refine haround.underlines ?_ hclean _
    intro hlt
    have hback : marked ++ rest ≠ [] := by
      apply haround.back_ne_nil hlt
      intro hfeed
      have hvisible : Text.isBlank source.toList[before.length + front.length] = false :=
        hlocates.visible hlt
      rw [List.getElem?_eq_getElem hlt] at hfeed
      rw [Option.some.inj hfeed] at hvisible
      exact absurd hvisible (by decide)
    have hne : before.length + front.length ≠ stop := by
      intro heq
      have hend := hlocates.empty (congrArg Nat.cast heq)
      omega
    have hpos := List.length_pos_iff.mpr hback
    omega

/-- The characters that are not shown stand on another line and behind what is marked. -/
theorem carets_under_marked_between :
    Parse.parse "1\x0b\n +@\x0c" = .error (.problems [.strayCharacter '@' 5]) ∧
      ∃ shown indent width,
        Pictures ((Problem.strayCharacter '@' 5).diagnostic.render "1\x0b\n +@\x0c").plain
          shown indent width ∧
        Underlines "1\x0b\n +@\x0c".toList shown indent width 5 6 := by
  have hscan : Scan.tokenize "1\x0b\n +@\x0c" = .error (.problems [.strayCharacter '@' 5]) := by
    cbv
  have hparse : Parse.parse "1\x0b\n +@\x0c" = .error (.problems [.strayCharacter '@' 5]) := by
    simp only [Parse.parse, Parse.read, hscan]
  have haround : Around "1\x0b\n +@\x0c".toList ['1', '\x0b', '\n'] [' ', '+']
      (['@'] ++ ['\x0c']) [] :=
    ⟨by decide, by decide, by decide, .inr ⟨['1', '\x0b'], rfl⟩, .inl rfl⟩
  have hclean : ∀ c ∈ [' ', '+'] ++ ['@'], movesPrinting c = false := by simp [movesPrinting]
  rw [← haround.extract_upTo] at hclean
  refine ⟨hparse, ?_⟩
  obtain ⟨start, stop, first, last, hstart, hstop, hline, left, right, indent, width, hpictures, -,
    -, -, hunderlines⟩ := carets_under_marked hparse List.mem_cons_self
  obtain rfl : 5 = start := Int.ofNat_inj.mp hstart
  obtain rfl : 6 = stop := Int.ofNat_inj.mp hstop
  obtain ⟨rfl, rfl⟩ : first = 3 ∧ last = 7 := haround.lineAt.unique hline
  exact ⟨_, indent, width, hpictures, hunderlines hclean⟩

/-- Behind a vertical tab the caret stands beside the character it marks, with nothing above it. -/
theorem caret_beside_marked :
    Parse.parse "\x0b@" = .error (.problems [.strayCharacter '@' 1]) ∧
      ¬ ∃ shown indent width,
        Pictures ((Problem.strayCharacter '@' 1).diagnostic.render "\x0b@").plain
          shown indent width ∧
        Underlines "\x0b@".toList shown indent width 1 2 := by
  have hscan : Scan.tokenize "\x0b@" = .error (.problems [.strayCharacter '@' 1]) := by
    cbv
  have hparse : Parse.parse "\x0b@" = .error (.problems [.strayCharacter '@' 1]) := by
    simp only [Parse.parse, Parse.read, hscan]
  have haround : Around "\x0b@".toList [] ['\x0b'] ['@'] [] :=
    ⟨by decide, by decide, by decide, .inl rfl, .inl rfl⟩
  have hmessage := (Parse.locates_and_oneLine hparse List.mem_cons_self).2
  have hpicture := @Around.pictures _ _ _ _ _ _ 1 haround hmessage rfl (by decide)
  refine ⟨hparse, ?_⟩
  rintro ⟨shown, indent, width, hpictures, hmarked, -⟩
  obtain ⟨rfl, rfl, rfl⟩ := hpicture.unique hpictures
  exact absurd (hmarked (by decide)).2 (by decide)

end Abacus
