/-
  Abacus/Proofs/Excerpts.lean
  ===========================
  **Carets are placed by the source.**  The line of a place is found in three ways: line feeds are
  counted for its number, the last one before the place is looked for to get the column, and the
  source is cut into lines to get its text.  `LineAt` says what the line is without any of them.

  A place cuts its source in four: what comes before the line, the line up to the place, the rest
  of the line, and what comes after.  `Around` is such a cut.  Each of the three ways is settled by
  one lemma about it, and the excerpt of a diagnostic is put together from these.
-/
import Abacus.Diagnostic.Render
import Mathlib

namespace Abacus

/-! ### Lines -/

namespace Position

theorem lines_ne_nil (cs : List Char) : lines cs ≠ [] := by
  cases cs with
  | nil => exact List.cons_ne_nil _ _
  | cons c rest =>
    rw [lines]
    split
    · exact List.cons_ne_nil _ _
    · split
      · exact List.cons_ne_nil _ _
      · exact List.cons_ne_nil _ _

theorem lines_of_not_mem {cs : List Char} (h : '\n' ∉ cs) : lines cs = [cs] := by
  induction cs with
  | nil => rfl
  | cons c rest ih =>
    rw [List.mem_cons, not_or] at h
    obtain ⟨hc, hrest⟩ := h
    rw [lines, if_neg (Ne.symm hc), ih hrest]

/-- A line feed ends a line wherever it stands. -/
theorem lines_append (front back : List Char) :
    lines (front ++ '\n' :: back) = lines front ++ lines back := by
  induction front with
  | nil => rfl
  | cons c front ih =>
    rw [List.cons_append, lines, lines, ih]
    by_cases hc : c = '\n'
    · rw [if_pos hc, if_pos hc, List.cons_append]
    · obtain ⟨line, others, hlines⟩ := List.exists_cons_of_ne_nil (lines_ne_nil front)
      rw [if_neg hc, if_neg hc, hlines]
      rfl

theorem length_lines (cs : List Char) : (lines cs).length = cs.count '\n' + 1 := by
  induction cs with
  | nil => rfl
  | cons c rest ih =>
    rw [lines]
    by_cases hc : c = '\n'
    · rw [if_pos hc, List.length_cons, ih, hc, List.count_cons_self]
    · obtain ⟨line, others, hlines⟩ := List.exists_cons_of_ne_nil (lines_ne_nil rest)
      rw [if_neg hc, List.count_cons_of_ne hc, ← ih, hlines]
      rfl

/-- The line of a source that holds a place goes from `first` up to `last`: no line feed stands in
    it, one stands before it unless it is the first line, and one behind it unless it is the last.
    A place that holds a line feed belongs to the line which that ends. -/
structure LineAt (source : List Char) (place first last : Nat) : Prop where
  first_le : first ≤ place
  le_last : place ≤ last
  inside : last ≤ source.length
  unbroken : ∀ i, first ≤ i → i < last → source[i]? ≠ some '\n'
  opens : first = 0 ∨ source[first - 1]? = some '\n'
  closes : last = source.length ∨ source[last]? = some '\n'

namespace LineAt

variable {source : List Char} {place first last first' last' : Nat}

theorem first_ge (h : LineAt source place first last) (h' : LineAt source place first' last') :
    first ≤ first' := by
  by_contra hlt
  rcases h.opens with hzero | hfeed
  · omega
  · -- the line feed before the one line would stand in the other
    have hle := h.first_le
    have hle' := h'.le_last
    exact h'.unbroken (first - 1) (by omega) (by omega) hfeed

theorem last_le (h : LineAt source place first last) (h' : LineAt source place first' last') :
    last' ≤ last := by
  by_contra hlt
  rcases h.closes with hend | hfeed
  · have hinside := h'.inside
    omega
  · have hle := h.le_last
    have hle' := h'.first_le
    exact h'.unbroken last (by omega) (by omega) hfeed

theorem unique (h : LineAt source place first last) (h' : LineAt source place first' last') :
    first' = first ∧ last' = last := by
  constructor
  · exact Nat.le_antisymm (h'.first_ge h) (h.first_ge h')
  · exact Nat.le_antisymm (h.last_le h') (h'.last_le h)

end LineAt

/-! ### A source around a place -/

theorem extract_middle (before middle after : List Char) {stop : Nat}
    (h : stop = before.length + middle.length) :
    (before ++ (middle ++ after)).extract before.length stop = middle := by
  rw [List.extract_eq_take_drop, List.drop_left]
  exact List.take_left' (by omega)

/-- A source, cut before and behind a line and somewhere in it. -/
structure Around (source before front back after : List Char) : Prop where
  source_eq : source = before ++ (front ++ (back ++ after))
  front : '\n' ∉ front
  back : '\n' ∉ back
  before : before = [] ∨ ∃ earlier, before = earlier ++ ['\n']
  after : after = [] ∨ ∃ later, after = '\n' :: later

theorem exists_lineEnd (cs : List Char) :
    ∃ line after, cs = line ++ after ∧ '\n' ∉ line ∧
      (after = [] ∨ ∃ later, after = '\n' :: later) := by
  induction cs with
  | nil => exact ⟨[], [], rfl, List.not_mem_nil, .inl rfl⟩
  | cons c rest ih =>
    by_cases hc : c = '\n'
    · exact ⟨[], c :: rest, rfl, List.not_mem_nil, .inr ⟨rest, by rw [hc]⟩⟩
    · obtain ⟨line, after, rfl, hline, hafter⟩ := ih
      refine ⟨c :: line, after, rfl, ?_, hafter⟩
      rw [List.mem_cons, not_or]
      exact ⟨Ne.symm hc, hline⟩

theorem exists_around {source : List Char} {place : Nat} (h : place ≤ source.length) :
    ∃ before front back after, Around source before front back after ∧
      before.length + front.length = place := by
  obtain ⟨back, after, hrest, hback, hafter⟩ := exists_lineEnd (source.drop place)
  -- the start of the line is its end when read backwards
  obtain ⟨line, others, htaken, hfront, hbefore⟩ := exists_lineEnd (source.take place).reverse
  have htake : source.take place = others.reverse ++ line.reverse := by
    rw [← List.reverse_append, ← htaken, List.reverse_reverse]
  refine ⟨others.reverse, line.reverse, back, after, ⟨?_, ?_, hback, ?_, hafter⟩, ?_⟩
  · rw [← hrest, ← List.append_assoc, ← htake, List.take_append_drop]
  · rwa [List.mem_reverse]
  · rcases hbefore with rfl | ⟨later, rfl⟩
    · exact .inl rfl
    · exact .inr ⟨later.reverse, List.reverse_cons⟩
  · rw [← List.length_append, ← htake, List.length_take_of_le h]

namespace Around

variable {source before front back after : List Char}

theorem line (h : Around source before front back after) : '\n' ∉ front ++ back := by
  rw [List.mem_append, not_or]
  exact ⟨h.front, h.back⟩

theorem lineAt (h : Around source before front back after) :
    LineAt source (before.length + front.length) before.length
      (before.length + front.length + back.length) := by
  have hsource : source = before ++ ((front ++ back) ++ after) := by
    rw [h.source_eq, List.append_assoc]
  constructor
  · omega
  · omega
  · rw [h.source_eq]
    simp only [List.length_append]
    omega
  · intro i hfirst hlast hfeed
    rw [hsource, List.getElem?_append_right hfirst, List.getElem?_append_left] at hfeed
    · exact h.line (List.mem_of_getElem? hfeed)
    · rw [List.length_append]
      omega
  · rcases h.before with rfl | ⟨earlier, rfl⟩
    · exact .inl rfl
    · right
      rw [h.source_eq, List.getElem?_append_left (by simp)]
      simp
  · rcases h.after with rfl | ⟨later, rfl⟩
    · left
      rw [h.source_eq]
      simp only [List.length_append, List.length_nil]
      omega
    · right
      rw [h.source_eq, List.getElem?_append_right (by omega),
        List.getElem?_append_right (by omega), List.getElem?_append_right (by omega)]
      simp [Nat.add_assoc]

/-- Counting line feeds, and looking back for the last one. -/
theorem locate (h : Around source before front back after) :
    Position.locate source (before.length + front.length : Nat) =
      ⟨before.count '\n' + 1, front.length + 1⟩ := by
  have hinside : before.length + front.length ≤ source.length := h.lineAt.le_last.trans h.lineAt.inside
  have htake : source.take (before.length + front.length) = before ++ front := by
    rw [h.source_eq, ← List.append_assoc, ← List.length_append, List.take_left]
  have hcolumn : (before ++ front).reverse.takeWhile (· ≠ '\n') = front.reverse := by
    have hall : ∀ c ∈ front.reverse, decide (c ≠ '\n') = true := by
      intro c hc
      rw [List.mem_reverse] at hc
      exact decide_eq_true fun heq => h.front (heq ▸ hc)
    rw [List.reverse_append, List.takeWhile_append_of_pos hall]
    rcases h.before with rfl | ⟨earlier, rfl⟩
    · simp
    · simp
  simp only [Position.locate, clamp, Int.toNat_natCast, Nat.min_eq_left hinside, htake, hcolumn,
    List.count_append, List.count_eq_zero_of_not_mem h.front, List.length_reverse, Nat.add_zero]

/-- Cutting the source into lines. -/
theorem getElem?_lines (h : Around source before front back after) :
    (lines source)[before.count '\n']? = some (front ++ back) := by
  have hrest : (lines (front ++ (back ++ after)))[0]? = some (front ++ back) := by
    rw [← List.append_assoc]
    rcases h.after with rfl | ⟨later, rfl⟩
    · rw [List.append_nil, lines_of_not_mem h.line]
      rfl
    · rw [lines_append, lines_of_not_mem h.line]
      rfl
  rw [h.source_eq]
  rcases h.before with rfl | ⟨earlier, rfl⟩
  · exact hrest
  · rw [List.append_assoc, List.singleton_append, lines_append, List.count_append,
      List.count_singleton_self, ← length_lines, List.getElem?_append_right (Nat.le_refl _),
      Nat.sub_self]
    exact hrest

theorem extract_line (h : Around source before front back after) :
    source.extract before.length (before.length + front.length + back.length) = front ++ back := by
  rw [h.source_eq, ← List.append_assoc front]
  exact extract_middle before _ after (by rw [List.length_append, Nat.add_assoc])

end Around
end Position

/-! ### Excerpts -/

open Position

/-- The excerpt of a diagnostic, by the cut that its start makes. -/
theorem Position.Around.excerpt {source before front back after : List Char}
    (h : Around source before front back after) {d : Diagnostic} {width : Nat}
    (hstart : d.start = (before.length + front.length : Nat))
    (hwidth : (width : Int) =
      max 1 (min d.stop (before.length + front.length + back.length : Nat) - d.start)) :
    Excerpt.of source d = ⟨before.count '\n' + 1, front ++ back, front.length, width⟩ := by
  have hlineEnd : d.start + ((front ++ back).length : Int) - (front.length + 1 : Nat) + 1 =
      (before.length + front.length + back.length : Nat) := by
    rw [hstart, List.length_append]
    omega
  have hlocate : Position.locate source d.start = ⟨before.count '\n' + 1, front.length + 1⟩ := by
    rw [hstart]
    exact h.locate
  simp only [Excerpt.of, hlocate, Nat.add_sub_cancel, h.getElem?_lines, Option.getD_some, hlineEnd,
    ← hwidth, Int.toNat_natCast]

theorem not_movesPrinting_of_isDigit {c : Char} (h : c.isDigit = true) :
    movesPrinting c = false := by
  simp only [movesPrinting, Bool.or_eq_false_iff, decide_eq_false_iff_not]
  refine ⟨⟨⟨⟨?_, ?_⟩, ?_⟩, ?_⟩, ?_⟩ <;>
    · rintro rfl
      revert h
      decide

theorem visible_append (front back : List Char) :
    visible (front ++ back) = visible front ++ visible back :=
  List.filter_append front back

theorem visible_eq_self {cs : List Char} (h : ∀ c ∈ cs, movesPrinting c = false) :
    visible cs = cs := by
  rw [visible, List.filter_eq_self]
  intro c hc
  rw [h c hc, Bool.not_false]

theorem visible_replicate (n : Nat) {c : Char} (h : movesPrinting c = false) :
    visible (List.replicate n c) = List.replicate n c := by
  apply visible_eq_self
  intro c' hc'
  rw [List.eq_of_mem_replicate hc', h]

theorem visible_gutter (number : Nat) : visible (gutter number) = gutter number := by
  have hdigits : visible (Nat.toDigits 10 number) = Nat.toDigits 10 number :=
    visible_eq_self fun c hc =>
      not_movesPrinting_of_isDigit (Nat.isDigit_of_mem_toDigits (by decide) (by decide) hc)
  simp only [gutter, visible_append, hdigits, visible_replicate _ (by decide : movesPrinting ' ' = false)]
  rfl

theorem visible_blankGutter (number : Nat) : visible (blankGutter number) = blankGutter number := by
  simp only [blankGutter, visible_append,
    visible_replicate _ (by decide : movesPrinting ' ' = false)]
  rfl

theorem length_blankGutter (number : Nat) :
    (blankGutter number).length = (gutter number).length := by
  simp only [blankGutter, gutter, List.length_append, List.length_replicate, List.length_cons,
    List.length_nil]
  omega

/-- The text of a shown diagnostic, row by row. -/
theorem plain_render (source : String) (d : Diagnostic) :
    (d.render source).plain =
      visible ("Error: ".toList ++ d.message.toList) ++ '\n' ::
        ((gutter (Excerpt.of source.toList d).number ++ visible (Excerpt.of source.toList d).line) ++
          '\n' :: (blankGutter (Excerpt.of source.toList d).number ++
            List.replicate (Excerpt.of source.toList d).indent ' ' ++
            List.replicate (Excerpt.of source.toList d).width '^')) := by
  have hfeed : visible ['\n'] = ['\n'] := rfl
  simp only [Diagnostic.render, Styled.ofFragments, Diagnostic.fragments, List.flatMap_cons,
    List.flatMap_nil, hfeed, visible_gutter, visible_blankGutter,
    visible_replicate _ (by decide : movesPrinting ' ' = false),
    visible_replicate _ (by decide : movesPrinting '^' = false), List.append_assoc,
    List.append_nil, List.singleton_append]

/-- **Carets are placed exactly.**  A diagnostic that starts in its source or at the end of it is
    shown with the line that holds its start, under the number of that line.  Behind a gutter as
    wide as the one with the number, blanks lead up to the start, and carets go from there to the
    end of the diagnostic or of the line, whichever comes first; there is at least one, and none
    stands further than one column past the line. -/
theorem render_geometry {source : String} {d : Diagnostic} (hstart : 0 ≤ d.start)
    (hinside : d.start ≤ source.toList.length) :
    ∃ first last number indent width : Nat,
      (∀ first' last', LineAt source.toList d.start.toNat first' last' ↔
        first' = first ∧ last' = last) ∧
      number = (source.toList.take first).count '\n' + 1 ∧
      (lines source.toList)[number - 1]? = some (source.toList.extract first last) ∧
      (indent : Int) = d.start - first ∧
      (width : Int) = max 1 (min d.stop last - d.start) ∧
      indent + width ≤ last - first + 1 ∧
      (blankGutter number).length = (gutter number).length ∧
      Excerpt.of source.toList d = ⟨number, source.toList.extract first last, indent, width⟩ ∧
      (d.render source).plain = visible ("Error: ".toList ++ d.message.toList) ++ '\n' ::
        ((gutter number ++ visible (source.toList.extract first last)) ++ '\n' ::
          (blankGutter number ++ List.replicate indent ' ' ++ List.replicate width '^')) := by
  obtain ⟨place, hplace⟩ := Int.eq_ofNat_of_zero_le hstart
  rw [hplace, Int.ofNat_le] at hinside
  obtain ⟨before, front, back, after, haround, rfl⟩ := exists_around hinside
  obtain ⟨width, hwidth⟩ : ∃ width : Nat, (width : Int) =
      max 1 (min d.stop (before.length + front.length + back.length : Nat) - d.start) :=
    ⟨_, Int.toNat_of_nonneg (by omega)⟩
  have hexcerpt := haround.excerpt hplace hwidth
  have htake : source.toList.take before.length = before := by
    rw [haround.source_eq, List.take_left]
  refine ⟨before.length, before.length + front.length + back.length, before.count '\n' + 1,
    front.length, width, ?_, ?_, ?_, ?_, hwidth, ?_, length_blankGutter _, ?_, ?_⟩
  · intro first' last'
    rw [hplace, Int.toNat_natCast]
    constructor
    · exact haround.lineAt.unique
    · rintro ⟨rfl, rfl⟩
      exact haround.lineAt
  · rw [htake]
  · rw [haround.extract_line]
    exact haround.getElem?_lines
  · omega
  · omega
  · rw [haround.extract_line]
    exact hexcerpt
  · rw [plain_render, hexcerpt, haround.extract_line]

/-- A stretch over three lines that starts on the second of them. -/
theorem render_geometry_clipped :
    (0 : Int) ≤ 4 ∧ (4 : Int) ≤ "a;\n (b\n c".toList.length ∧
      (Diagnostic.render "a;\n (b\n c" ⟨"Unclosed", 4, 9⟩).plain =
        "Error: Unclosed\n   2 |  (b\n     |  ^^".toList := by
  refine ⟨by decide, by decide, ?_⟩
  obtain ⟨first, last, number, indent, width, hline, hnumber, -, hindent, hwidth, -, -, -, hplain⟩ :=
    @render_geometry "a;\n (b\n c" ⟨"Unclosed", 4, 9⟩ (by decide) (by decide)
  have haround : Around "a;\n (b\n c".toList "a;\n".toList [' '] ['(', 'b'] "\n c".toList :=
    ⟨by decide, by decide, by decide, .inr ⟨"a;".toList, by decide⟩, .inr ⟨" c".toList, by decide⟩⟩
  obtain ⟨rfl, rfl⟩ := (hline 3 6).mp haround.lineAt
  simp only at hindent hwidth
  obtain rfl : indent = 1 := by omega
  obtain rfl : width = 2 := by omega
  rw [hplain, hnumber]
  decide

end Abacus
