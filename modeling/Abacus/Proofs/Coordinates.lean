/-
  Abacus/Proofs/Coordinates.lean
  ==============================
  **Lines and columns are coordinates.**  Every place of a source has one position, every position
  that the source has belongs to one place, and going on in the source means going on in the
  order of positions.

  `offset` goes back from a position to its place by adding up the lines before it.  It undoes
  `locate`, and it grows strictly in the order of positions.  The rest follows from these two
  facts alone, without another look at how `locate` counts.
-/
import Abacus.Proofs.Excerpts

namespace Abacus.Position

/-! ### Positions of a source -/

/-- The place where a line starts: the lines before it, each with its line feed. -/
def lineStart (source : List Char) (line : Nat) : Nat :=
  (((lines source).take (line - 1)).map fun text => text.length + 1).sum

/-- The place of a position. -/
def offset (source : List Char) (p : Position) : Nat :=
  lineStart source p.line + (p.column - 1)

/-- The positions that a source has: on each of its lines one for each character, and one more
    for the end of the line. -/
structure IsIn (source : List Char) (p : Position) : Prop where
  one_le_line : 1 ≤ p.line
  line_le : p.line ≤ (lines source).length
  one_le_column : 1 ≤ p.column
  column_le : p.column ≤ ((lines source).getD (p.line - 1) []).length + 1

/-- The order of positions: by line, and on one line by column. -/
def Before (p q : Position) : Prop :=
  p.line < q.line ∨ p.line = q.line ∧ p.column < q.column

theorem before_or_eq_or_before (p q : Position) : p.Before q ∨ p = q ∨ q.Before p := by
  obtain ⟨line, column⟩ := p
  obtain ⟨line', column'⟩ := q
  simp only [Before, Position.mk.injEq]
  omega

theorem lines_eq_splitOn (source : List Char) : lines source = source.splitOn '\n' := by
  induction source with
  | nil => rfl
  | cons c rest ih =>
    rw [List.splitOn_eq_splitOnP] at ih
    rw [List.splitOn_eq_splitOnP, List.splitOnP_cons_eq_if_modifyHead, lines, ← ih]
    by_cases hc : c = '\n'
    · rw [if_pos hc, if_pos (beq_iff_eq.mpr hc)]
    · obtain ⟨line, others, hlines⟩ := List.exists_cons_of_ne_nil (lines_ne_nil rest)
      rw [if_neg hc, if_neg (by simpa using hc), hlines, List.modifyHead_cons]

/-! ### Where lines start -/

theorem sum_lines (source : List Char) :
    ((lines source).map fun text => text.length + 1).sum = source.length + 1 := by
  induction source with
  | nil => rfl
  | cons c rest ih =>
    by_cases hc : c = '\n'
    · rw [lines, if_pos hc, List.map_cons, List.sum_cons, ih, List.length_cons]
      simp only [List.length_nil]
      omega
    · obtain ⟨line, others, hlines⟩ := List.exists_cons_of_ne_nil (lines_ne_nil rest)
      rw [hlines, List.map_cons, List.sum_cons] at ih
      rw [lines, if_neg hc, hlines]
      simp only [List.map_cons, List.sum_cons, List.length_cons]
      omega

theorem lineStart_le (source : List Char) {line line' : Nat} (h : line ≤ line') :
    lineStart source line ≤ lineStart source line' := by
  have htake : ((lines source).take (line - 1)).Sublist ((lines source).take (line' - 1)) :=
    (List.take_prefix_take_left (by omega)).sublist
  exact (htake.map _).sum_le_sum fun _ _ => Nat.zero_le _

theorem lineStart_le_length (source : List Char) (line : Nat) :
    lineStart source line ≤ source.length + 1 := by
  rw [← sum_lines]
  exact ((List.take_sublist _ _).map _).sum_le_sum fun _ _ => Nat.zero_le _

namespace IsIn

variable {source : List Char} {p q : Position}

/-- The next line starts behind the line feed that ends this one. -/
theorem lineStart_succ (h : p.IsIn source) :
    lineStart source (p.line + 1) =
      lineStart source p.line + (((lines source).getD (p.line - 1) []).length + 1) := by
  have hline := h.one_le_line
  have hinside : p.line - 1 < (lines source).length := by
    have hle := h.line_le
    omega
  have hnext : p.line + 1 - 1 = p.line - 1 + 1 := by omega
  rw [lineStart, lineStart, hnext, List.take_add_one, List.getElem?_eq_getElem hinside,
    List.getD_eq_getElem _ _ hinside]
  simp only [Option.toList_some, List.map_append, List.map_cons, List.map_nil, List.sum_append,
    List.sum_singleton]

theorem offset_lt_lineStart (h : p.IsIn source) :
    p.offset source < lineStart source (p.line + 1) := by
  have hcolumn := h.column_le
  have hpos := h.one_le_column
  rw [h.lineStart_succ, offset]
  omega

theorem offset_le (h : p.IsIn source) : p.offset source ≤ source.length := by
  have hlt := h.offset_lt_lineStart
  have hle := lineStart_le_length source (p.line + 1)
  omega

/-- **Places grow in the order of positions.** -/
theorem offset_lt (h : p.IsIn source) (hbefore : p.Before q) :
    p.offset source < q.offset source := by
  have hpos := h.one_le_column
  rcases hbefore with hline | ⟨hline, hcolumn⟩
  · calc p.offset source < lineStart source (p.line + 1) := h.offset_lt_lineStart
      _ ≤ lineStart source q.line := lineStart_le source hline
      _ ≤ q.offset source := Nat.le_add_right _ _
  · rw [offset, offset, hline]
    omega

theorem eq_of_offset_eq (hp : p.IsIn source) (hq : q.IsIn source)
    (h : p.offset source = q.offset source) : p = q := by
  rcases before_or_eq_or_before p q with hbefore | heq | hbefore
  · exact absurd (hp.offset_lt hbefore) (by omega)
  · exact heq
  · exact absurd (hq.offset_lt hbefore) (by omega)

theorem before_of_offset_lt (hq : q.IsIn source) (h : p.offset source < q.offset source) :
    p.Before q := by
  rcases before_or_eq_or_before p q with hbefore | rfl | hbefore
  · exact hbefore
  · exact absurd h (Nat.lt_irrefl _)
  · exact absurd (hq.offset_lt hbefore) (by omega)

end IsIn

/-! ### Positions of places -/

section Locate

variable {source before front back after : List Char}

theorem Around.lineStart_eq (h : Around source before front back after) :
    lineStart source (before.count '\n' + 1) = before.length := by
  rw [lineStart, Nat.add_sub_cancel]
  rcases h.before with rfl | ⟨earlier, rfl⟩
  · rfl
  · -- the lines before this one are the lines of what stands before the last line feed
    have hlines : lines source = lines earlier ++ lines (front ++ (back ++ after)) := by
      rw [h.source_eq, List.append_assoc, List.singleton_append, lines_append]
    rw [hlines, List.count_append, List.count_singleton_self, ← length_lines, List.take_left,
      sum_lines, List.length_append, List.length_singleton]

theorem Around.isIn (h : Around source before front back after) :
    (Position.mk (before.count '\n' + 1) (front.length + 1)).IsIn source := by
  have hline := h.getElem?_lines
  have hlt : before.count '\n' < (lines source).length := (List.getElem?_eq_some_iff.mp hline).1
  constructor
  · exact Nat.le_add_left 1 _
  · exact hlt
  · exact Nat.le_add_left 1 _
  · rw [Nat.add_sub_cancel, List.getD_eq_getElem?_getD, hline, Option.getD_some, List.length_append]
    exact Nat.add_le_add_right (Nat.le_add_right _ _) 1

/-- A place inside the source is where its position says. -/
theorem locate_natCast {place : Nat} (h : place ≤ source.length) :
    (locate source place).IsIn source ∧ (locate source place).offset source = place := by
  obtain ⟨before, front, back, after, haround, rfl⟩ := exists_around h
  rw [haround.locate]
  refine ⟨haround.isIn, ?_⟩
  rw [offset, haround.lineStart_eq, Nat.add_sub_cancel]

theorem locate_eq_clamp (source : List Char) (offset : Int) :
    locate source offset = locate source (clamp source.length offset : Nat) := by
  have hclamp : clamp source.length (clamp source.length offset : Nat) = clamp source.length offset := by
    simp only [clamp, Int.toNat_natCast]
    omega
  rw [locate, locate, hclamp]

end Locate

/-- **Lines and columns are coordinates.**  Any place, brought inside the source if it is outside,
    has a position that the source has, and the lines before it with their line feeds and the
    columns before it add up to the place.  Different places have different positions, later
    places have later positions, and every position that the source has belongs to one place. -/
theorem locate_coordinates (source : List Char) :
    lines source = source.splitOn '\n' ∧
    (∀ place : Int, (locate source place).IsIn source ∧
      ((locate source place).offset source : Int) = max 0 (min place source.length)) ∧
    (∀ place place' : Nat, place ≤ source.length → place' ≤ source.length →
      locate source place = locate source place' → place = place') ∧
    (∀ place place' : Nat, place < place' → place' ≤ source.length →
      (locate source place).Before (locate source place')) ∧
    ∀ p : Position, p.IsIn source →
      ∃! place : Nat, place ≤ source.length ∧ locate source place = p := by
  have hinjective : ∀ place place' : Nat, place ≤ source.length → place' ≤ source.length →
      locate source place = locate source place' → place = place' := by
    intro place place' hle hle' heq
    rw [← (locate_natCast hle).2, heq, (locate_natCast hle').2]
  refine ⟨lines_eq_splitOn source, ?_, hinjective, ?_, ?_⟩
  · intro place
    have hinside : clamp source.length place ≤ source.length := Nat.min_le_right _ _
    obtain ⟨hin, hoffset⟩ := locate_natCast hinside
    rw [locate_eq_clamp, hoffset, clamp]
    exact ⟨hin, by omega⟩
  · intro place place' hlt hle
    apply (locate_natCast hle).1.before_of_offset_lt
    rwa [(locate_natCast hle).2, (locate_natCast (hlt.le.trans hle)).2]
  · intro p hp
    obtain ⟨hin, hoffset⟩ := locate_natCast hp.offset_le
    have hlocate : locate source (p.offset source : Nat) = p := hin.eq_of_offset_eq hp hoffset
    refine ⟨p.offset source, ⟨hp.offset_le, hlocate⟩, ?_⟩
    rintro place ⟨hle, heq⟩
    exact hinjective place _ hle hp.offset_le (heq.trans hlocate.symm)

/-- The empty line after a last line feed, in a source with another empty line inside. -/
theorem locate_coordinates_last_line :
    (Position.mk 4 1).IsIn "ab\n\nc\n".toList ∧ locate "ab\n\nc\n".toList 99 = ⟨4, 1⟩ ∧
      ∃! place : Nat, place ≤ "ab\n\nc\n".toList.length ∧
        locate "ab\n\nc\n".toList place = ⟨4, 1⟩ := by
  have hin : (Position.mk 4 1).IsIn "ab\n\nc\n".toList :=
    ⟨by decide, by decide, by decide, by decide⟩
  obtain ⟨-, hlocate, -, -, hunique⟩ := locate_coordinates "ab\n\nc\n".toList
  obtain ⟨hlast, hoffset⟩ := hlocate 99
  refine ⟨hin, ?_, hunique ⟨4, 1⟩ hin⟩
  exact hlast.eq_of_offset_eq hin (Int.ofNat.inj hoffset)

end Abacus.Position
