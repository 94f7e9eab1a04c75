/-
  Abacus/Proofs/DepthSetting.lean
  ===============================
  **The depth setting is decided exactly.**  The value that the environment holds is taken
  without the blanks at its ends.  What is left sets the depth if nothing is left, or if it is
  a numeral for a positive number; in every other case the default holds and one warning quotes
  the text.

  The numerals are described without reading them.  `HasWorth` is a decimal digit of some
  script, `IsRow` a row of digits between which single underscores stand, and `Denotes` gives
  the number by positions: `integer?_eq_some_iff` says that exactly these are read.
-/
import Mathlib.Data.List.DropRight
import Mathlib.Data.List.Forall2
import Mathlib.Data.Nat.Digits.Defs
import Abacus.Settings

namespace Abacus

namespace Text

/-! ### Stripped texts -/

/-- What is left of a text without the blanks at its ends. -/
structure Stripped (text stripped : List Char) : Prop where
  around : ∃ before after, text = before ++ stripped ++ after ∧
    (∀ c ∈ before, isBlank c = true) ∧ ∀ c ∈ after, isBlank c = true
  first : ∀ c ∈ stripped.head?, isBlank c = false
  last : ∀ c ∈ stripped.getLast?, isBlank c = false

theorem stripped_trimChars (cs : List Char) : Stripped cs (trimChars cs) := by
  have htrim : trimChars cs = (cs.dropWhile isBlank).rdropWhile isBlank := rfl
  rw [htrim]
  constructor
  · refine ⟨cs.takeWhile isBlank, (cs.dropWhile isBlank).rtakeWhile isBlank, ?_, ?_, ?_⟩
    · rw [List.append_assoc, List.rdropWhile_append_rtakeWhile, List.takeWhile_append_dropWhile]
    · exact fun c hc => List.mem_takeWhile_imp hc
    · exact fun c hc => List.mem_rtakeWhile_imp hc
  · intro c hc
    obtain ⟨rest, hrest⟩ := List.rdropWhile_prefix isBlank (cs.dropWhile isBlank)
    have hhead : (cs.dropWhile isBlank).head? = some c := by
      rw [← hrest, List.head?_append, Option.mem_def.mp hc]
      rfl
    have hnot := List.head?_dropWhile_not isBlank cs
    rw [hhead] at hnot
    exact hnot
  · intro c hc
    obtain ⟨hne, rfl⟩ := List.mem_getLast?_eq_getLast hc
    have hlast := List.rdropWhile_last_not isBlank (cs.dropWhile isBlank) hne
    exact Bool.eq_false_iff.mpr hlast

/-! ### Digits -/

/-- A decimal digit of some script, and what it is worth. -/
def HasWorth (c : Char) (worth : Nat) : Prop :=
  worth < 10 ∧ ∃ first ∈ zeros, c.toNat = first + worth

/-- The digits of two scripts never overlap. -/
theorem zeros_apart : zeros.Pairwise fun first next => first + 10 ≤ next := by
  decide +kernel

theorem digitValue?_eq_some_iff {c : Char} {worth : Nat} :
    digitValue? c = some worth ↔ HasWorth c worth := by
  constructor
  · intro h
    obtain ⟨first, hfind, rfl⟩ := Option.map_eq_some_iff.mp h
    have hmem := List.mem_of_find?_eq_some hfind
    have hcovers := List.find?_some hfind
    simp only [Bool.and_eq_true, decide_eq_true_eq] at hcovers
    exact ⟨by omega, first, hmem, by omega⟩
  · rintro ⟨hworth, first, hmem, hc⟩
    have hvalue : c.toNat - first = worth := by omega
    rw [digitValue?, Option.map_eq_some_iff]
    refine ⟨first, ?_, hvalue⟩
    -- the scripts before this one end before its zero
    obtain ⟨before, after, hzeros⟩ := List.append_of_mem hmem
    have hapart := zeros_apart
    rw [hzeros, List.pairwise_append] at hapart
    rw [hzeros, List.find?_append, List.find?_eq_none.mpr]
    · simp [hc, hworth]
    · intro first' hfirst'
      have hbelow := hapart.2.2 first' hfirst' first (by simp)
      simp only [Bool.and_eq_true, decide_eq_true_eq]
      omega

theorem HasWorth.ne {c d : Char} {worth : Nat} (h : HasWorth c worth)
    (hd : digitValue? d = none) : c ≠ d := by
  rintro rfl
  rw [digitValue?_eq_some_iff.mpr h] at hd
  cases hd

/-! ### Rows of digits -/

/-- A row of digits of the given worths.  Single underscores may stand between the digits. -/
structure IsRow (cs : List Char) (worths : List Nat) : Prop where
  digits : List.Forall₂ HasWorth (cs.filter (· ≠ '_')) worths
  some_digit : worths ≠ []
  first : cs.head? ≠ some '_'
  last : cs.getLast? ≠ some '_'
  single : ¬ ['_', '_'] <:+: cs

section Rows

variable {c : Char} {worth : Nat} {cs rest : List Char} {worths others : List Nat}

theorem IsRow.ne_nil (h : IsRow cs worths) : cs ≠ [] := by
  rintro rfl
  exact h.some_digit (List.forall₂_nil_left_iff.mp h.digits)

theorem IsRow.uncons (h : IsRow (c :: rest) worths) :
    ∃ worth others, HasWorth c worth ∧ worths = worth :: others ∧
      List.Forall₂ HasWorth (rest.filter (· ≠ '_')) others := by
  have hc : c ≠ '_' := fun hc => h.first (by rw [hc]; rfl)
  have hdigits := h.digits
  rw [List.filter_cons_of_pos (by simpa using hc)] at hdigits
  obtain ⟨worth, others, hworth, hothers, rfl⟩ := List.forall₂_cons_left_iff.mp hdigits
  exact ⟨worth, others, hworth, rfl, hothers⟩

theorem isRow_singleton (hc : HasWorth c worth) : IsRow [c] [worth] := by
  have hne : c ≠ '_' := hc.ne (by decide)
  constructor
  · simpa [hne] using hc
  · simp
  · simpa using hne
  · simpa using hne
  · intro hinside
    have hlength := hinside.length_le
    simp at hlength

theorem IsRow.cons (h : IsRow rest others) (hc : HasWorth c worth) :
    IsRow (c :: rest) (worth :: others) := by
  have hne : c ≠ '_' := hc.ne (by decide)
  obtain ⟨d, tail, rfl⟩ := List.exists_cons_of_ne_nil h.ne_nil
  constructor
  · rw [List.filter_cons_of_pos (by simpa using hne)]
    exact .cons hc h.digits
  · simp
  · simpa using hne
  · rw [List.getLast?_cons_cons]
    exact h.last
  · rw [List.infix_cons_iff, List.cons_prefix_cons]
    rintro (⟨heq, -⟩ | hinside)
    · exact hne heq.symm
    · exact h.single hinside

theorem IsRow.cons_underscore (h : IsRow rest others) (hc : HasWorth c worth) :
    IsRow (c :: '_' :: rest) (worth :: others) := by
  have hne : c ≠ '_' := hc.ne (by decide)
  obtain ⟨d, tail, rfl⟩ := List.exists_cons_of_ne_nil h.ne_nil
  constructor
  · rw [List.filter_cons_of_pos (by simpa using hne), List.filter_cons_of_neg (by simp)]
    exact .cons hc h.digits
  · simp
  · simpa using hne
  · rw [List.getLast?_cons_cons, List.getLast?_cons_cons]
    exact h.last
  · rw [List.infix_cons_iff, List.infix_cons_iff]
    rintro (hfront | hfront | hinside)
    · exact hne (List.cons_prefix_cons.mp hfront).1.symm
    · have hnext := (List.cons_prefix_cons.mp hfront).2
      exact h.first (by rw [(List.cons_prefix_cons.mp hnext).1]; rfl)
    · exact h.single hinside

/-- The end of a row is a row, unless it starts with an underscore. -/
theorem IsRow.of_append (front : List Char) (h : IsRow (front ++ rest) worths) (hrest : rest ≠ [])
    (hfirst : rest.head? ≠ some '_')
    (hdigits : List.Forall₂ HasWorth (rest.filter (· ≠ '_')) others) : IsRow rest others := by
  obtain ⟨d, tail, rfl⟩ := List.exists_cons_of_ne_nil hrest
  constructor
  · exact hdigits
  · rintro rfl
    rw [List.filter_cons_of_pos (by simpa using hfirst)] at hdigits
    cases hdigits
  · exact hfirst
  · have hlast := h.last
    rwa [List.getLast?_append_of_ne_nil _ hrest] at hlast
  · exact fun hinside => h.single (hinside.trans (List.suffix_append _ _).isInfix)

/-- **What is read as a row of digits is one.** -/
theorem digitValues?_eq_some_iff : digitValues? cs = some worths ↔ IsRow cs worths := by
  fun_induction digitValues? cs generalizing worths with
  | case1 => simpa using fun h : IsRow [] worths => h.ne_nil rfl
  | case2 c =>
    rw [Option.map_eq_some_iff]
    constructor
    · rintro ⟨worth, hworth, rfl⟩
      exact isRow_singleton (digitValue?_eq_some_iff.mp hworth)
    · intro h
      obtain ⟨worth, others, hworth, rfl, hothers⟩ := h.uncons
      rw [List.filter_nil, List.forall₂_nil_left_iff] at hothers
      exact ⟨worth, digitValue?_eq_some_iff.mpr hworth, by rw [hothers]⟩
  | case3 c rest ih =>
    simp only [Option.bind_eq_bind, Option.bind_eq_some_iff, Option.pure_def, Option.some.injEq]
    constructor
    · rintro ⟨worth, hworth, others, hothers, rfl⟩
      exact (ih.mp hothers).cons_underscore (digitValue?_eq_some_iff.mp hworth)
    · intro h
      obtain ⟨worth, others, hworth, rfl, hothers⟩ := h.uncons
      rw [List.filter_cons_of_neg (by simp)] at hothers
      have hrest : rest ≠ [] := by
        rintro rfl
        exact h.last rfl
      have hfirst : rest.head? ≠ some '_' := by
        intro hhead
        obtain ⟨tail, rfl⟩ := List.head?_eq_some_iff.mp hhead
        exact h.single ⟨[c], tail, rfl⟩
      exact ⟨worth, digitValue?_eq_some_iff.mpr hworth, others,
        ih.mpr (IsRow.of_append [c, '_'] h hrest hfirst hothers), rfl⟩
  | case4 c rest hsingle hunderscore ih =>
    simp only [Option.bind_eq_bind, Option.bind_eq_some_iff, Option.pure_def, Option.some.injEq]
    constructor
    · rintro ⟨worth, hworth, others, hothers, rfl⟩
      exact (ih.mp hothers).cons (digitValue?_eq_some_iff.mp hworth)
    · intro h
      obtain ⟨worth, others, hworth, rfl, hothers⟩ := h.uncons
      have hfirst : rest.head? ≠ some '_' := by
        intro hhead
        obtain ⟨tail, rfl⟩ := List.head?_eq_some_iff.mp hhead
        exact hunderscore tail rfl
      exact ⟨worth, digitValue?_eq_some_iff.mpr hworth, others,
        ih.mpr (IsRow.of_append [c] h hsingle hfirst hothers), rfl⟩

end Rows

/-! ### Integers -/

/-- The number that a row of digits stands for: each digit counts ten times as much as the one
    to its right. -/
theorem ofDigits_eq (worths : List Nat) : ofDigits worths = Nat.ofDigits 10 worths.reverse := by
  rw [Nat.ofDigits_eq_foldr, List.foldr_reverse, ofDigits]
  congr 1
  funext read worth
  simp only [Nat.cast_id]
  omega

/-- A row of at most 4300 digits, and the number it stands for. -/
def DenotesNat (cs : List Char) (n : Nat) : Prop :=
  ∃ worths, IsRow cs worths ∧ worths.length ≤ 4300 ∧ n = Nat.ofDigits 10 worths.reverse

theorem natural?_eq_some_iff {cs : List Char} {n : Nat} :
    natural? cs = some n ↔ DenotesNat cs n := by
  simp only [natural?, Option.bind_eq_bind, Option.bind_eq_some_iff, digitValues?_eq_some_iff,
    ofDigits_eq, maxDigits, DenotesNat]
  constructor
  · rintro ⟨worths, hrow, h⟩
    split at h
    · exact ⟨worths, hrow, ‹_›, (Option.some.inj h).symm⟩
    · cases h
  · rintro ⟨worths, hrow, hlength, rfl⟩
    exact ⟨worths, hrow, if_pos hlength⟩

/-- A numeral and the number it stands for: a sign or none, and a row of digits. -/
inductive Denotes : List Char → Int → Prop where
  | unsigned {cs : List Char} {n : Nat} (h : DenotesNat cs n) : Denotes cs n
  | plus {cs : List Char} {n : Nat} (h : DenotesNat cs n) : Denotes ('+' :: cs) n
  | minus {cs : List Char} {n : Nat} (h : DenotesNat cs n) : Denotes ('-' :: cs) (-n)

/-- A row of digits is not taken for a sign and a rest. -/
theorem integer?_of_denotesNat {cs : List Char} {n : Nat} (h : DenotesNat cs n) :
    integer? cs = some (n : Int) := by
  have hread := natural?_eq_some_iff.mpr h
  obtain ⟨worths, hrow, -, -⟩ := h
  obtain ⟨c, rest, rfl⟩ := List.exists_cons_of_ne_nil hrow.ne_nil
  obtain ⟨worth, -, hc, -, -⟩ := hrow.uncons
  unfold integer?
  split
  · rename_i heq
    exact absurd (List.cons.inj heq).1 (hc.ne (by decide))
  · rename_i heq
    exact absurd (List.cons.inj heq).1 (hc.ne (by decide))
  · rw [hread]
    rfl

/-- **Exactly the numerals are read, each as the number it stands for.** -/
theorem integer?_eq_some_iff {cs : List Char} {n : Int} : integer? cs = some n ↔ Denotes cs n := by
  constructor
  · intro h
    unfold integer? at h
    split at h <;>
      simp only [Option.map_eq_some_iff, Option.bind_eq_bind, Option.bind_eq_some_iff,
        Option.pure_def, Option.some.injEq] at h <;>
      obtain ⟨_, ⟨m, hm, rfl⟩, rfl⟩ := h
    · exact .minus (natural?_eq_some_iff.mp hm)
    · exact .plus (natural?_eq_some_iff.mp hm)
    · exact .unsigned (natural?_eq_some_iff.mp hm)
  · intro h
    cases h with
    | unsigned h => exact integer?_of_denotesNat h
    | plus h => simp [integer?, natural?_eq_some_iff.mpr h]
    | minus h => simp [integer?, natural?_eq_some_iff.mpr h]

example : integer? "-٠１_२".toList = some (-12) := by decide

end Text

/-! ### The setting -/

namespace Settings

/-- What a text without blanks at its ends sets the depth to. -/
inductive SetsDepth : String → Nat → Prop where
  | default : SetsDepth "" 128
  | numeral {text : String} {n : Nat} (hpositive : 1 ≤ n) (h : Text.Denotes text.toList n) :
      SetsDepth text n

/-- The text that the environment holds for the depth, without the blanks at its ends. -/
def depthText (env : Environment) : String :=
  Text.trim (env.maxDepth.getD "")

theorem stripped_depthText (env : Environment) :
    Text.Stripped (env.maxDepth.getD "").toList (depthText env).toList := by
  simp only [depthText, Text.trim, String.toList_ofList]
  exact Text.stripped_trimChars _

theorem environmentDepth_of_setsDepth {env : Environment} {n : Nat}
    (h : SetsDepth (depthText env) n) : environmentDepth env = (n, []) := by
  generalize htext : depthText env = text at h
  unfold depthText at htext
  simp only [environmentDepth, htext]
  cases h with
  | default => rfl
  | numeral hpositive h =>
    have hread := Text.integer?_eq_some_iff.mpr h
    have hne : text ≠ "" := by
      rintro rfl
      cases hread
    obtain ⟨m, rfl⟩ := Nat.exists_eq_add_of_le' hpositive
    rw [if_neg hne, hread]

theorem environmentDepth_of_not_setsDepth {env : Environment}
    (h : ¬ ∃ n, SetsDepth (depthText env) n) :
    environmentDepth env = (128, [depthWarning (depthText env)]) := by
  generalize htext : depthText env = text at h ⊢
  unfold depthText at htext
  simp only [environmentDepth, htext]
  have hne : text ≠ "" := by
    rintro rfl
    exact h ⟨128, .default⟩
  rw [if_neg hne]
  split
  · rename_i m hread
    exact absurd ⟨m + 1, .numeral (Nat.le_add_left 1 m) (Text.integer?_eq_some_iff.mp hread)⟩ h
  · rfl

theorem depthWarning_eq (text : String) :
    depthWarning text = ⟨.warning, .settings, "Invalid NOVARC_MAX_DEPTH value '" ++ text ++
      "'. Expected a positive integer. Defaulting to 128."⟩ := by
  have hdefault : toString defaultMaxDepth = "128" := by decide
  simp only [depthWarning, warning, hdefault, String.append_assoc]
  rfl

theorem maxDepth_none {env : Environment} {n : Nat} {records : List Record}
    (h : environmentDepth env = (n, records)) : maxDepth env none = (.ok n, records) := by
  simp only [maxDepth, h]

/-- **The depth setting is decided exactly.**  Where no depth is given on the spot, the one of
    the environment is taken without a warning just if its stripped text is blank, which stands
    for 128, or a numeral for a positive number.  For every other text it is 128, with one
    warning that quotes the text. -/
theorem maxDepth_decided (env : Environment) :
    Text.Stripped (env.maxDepth.getD "").toList (depthText env).toList ∧
    (∀ n, maxDepth env none = (.ok n, []) ↔ SetsDepth (depthText env) n) ∧
    (maxDepth env none = (.ok 128, [⟨.warning, .settings,
        "Invalid NOVARC_MAX_DEPTH value '" ++ depthText env ++
          "'. Expected a positive integer. Defaulting to 128."⟩]) ↔
      ¬ ∃ n, SetsDepth (depthText env) n) := by
  rw [← depthWarning_eq]
  refine ⟨stripped_depthText env, ?_⟩
  by_cases hsets : ∃ n, SetsDepth (depthText env) n
  · obtain ⟨m, hm⟩ := hsets
    have hdepth := environmentDepth_of_setsDepth hm
    rw [maxDepth_none hdepth]
    constructor
    · intro n
      constructor
      · intro h
        rw [← Except.ok.inj (Prod.mk.inj h).1]
        exact hm
      · intro hn
        have hsame := hdepth.symm.trans (environmentDepth_of_setsDepth hn)
        rw [(Prod.mk.inj hsame).1]
    · constructor
      · exact fun h => absurd (Prod.mk.inj h).2.symm (List.cons_ne_nil _ _)
      · exact fun hnot => absurd ⟨m, hm⟩ hnot
  · rw [maxDepth_none (environmentDepth_of_not_setsDepth hsets)]
    constructor
    · intro n
      constructor
      · exact fun h => absurd (Prod.mk.inj h).2 (List.cons_ne_nil _ _)
      · exact fun hn => absurd ⟨n, hn⟩ hsets
    · exact ⟨fun _ => hsets, fun _ => rfl⟩

end Settings
end Abacus
