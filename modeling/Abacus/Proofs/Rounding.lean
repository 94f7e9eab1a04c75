/-
  Abacus/Proofs/Rounding.lean
  ===========================
  **Rounding gives the nearest double.**  `nearest` finds a shift, divides and puts a word together.
  What it is meant to find can be said without any of this: `IsNearest` asks that no word stands for
  a number closer to the given one, and that of two equally close words the even one is taken.

  Words past the greatest finite one go on as if exponents had no end.  Cutting them off at infinity
  gives the rule for overflow: infinity is the answer from half a step past the greatest double on.

  A number has one nearest word, and greater numbers have greater ones.  So all numbers that are
  rounded to one word lie in one piece, which is what a search for short decimals relies on.
-/
import Abacus.Proofs.Number

namespace Abacus.Binary64

/-! ### Words as a scale -/

theorem one_pos : 0 < one :=
  pow2_pos 1074

/-- The step from a word to the next is set by its exponent. -/
theorem units_succ {m e : Nat} (hm : m < 2 * binade) (hnormal : e = 0 ∨ binade ≤ m) :
    units (e * binade + m + 1) = (m + 1) * pow2 e := by
  rw [Nat.add_assoc]
  exact units_of_significand hm (hnormal.imp_right fun h => by omega)

theorem units_strictMono : StrictMono units := by
  apply strictMono_nat_of_lt_succ
  intro w
  obtain ⟨m, e, rfl, hm, hnormal⟩ := exists_significand w
  rw [units_of_significand hm.le hnormal, units_succ hm hnormal]
  exact Nat.mul_lt_mul_of_pos_right (Nat.lt_succ_self m) (pow2_pos e)

/-- The number that a word stands for. -/
def value (w : Nat) : ℚ :=
  units w / one

theorem one_cast_pos : (0 : ℚ) < one :=
  Nat.cast_pos.mpr one_pos

theorem value_zero : value 0 = 0 := by
  have hunits : units 0 = 0 := if_pos binade_pos
  rw [value, hunits, Nat.cast_zero, zero_div]

theorem value_strictMono : StrictMono value := by
  intro v w h
  unfold value
  have hunits : (units v : ℚ) < units w := Nat.cast_lt.mpr (units_strictMono h)
  exact div_lt_div_of_pos_right hunits one_cast_pos

theorem value_pos {w : Nat} (h : w ≠ 0) : 0 < value w := by
  rw [← value_zero]
  exact value_strictMono (Nat.pos_of_ne_zero h)

/-- The distance between neighbours that share an exponent. -/
def step (e : Nat) : ℚ :=
  pow2 e / one

theorem step_pos (e : Nat) : 0 < step e :=
  div_pos (Nat.cast_pos.mpr (pow2_pos e)) one_cast_pos

theorem value_of_significand {m e : Nat} (hm : m ≤ 2 * binade) (hnormal : e = 0 ∨ binade ≤ m) :
    value (e * binade + m) = m * step e := by
  unfold value
  rw [units_of_significand hm hnormal, Nat.cast_mul, mul_div_assoc, ← step]

/-- The next word is one step away, or two after the last word of a binade. -/
theorem le_value_succ {m e : Nat} (hm : m ≤ 2 * binade) (hnormal : e = 0 ∨ binade ≤ m) :
    (m + 1) * step e ≤ value (e * binade + m + 1) := by
  rcases Nat.lt_or_eq_of_le hm with hless | rfl
  · rw [Nat.add_assoc, value_of_significand hless (hnormal.imp_right fun h => by omega)]
    push_cast
    exact le_rfl
  · have hsplit : e * binade + 2 * binade + 1 = (e + 1) * binade + (binade + 1) := by ring
    have hdouble : step (e + 1) = 2 * step e := by
      have hpow : pow2 (e + 1) = 2 * pow2 e := Nat.pow_succ'
      rw [step, hpow, Nat.cast_mul, mul_div_assoc, ← step]
      rfl
    have hbinade := binade_pos
    have hstep := step_pos e
    rw [hsplit, value_of_significand (by omega) (.inr (by omega)), hdouble]
    push_cast
    linarith

/-- Neighbours are at least one part in `2 ^ 53` apart. -/
theorem value_le_gap (v : Nat) : value (v + 1) ≤ 2 * binade * (value (v + 1) - value v) := by
  obtain ⟨m, e, rfl, hm, hnormal⟩ := exists_significand v
  have hnext : value (e * binade + m + 1) = (m + 1 : Nat) * step e := by
    rw [Nat.add_assoc]
    exact value_of_significand hm (hnormal.imp_right fun h => by omega)
  have hgap : value (e * binade + m + 1) - value (e * binade + m) = step e := by
    rw [hnext, value_of_significand hm.le hnormal]
    push_cast
    ring
  have hle : ((m + 1 : Nat) : ℚ) ≤ 2 * binade := by exact_mod_cast hm
  rw [hgap, hnext]
  exact mul_le_mul_of_nonneg_right hle (step_pos e).le

theorem parity_of_significand (m e : Nat) : (e * binade + m) % 2 = m % 2 := by
  have hbinade : binade % 2 = 0 := by decide
  rw [Nat.add_mod, Nat.mul_mod, hbinade, Nat.mul_zero, Nat.zero_mod, Nat.zero_add, Nat.mod_mod]

/-! ### The nearest word -/

/-- No word is closer, and of two equally close words this is the even one. -/
structure IsNearest (x : ℚ) (w : Nat) : Prop where
  closest : ∀ v, |x - value w| ≤ |x - value v|
  even : ∀ v, v ≠ w → |x - value v| = |x - value w| → w % 2 = 0

/-- A number is as close to the lesser of two as to the greater, up to the middle. -/
theorem closer_to_lesser_iff {x a b : ℚ} (h : a < b) : |x - a| ≤ |x - b| ↔ 2 * x ≤ a + b := by
  rcases abs_cases (x - a) with ⟨ha, _⟩ | ⟨ha, _⟩ <;>
    rcases abs_cases (x - b) with ⟨hb, _⟩ | ⟨hb, _⟩ <;>
    rw [ha, hb] <;> constructor <;> intro _ <;> linarith

theorem closer_to_greater_iff {x a b : ℚ} (h : a < b) :
    |x - b| ≤ |x - a| ↔ a + b ≤ 2 * x := by
  -- the same on the other side of zero
  have hmirror : |-x - -b| ≤ |-x - -a| ↔ 2 * -x ≤ -b + -a := closer_to_lesser_iff (neg_lt_neg h)
  rw [neg_sub_neg, neg_sub_neg, abs_sub_comm b, abs_sub_comm a] at hmirror
  rw [hmirror]
  constructor <;> intro _ <;> linarith

namespace IsNearest

variable {x y : ℚ} {v w : Nat}

/-- It is enough to look at the two neighbours of a word. -/
theorem of_neighbours
    (hlow : ∀ v, w = v + 1 → value v + value w ≤ 2 * x ∧ (value v + value w = 2 * x → w % 2 = 0))
    (hhigh : 2 * x ≤ value w + value (w + 1) ∧ (2 * x = value w + value (w + 1) → w % 2 = 0)) :
    IsNearest x w := by
  have hbelow : ∀ v < w, value v + value w ≤ 2 * x ∧ (value v + value w = 2 * x → w % 2 = 0) := by
    intro v hv
    obtain ⟨hmid, heven⟩ := hlow (w - 1) (by omega)
    have hle : value v ≤ value (w - 1) := value_strictMono.monotone (by omega)
    exact ⟨by linarith, fun heq => heven (by linarith)⟩
  have habove : ∀ v, w < v →
      2 * x ≤ value w + value v ∧ (2 * x = value w + value v → w % 2 = 0) := by
    intro v hv
    obtain ⟨hmid, heven⟩ := hhigh
    have hle : value (w + 1) ≤ value v := value_strictMono.monotone hv
    exact ⟨by linarith, fun heq => heven (by linarith)⟩
  constructor
  · intro v
    rcases Nat.lt_trichotomy v w with hv | rfl | hv
    · exact (closer_to_greater_iff (value_strictMono hv)).mpr (hbelow v hv).1
    · exact le_rfl
    · exact (closer_to_lesser_iff (value_strictMono hv)).mpr (habove v hv).1
  · intro v hne heq
    rcases Nat.lt_or_gt_of_ne hne with hv | hv
    · have hmid := (closer_to_lesser_iff (value_strictMono hv)).mp heq.le
      exact (hbelow v hv).2 (le_antisymm (hbelow v hv).1 hmid)
    · have hmid := (closer_to_greater_iff (value_strictMono hv)).mp heq.le
      exact (habove v hv).2 (le_antisymm (habove v hv).1 hmid)

/-- Between two words that are equally close there is a closer one. -/
theorem not_lt (h : IsNearest x v) (h' : IsNearest x w) : ¬ v < w := by
  intro hlt
  have heq : |x - value w| = |x - value v| := le_antisymm (h'.closest v) (h.closest w)
  have hv := h.even w (by omega) heq
  have hw := h'.even v (by omega) heq.symm
  have hmid : 2 * x = value v + value w :=
    le_antisymm ((closer_to_lesser_iff (value_strictMono hlt)).mp heq.ge)
      ((closer_to_greater_iff (value_strictMono hlt)).mp heq.le)
  have hnext : value v < value (v + 1) := value_strictMono (Nat.lt_succ_self v)
  have hlast : value (v + 1) < value w := value_strictMono (by omega)
  have hcloser := (closer_to_lesser_iff hnext).mp (h.closest (v + 1))
  linarith

theorem unique (h : IsNearest x v) (h' : IsNearest x w) : v = w :=
  Nat.le_antisymm (Nat.le_of_not_lt (h'.not_lt h)) (Nat.le_of_not_lt (h.not_lt h'))

theorem mono (h : IsNearest x v) (h' : IsNearest y w) (hle : x ≤ y) : v ≤ w := by
  by_contra hlt
  have hvalue : value w < value v := value_strictMono (Nat.lt_of_not_le hlt)
  have hx := (closer_to_greater_iff hvalue).mp (h.closest w)
  have hy := (closer_to_lesser_iff hvalue).mp (h'.closest v)
  obtain rfl : x = y := by linarith
  exact hlt (h.unique h').le

theorem self (w : Nat) : IsNearest (value w) w := by
  constructor
  · intro v
    rw [sub_self, abs_zero]
    exact abs_nonneg _
  · intro v hne heq
    rw [sub_self, abs_zero, abs_eq_zero, sub_eq_zero] at heq
    exact absurd (value_strictMono.injective heq).symm hne

/-- Seventeen digits tell neighbours apart: a change of half a unit in the last of them is less
    than half the way to the next word. -/
theorem of_close (hw : w ≠ 0) (h : 2 * 10 ^ 16 * |x - value w| ≤ value w) : IsNearest x w := by
  have hbinade : (2 * binade : ℚ) < 10 ^ 16 := by exact_mod_cast (by decide : 2 * binade < 10 ^ 16)
  have hpos : 0 < value w := value_pos hw
  have hnear : ∀ gap : ℚ, value w ≤ 2 * binade * gap → 2 * |x - value w| < gap := by
    intro gap hgap
    have hgap_pos : 0 < gap := by
      by_contra hneg
      nlinarith [(Nat.cast_pos.mpr binade_pos : (0 : ℚ) < binade)]
    nlinarith
  have habs := abs_le.mp (le_refl |x - value w|)
  apply of_neighbours
  · rintro v rfl
    have hgap := hnear _ (value_le_gap v)
    exact ⟨by linarith, fun heq => by linarith⟩
  · have hnext := value_strictMono (Nat.lt_succ_self w)
    have hgap := hnear (value (w + 1) - value w) (hnext.le.trans (value_le_gap w))
    exact ⟨by linarith, fun heq => by linarith⟩

end IsNearest

/-! ### Rounding -/

theorem roundQuotient_spec (num : Nat) {den : Nat} (hden : 0 < den) :
    |(num : ℚ) / den - roundQuotient num den| ≤ 1 / 2 ∧
      (|(num : ℚ) / den - roundQuotient num den| = 1 / 2 → roundQuotient num den % 2 = 0) := by
  have hpos : (0 : ℚ) < den := Nat.cast_pos.mpr hden
  have hsplit : (num : ℚ) / den = (num / den : Nat) + (num % den : Nat) / den := by
    rw [div_eq_iff hpos.ne', add_mul, div_mul_cancel₀ _ hpos.ne']
    exact_mod_cast (Nat.div_add_mod' num den).symm
  have hrest : (0 : ℚ) ≤ (num % den : Nat) / den := by positivity
  have htwice : (2 : ℚ) * ((num % den : Nat) / den) = (2 * (num % den) : Nat) / den := by
    push_cast
    ring
  rw [hsplit]
  simp only [roundQuotient]
  split
  · rename_i hless
    have hhalf : ((2 * (num % den) : Nat) : ℚ) / den < 1 := by
      rw [div_lt_one hpos]
      exact Nat.cast_lt.mpr hless
    rw [add_sub_cancel_left, abs_of_nonneg hrest]
    exact ⟨by linarith, fun heq => by linarith⟩
  · split
    · rename_i hmore
      have hhalf : 1 < ((2 * (num % den) : Nat) : ℚ) / den := by
        rw [one_lt_div hpos]
        exact Nat.cast_lt.mpr hmore
      have hless : ((num % den : Nat) : ℚ) / den < 1 := by
        rw [div_lt_one hpos]
        exact Nat.cast_lt.mpr (Nat.mod_lt num hden)
      rw [Nat.cast_add, Nat.cast_one, add_sub_add_left_eq_sub, abs_of_neg (by linarith)]
      exact ⟨by linarith, fun heq => by linarith⟩
    · rename_i hnotless hnotmore
      have hhalf : ((2 * (num % den) : Nat) : ℚ) / den = 1 := by
        rw [div_eq_one_iff_eq hpos.ne', Nat.cast_inj]
        omega
      refine ⟨?_, fun _ => by omega⟩
      rcases Nat.mod_two_eq_zero_or_one (num / den) with hmod | hmod
      · rw [hmod, Nat.add_zero, add_sub_cancel_left, abs_of_nonneg hrest]
        linarith
      · rw [hmod, Nat.cast_add, Nat.cast_one, add_sub_add_left_eq_sub, abs_of_neg (by linarith)]
        linarith

/-- The shift that brings a number of units into a binade. -/
def shiftOf (num den : Nat) : Nat :=
  (num * one / den).log2 - 52

/-- The nearest word on the scale without an end. -/
def nearestWord (num den : Nat) : Nat :=
  shiftOf num den * binade + roundQuotient (num * one) (den * pow2 (shiftOf num den))

theorem nearest_eq_min (num den : Nat) : nearest num den = min (nearestWord num den) infinityWord :=
  rfl

/-- The shifted number is below the next binade, and not below this one unless it is the first. -/
theorem shifted_bounds (num den : Nat) :
    num * one / (den * pow2 (shiftOf num den)) < 2 * binade ∧
      (shiftOf num den = 0 ∨ binade ≤ num * one / (den * pow2 (shiftOf num den))) := by
  rw [← Nat.div_div_eq_div_mul]
  unfold shiftOf
  generalize num * one / den = n
  have hbinade : 2 * binade = pow2 53 := by decide
  constructor
  · rw [Nat.div_lt_iff_lt_mul (pow2_pos _), hbinade, ← pow2_add]
    have hlog : n < 2 ^ (n.log2 + 1) := Nat.lt_log2_self
    exact hlog.trans_le (Nat.pow_le_pow_right (by decide) (by omega))
  · by_cases hlarge : 52 < n.log2
    · right
      have hn : n ≠ 0 := by
        rintro rfl
        simp at hlarge
      rw [Nat.le_div_iff_mul_le (pow2_pos _), binade, ← pow2_add]
      have hshift : 52 + (n.log2 - 52) = n.log2 := by omega
      rw [hshift]
      exact Nat.log2_self_le hn
    · left
      omega

/-- A number of steps, rounded to a whole significand, gives the nearest word. -/
theorem isNearest_of_significand {m e : Nat} {y : ℚ} (hm : m ≤ 2 * binade)
    (hnormal : e = 0 ∨ binade ≤ m) (hstart : e = 0 ∨ (binade : ℚ) ≤ y) (hhalf : |y - m| ≤ 1 / 2)
    (heven : |y - m| = 1 / 2 → m % 2 = 0) : IsNearest (y * step e) (e * binade + m) := by
  have hstep := step_pos e
  have hword := value_of_significand hm hnormal
  rw [abs_le] at hhalf
  have htie : 2 * y = 2 * m + 1 ∨ 2 * y = 2 * m - 1 → m % 2 = 0 := by
    rintro (h | h)
    · apply heven
      rw [abs_of_nonneg (by linarith)]
      linarith
    · apply heven
      rw [abs_of_neg (by linarith)]
      linarith
  apply IsNearest.of_neighbours
  · intro v hv
    rw [parity_of_significand, hword]
    by_cases hfirst : m = binade ∧ e ≠ 0
    · -- below the start of a binade the steps are smaller, but nothing is rounded up to the start
      have hy : (m : ℚ) ≤ y := by
        rw [hfirst.1]
        exact hstart.resolve_left hfirst.2
      have hless : value v < m * step e := by
        rw [← hword]
        exact value_strictMono (by omega)
      have hle : m * step e ≤ y * step e := mul_le_mul_of_nonneg_right hy hstep.le
      exact ⟨by linarith, fun heq => by linarith⟩
    · have hpos : 0 < m := by
        rcases hnormal with rfl | h
        · omega
        · exact binade_pos.trans_le h
      have hprev : value v = (m - 1 : Nat) * step e := by
        have hv' : v = e * binade + (m - 1) := by omega
        rw [hv']
        exact value_of_significand (by omega) (by omega)
      rw [hprev, Nat.cast_pred hpos]
      constructor
      · nlinarith
      · intro heq
        exact htie (.inr (mul_right_cancel₀ hstep.ne' (by linarith)))
  · have hnext := le_value_succ hm hnormal
    rw [parity_of_significand, hword]
    constructor
    · nlinarith
    · intro heq
      exact htie (.inl (mul_right_cancel₀ hstep.ne' (by nlinarith)))

/-- **Rounding gives the nearest word.** -/
theorem isNearest_nearestWord (num : Nat) {den : Nat} (hden : 0 < den) :
    IsNearest ((num : ℚ) / den) (nearestWord num den) := by
  obtain ⟨hupper, hlower⟩ := shifted_bounds num den
  have hbounds := roundQuotient_bounds (num * one) (den * pow2 (shiftOf num den))
  have hspec := roundQuotient_spec (num * one)
    (Nat.mul_pos hden (pow2_pos (shiftOf num den)))
  unfold nearestWord
  generalize shiftOf num den = e at hupper hlower hbounds hspec ⊢
  have hx : (num : ℚ) / den = (num * one : Nat) / (den * pow2 e : Nat) * step e := by
    have hpow : (pow2 e : ℚ) ≠ 0 := Nat.cast_ne_zero.mpr (pow2_pos e).ne'
    have hone : (one : ℚ) ≠ 0 := one_cast_pos.ne'
    have hden' : (den : ℚ) ≠ 0 := Nat.cast_ne_zero.mpr hden.ne'
    simp only [step]
    push_cast
    field_simp
  have hstart : e = 0 ∨ (binade : ℚ) ≤ (num * one : Nat) / (den * pow2 e : Nat) := by
    refine hlower.imp_right fun h => ?_
    have hfloor : ((num * one / (den * pow2 e) : Nat) : ℚ) ≤
        (num * one : Nat) / (den * pow2 e : Nat) := Nat.cast_div_le
    exact (Nat.cast_le.mpr h).trans hfloor
  have hnormal : e = 0 ∨ binade ≤ roundQuotient (num * one) (den * pow2 e) :=
    hlower.imp_right fun h => h.trans hbounds.1
  rw [hx]
  exact isNearest_of_significand (by omega) hnormal hstart hspec.1 hspec.2

theorem isNearest_nearest {num den : Nat} (hden : 0 < den) (h : nearest num den < infinityWord) :
    IsNearest ((num : ℚ) / den) (nearest num den) := by
  have hmin := nearest_eq_min num den
  have hword : nearest num den = nearestWord num den := by omega
  rw [hword]
  exact isNearest_nearestWord num hden

theorem nearest_eq_of_isNearest {num den w : Nat} (hden : 0 < den)
    (h : IsNearest ((num : ℚ) / den) w) : nearest num den = min w infinityWord := by
  rw [nearest_eq_min, (isNearest_nearestWord num hden).unique h]

theorem nearest_mono {num den num' den' : Nat} (hden : 0 < den) (hden' : 0 < den')
    (h : (num : ℚ) / den ≤ num' / den') : nearest num den ≤ nearest num' den' := by
  have hword := (isNearest_nearestWord num hden).mono (isNearest_nearestWord num' hden') h
  rw [nearest_eq_min, nearest_eq_min]
  omega

end Abacus.Binary64
