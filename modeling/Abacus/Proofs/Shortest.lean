/-
  Abacus/Proofs/Shortest.lean
  ===========================
  **The search finds the shortest decimal.**  `shortest` looks at two points on each of seventeen
  grids, stops at the first that reads back, and has an exact expansion to fall back on.  Here it is
  shown that this is enough: what it gives reads back as the word it was asked for, and no decimal
  that does so has fewer digits.

  Two points on a grid are enough since rounding is monotone: between a decimal that reads back and
  the value of the word, every decimal reads back.  Seventeen grids are enough since a double is at
  least one part in `2 ^ 53` away from its neighbours, which is more than a step on the last grid.
-/
import Abacus.Number.Decimal
import Abacus.Proofs.Rounding

namespace Abacus.Decimal

open Binary64 (IsNearest infinityWord)

/-! ### Decimals as numbers -/

/-- The number that a decimal stands for. -/
def value (d : Decimal) : ℚ :=
  d.coefficient * 10 ^ d.exponent

theorem pow10_pos (k : Nat) : 0 < pow10 k :=
  Nat.pow_pos (by decide)

theorem cast_pow10 (k : Nat) : (pow10 k : ℚ) = 10 ^ k := by
  unfold pow10
  exact Nat.cast_pow 10 k

/-- A power of ten is a quotient of two, one of which is one. -/
theorem pow10_div_pow10 (e : Int) : (pow10 e.toNat : ℚ) / pow10 (-e).toNat = 10 ^ e := by
  rw [cast_pow10, cast_pow10, ← zpow_natCast, ← zpow_natCast, ← zpow_sub₀ (by norm_num)]
  congr 1
  omega

theorem zpow_split {a b : Int} {k : Nat} (h : b = k + a) : (10 : ℚ) ^ b = 10 ^ k * 10 ^ a := by
  rw [h, zpow_add₀ (by norm_num), zpow_natCast]

theorem quotient_eq_value (d : Decimal) :
    ((d.coefficient * pow10 d.exponent.toNat : Nat) : ℚ) / pow10 (-d.exponent).toNat = d.value := by
  rw [Nat.cast_mul, mul_div_assoc, pow10_div_pow10, value]

theorem nearest_of_isNearest {d : Decimal} {w : Nat} (hw : w < infinityWord)
    (h : IsNearest d.value w) : d.nearest = w := by
  rw [← quotient_eq_value] at h
  rw [nearest, Binary64.nearest_eq_of_isNearest (pow10_pos _) h]
  exact Nat.min_eq_left hw.le

theorem isNearest_of_nearest {d : Decimal} {w : Nat} (hw : w < infinityWord)
    (h : d.nearest = w) : IsNearest d.value w := by
  subst h
  rw [← quotient_eq_value]
  exact Binary64.isNearest_nearest (pow10_pos _) hw

theorem nearest_mono {d d' : Decimal} (h : d.value ≤ d'.value) : d.nearest ≤ d'.nearest := by
  rw [← quotient_eq_value, ← quotient_eq_value] at h
  exact Binary64.nearest_mono (pow10_pos _) (pow10_pos _) h

theorem nearest_congr {d d' : Decimal} (h : d.value = d'.value) : d.nearest = d'.nearest :=
  Nat.le_antisymm (nearest_mono h.le) (nearest_mono h.ge)

theorem value_of_halves (n k : Nat) :
    value ⟨n * Nat.pow 5 k, -(k : Int)⟩ = n / Binary64.pow2 k := by
  have hten : (10 : ℚ) ^ k = 5 ^ k * 2 ^ k := by rw [← mul_pow]; norm_num
  have hfive : ((Nat.pow 5 k : Nat) : ℚ) = 5 ^ k := Nat.cast_pow 5 k
  have htwo : ((Binary64.pow2 k : Nat) : ℚ) = 2 ^ k := Nat.cast_pow 2 k
  simp only [value]
  rw [Nat.cast_mul, hfive, htwo, zpow_neg, zpow_natCast, hten]
  field_simp

theorem value_exact (w : Nat) : (exact w).value = Binary64.value w := by
  have hplaces : (-1074 : Int) = -((1074 : Nat) : Int) := rfl
  rw [exact, Binary64.value, Binary64.one, hplaces]
  -- over a variable exponent, so that no power is ever computed
  generalize 1074 = places
  exact value_of_halves (Binary64.units w) places

/-- The exact expansion reads back. -/
theorem nearest_exact {w : Nat} (hw : w < infinityWord) : (exact w).nearest = w := by
  apply nearest_of_isNearest hw
  rw [value_exact]
  exact .self w

/-- What lies between a decimal that reads back and the value of the word reads back as well. -/
theorem nearest_between {w : Nat} {d d' : Decimal} (hw : w < infinityWord) (hd : d.nearest = w)
    (h : d.value ≤ d'.value ∧ d'.value ≤ Binary64.value w ∨
      Binary64.value w ≤ d'.value ∧ d'.value ≤ d.value) : d'.nearest = w := by
  have hexact := nearest_exact hw
  rw [← value_exact] at h
  rcases h with ⟨hlow, hhigh⟩ | ⟨hlow, hhigh⟩
  · have h₁ := nearest_mono hlow
    have h₂ := nearest_mono hhigh
    omega
  · have h₁ := nearest_mono hlow
    have h₂ := nearest_mono hhigh
    omega

theorem coefficient_ne_zero {w : Nat} (hw : w < infinityWord) (hpos : w ≠ 0) {d : Decimal}
    (hd : d.nearest = w) : d.coefficient ≠ 0 := by
  intro hzero
  apply hpos
  rw [← hd]
  apply nearest_of_isNearest (Nat.zero_lt_of_lt hw)
  rw [value, hzero, Nat.cast_zero, zero_mul, ← Binary64.value_zero]
  exact .self 0

/-! ### Trailing zeros -/

theorem value_strip (coefficient : Nat) (exponent : Int) :
    (strip coefficient exponent).value = value ⟨coefficient, exponent⟩ := by
  fun_induction strip coefficient exponent with
  | case1 c e h ih =>
    rw [ih]
    have hc : (c : ℚ) = (c / 10 : Nat) * 10 := by
      exact_mod_cast (Nat.div_mul_cancel (Nat.dvd_of_mod_eq_zero h.2)).symm
    simp only [value]
    rw [zpow_add_one₀ (by norm_num), hc]
    ring
  | case2 c e h => rfl

theorem strip_coefficient_le (coefficient : Nat) (exponent : Int) :
    (strip coefficient exponent).coefficient ≤ coefficient := by
  fun_induction strip coefficient exponent with
  | case1 c e h ih => exact ih.trans (Nat.div_le_self c 10)
  | case2 c e h => exact le_rfl

theorem strip_coefficient_mod {coefficient : Nat} (exponent : Int) (hc : coefficient ≠ 0) :
    (strip coefficient exponent).coefficient % 10 ≠ 0 := by
  fun_induction strip coefficient exponent with
  | case1 c e h ih => exact ih (by omega)
  | case2 c e h => exact fun hmod => h ⟨hc, hmod⟩

theorem length_digits_le_iff {d : Decimal} {k : Nat} (hk : 0 < k) :
    d.digits.length ≤ k ↔ d.coefficient < 10 ^ k :=
  Nat.length_toDigits_le_iff (by decide) hk

/-- A power of ten itself has one digit more, but not once its zeros are gone. -/
theorem length_digits_strip_le {coefficient k : Nat} (exponent : Int) (hk : 0 < k)
    (h : coefficient ≤ 10 ^ k) : (strip coefficient exponent).digits.length ≤ k := by
  rw [length_digits_le_iff hk]
  refine ((strip_coefficient_le coefficient exponent).trans h).lt_of_ne ?_
  intro heq
  by_cases hc : coefficient = 0
  · have hle := strip_coefficient_le coefficient exponent
    have hpos : 0 < 10 ^ k := Nat.pow_pos (by decide)
    omega
  · apply strip_coefficient_mod exponent hc
    rw [heq]
    exact Nat.mod_eq_zero_of_dvd (dvd_pow_self 10 hk.ne')

/-! ### Grids -/

/-- The number of whole steps on a grid up to the value of a word. -/
def gridFloor (w : Nat) (place : Int) : Nat :=
  Binary64.units w * pow10 (-place).toNat / (Binary64.one * pow10 place.toNat)

theorem cast_div_bounds (num : Nat) {den : Nat} (hden : 0 < den) :
    ((num / den : Nat) : ℚ) ≤ num / den ∧ (num : ℚ) / den < (num / den : Nat) + 1 := by
  refine ⟨Nat.cast_div_le, ?_⟩
  rw [div_lt_iff₀ (Nat.cast_pos.mpr hden), mul_comm]
  exact_mod_cast Nat.lt_mul_div_succ num hden

theorem gridFloor_bounds (w : Nat) (place : Int) :
    gridFloor w place * (10 : ℚ) ^ place ≤ Binary64.value w ∧
      Binary64.value w < (gridFloor w place + 1) * 10 ^ place := by
  have hten : (0 : ℚ) < 10 ^ place := by positivity
  have hquotient : ((Binary64.units w * pow10 (-place).toNat : Nat) : ℚ) /
      (Binary64.one * pow10 place.toNat : Nat) = Binary64.value w / 10 ^ place := by
    have hone := Binary64.one_cast_pos.ne'
    have hpow : ∀ k, (pow10 k : ℚ) ≠ 0 := fun k => Nat.cast_ne_zero.mpr (pow10_pos k).ne'
    have hplus := hpow place.toNat
    have hminus := hpow (-place).toNat
    rw [← pow10_div_pow10 place, Binary64.value, Nat.cast_mul, Nat.cast_mul]
    field_simp
  obtain ⟨hfloor, hceil⟩ := cast_div_bounds (Binary64.units w * pow10 (-place).toNat)
    (Nat.mul_pos Binary64.one_pos (pow10_pos place.toNat))
  rw [hquotient, ← gridFloor] at hfloor hceil
  exact ⟨(le_div_iff₀ hten).mp hfloor, (div_lt_iff₀ hten).mp hceil⟩

theorem onGrid?_cases (w : Nat) (place : Int) :
    (∃ c, onGrid? w place = some ⟨c, place⟩ ∧ nearest ⟨c, place⟩ = w ∧ c ≤ gridFloor w place + 1) ∨
      onGrid? w place = none ∧ nearest ⟨gridFloor w place, place⟩ ≠ w ∧
        nearest ⟨gridFloor w place + 1, place⟩ ≠ w := by
  unfold onGrid?
  dsimp only
  split
  · rename_i hbelow
    exact .inl ⟨gridFloor w place, rfl, hbelow.1, Nat.le_succ _⟩
  · rename_i hbelow
    split
    · rename_i habove
      exact .inl ⟨gridFloor w place + 1, rfl, habove, le_rfl⟩
    · rename_i habove
      exact .inr ⟨rfl, fun h => hbelow ⟨h, .inr habove⟩, habove⟩

/-- If any point of a grid reads back, one of the two neighbours of the value does. -/
theorem onGrid?_isSome {w : Nat} (hw : w < infinityWord) {d : Decimal} (hd : d.nearest = w) :
    (onGrid? w d.exponent).isSome = true := by
  obtain ⟨hfloor, hceil⟩ := gridFloor_bounds w d.exponent
  have hten : (0 : ℚ) < 10 ^ d.exponent := by positivity
  rcases onGrid?_cases w d.exponent with ⟨c, hsome, -⟩ | ⟨-, hbelow, habove⟩
  · rw [hsome]
    rfl
  · exfalso
    rcases Nat.lt_or_ge (gridFloor w d.exponent) d.coefficient with hmore | hless
    · refine habove (nearest_between hw hd (.inr ⟨?_, ?_⟩))
      · simpa [value] using hceil.le
      · exact mul_le_mul_of_nonneg_right (Nat.cast_le.mpr hmore) hten.le
    · refine hbelow (nearest_between hw hd (.inl ⟨?_, hfloor⟩))
      exact mul_le_mul_of_nonneg_right (Nat.cast_le.mpr hless) hten.le

/-! ### The first digit -/

theorem pow_length_toDigits {n : Nat} (hn : n ≠ 0) :
    10 ^ ((Nat.toDigits 10 n).length - 1) ≤ n ∧ n < 10 ^ (Nat.toDigits 10 n).length := by
  have hlength : 0 < (Nat.toDigits 10 n).length := Nat.length_toDigits_pos
  refine ⟨?_, (Nat.length_toDigits_le_iff (by decide) hlength).mp le_rfl⟩
  by_contra hless
  by_cases hone : (Nat.toDigits 10 n).length = 1
  · rw [hone] at hless
    omega
  · have hle := (Nat.length_toDigits_le_iff (n := n) (by decide)
      (by omega : 0 < (Nat.toDigits 10 n).length - 1)).mpr (Nat.lt_of_not_le hless)
    omega

theorem one_le_units {w : Nat} (hw : w ≠ 0) : 1 ≤ Binary64.units w :=
  Nat.one_le_iff_ne_zero.mpr fun h =>
    hw (Binary64.units_strictMono.injective (h.trans (if_pos Binary64.binade_pos).symm))

/-- The leading place of a word is that of its value. -/
theorem leadingPlace_bounds {w : Nat} (hw : w ≠ 0) :
    (10 : ℚ) ^ leadingPlace (Binary64.units w) ≤ Binary64.value w ∧
      Binary64.value w < 10 ^ (leadingPlace (Binary64.units w) + 1) := by
  have hscale : Binary64.one ≤ pow10 400 := by decide +kernel
  have hplaces : (401 : Int) = (400 : Nat) + 1 := rfl
  unfold leadingPlace
  rw [hplaces]
  generalize 400 = scale at hscale
  have hn : Binary64.units w * pow10 scale / Binary64.one ≠ 0 := by
    apply Nat.ne_of_gt
    apply Nat.div_pos _ Binary64.one_pos
    exact hscale.trans (Nat.le_mul_of_pos_left _ (one_le_units hw))
  have hvalue : ((Binary64.units w * pow10 scale : Nat) : ℚ) / Binary64.one =
      Binary64.value w * 10 ^ scale := by
    rw [Nat.cast_mul, cast_pow10, Binary64.value]
    ring
  obtain ⟨hlow, hhigh⟩ := pow_length_toDigits hn
  obtain ⟨hfloor, hceil⟩ := cast_div_bounds (Binary64.units w * pow10 scale) Binary64.one_pos
  rw [hvalue] at hfloor hceil
  have hlength : 0 < (Nat.toDigits 10 (Binary64.units w * pow10 scale / Binary64.one)).length :=
    Nat.length_toDigits_pos
  generalize Binary64.units w * pow10 scale / Binary64.one = n at *
  generalize (Nat.toDigits 10 n).length = length at *
  have hlow' : (10 : ℚ) ^ (length - 1) ≤ n := by exact_mod_cast hlow
  have hhigh' : (n : ℚ) + 1 ≤ 10 ^ length := by exact_mod_cast hhigh
  have hten : (0 : ℚ) < 10 ^ scale := by positivity
  have hfirst : ((length - 1 : Nat) : Int) = scale + ((length : Int) - (scale + 1)) := by omega
  have hnext : (length : Int) = scale + ((length : Int) - (scale + 1) + 1) := by omega
  rw [← zpow_natCast, zpow_split hfirst, mul_comm] at hlow'
  rw [← zpow_natCast, zpow_split hnext, mul_comm] at hhigh'
  exact ⟨le_of_mul_le_mul_right (hlow'.trans hfloor) hten,
    lt_of_mul_lt_mul_right (hceil.trans_le hhigh') hten.le⟩

/-! ### The search -/

/-- A hit on one of the grids is found, unless an earlier grid has one. -/
theorem exists_grid_of_isSome {w i : Nat} (hi : i < 17)
    (h : (onGrid? w (leadingPlace (Binary64.units w) - i)).isSome = true) :
    ∃ j ≤ i, ∃ d, onGrid? w (leadingPlace (Binary64.units w) - j) = some d ∧
      shortest w = strip d.coefficient d.exponent := by
  have hfind : ((List.range 17).findSome? fun (n : Nat) =>
      onGrid? w (leadingPlace (Binary64.units w) - n)).isSome = true := by
    rw [List.findSome?_isSome_iff]
    exact ⟨i, List.mem_range.mpr hi, h⟩
  obtain ⟨d, hd⟩ := Option.isSome_iff_exists.mp hfind
  obtain ⟨before, j, after, hrange, hj, hbefore⟩ := List.findSome?_eq_some_iff.mp hd
  refine ⟨j, ?_, d, hj, ?_⟩
  · by_contra hless
    have hsorted := hrange ▸ List.pairwise_lt_range (n := 17)
    have hmem : i ∈ before ++ j :: after := hrange ▸ List.mem_range.mpr hi
    rw [List.pairwise_append] at hsorted
    rcases List.mem_append.mp hmem with hi | hi
    · rw [hbefore i hi] at h
      cases h
    · rcases List.mem_cons.mp hi with rfl | hi
      · exact hless le_rfl
      · have hlt := List.rel_of_pairwise_cons hsorted.2.1 hi
        omega
  · unfold shortest
    dsimp only
    rw [hd]
    rfl

/-- **What the search gives reads back.** -/
theorem nearest_shortest {w : Nat} (hw : w < infinityWord) : (shortest w).nearest = w := by
  unfold shortest
  dsimp only
  rw [nearest_congr (value_strip _ _)]
  cases hfind : (List.range 17).findSome? fun (n : Nat) =>
      onGrid? w (leadingPlace (Binary64.units w) - n) with
  | none => exact nearest_exact hw
  | some d =>
    obtain ⟨place, -, hplace⟩ := List.exists_of_findSome?_eq_some hfind
    rcases onGrid?_cases w (leadingPlace (Binary64.units w) - place) with
      ⟨c, hsome, hnearest, -⟩ | ⟨hnone, -⟩
    · rw [hplace] at hsome
      cases hsome
      exact hnearest
    · rw [hplace] at hnone
      cases hnone

/-- The shortest decimal has its zeros in the exponent. -/
theorem coefficient_shortest_mod {w : Nat} (hw : w < infinityWord) (hpos : w ≠ 0) :
    (shortest w).coefficient % 10 ≠ 0 := by
  have hne := coefficient_ne_zero hw hpos (nearest_shortest hw)
  obtain ⟨c, e, hstrip⟩ : ∃ c e, shortest w = strip c e := ⟨_, _, rfl⟩
  have hle := strip_coefficient_le c e
  rw [hstrip] at hne ⊢
  exact strip_coefficient_mod e (by omega)

/-- Some decimal of seventeen digits reads back. -/
theorem onGrid?_seventeen {w : Nat} (hw : w < infinityWord) (hpos : w ≠ 0) :
    (onGrid? w (leadingPlace (Binary64.units w) - 16)).isSome = true := by
  obtain ⟨hlead, -⟩ := leadingPlace_bounds hpos
  let place := leadingPlace (Binary64.units w) - 16
  have hten : (0 : ℚ) < 10 ^ place := by positivity
  have hplace : leadingPlace (Binary64.units w) = (16 : Nat) + place := by
    simp only [place]
    omega
  rw [zpow_split hplace] at hlead
  obtain ⟨hfloor, hceil⟩ := gridFloor_bounds w place
  -- the nearer one of the two neighbours is at most half a step away
  obtain ⟨c, hc⟩ : ∃ c : Nat, 2 * |(c : ℚ) * 10 ^ place - Binary64.value w| ≤ 10 ^ place := by
    by_cases hhalf : 2 * (Binary64.value w - gridFloor w place * 10 ^ place) ≤ 10 ^ place
    · refine ⟨gridFloor w place, ?_⟩
      rw [abs_sub_comm, abs_of_nonneg (by linarith)]
      exact hhalf
    · refine ⟨gridFloor w place + 1, ?_⟩
      push_cast
      rw [abs_of_nonneg (by linarith)]
      linarith
  apply onGrid?_isSome hw (d := ⟨c, place⟩)
  apply nearest_of_isNearest hw
  apply IsNearest.of_close hpos
  simp only [value]
  linarith

/-- A hit on a grid has as many digits as the grid allows. -/
theorem length_digits_of_isSome {w i : Nat} (hpos : w ≠ 0) (hi : i < 17)
    (h : (onGrid? w (leadingPlace (Binary64.units w) - i)).isSome = true) :
    (shortest w).digits.length ≤ i + 1 := by
  obtain ⟨j, hj, d, hd, hshortest⟩ := exists_grid_of_isSome hi h
  let place := leadingPlace (Binary64.units w) - j
  have hcoefficient : d.coefficient ≤ gridFloor w place + 1 := by
    rcases onGrid?_cases w place with ⟨c, hsome, -, hc⟩ | ⟨hnone, -⟩
    · obtain rfl : d = ⟨c, place⟩ := Option.some.inj (hd.symm.trans hsome)
      exact hc
    · rw [hd] at hnone
      cases hnone
  have hfloor : gridFloor w place < 10 ^ (j + 1) := by
    obtain ⟨-, hless⟩ := leadingPlace_bounds hpos
    have hten : (0 : ℚ) < 10 ^ place := by positivity
    have hplace : leadingPlace (Binary64.units w) + 1 = (j + 1 : Nat) + place := by
      simp only [place]
      omega
    rw [zpow_split hplace] at hless
    have hlt := (gridFloor_bounds w place).1.trans_lt hless
    exact_mod_cast lt_of_mul_lt_mul_right hlt hten.le
  rw [hshortest]
  exact (length_digits_strip_le d.exponent (Nat.succ_pos j) (by omega)).trans (by omega)

/-- The powers of ten around a number in scientific notation. -/
theorem value_bounds {d : Decimal} (hd : d.coefficient ≠ 0) :
    (10 : ℚ) ^ (d.digits.length - 1 + d.exponent) ≤ d.value ∧
      d.value < 10 ^ (d.digits.length + d.exponent) := by
  obtain ⟨hlow, hhigh⟩ := pow_length_toDigits hd
  have hlength : 0 < d.digits.length := Nat.length_toDigits_pos
  have hten : (0 : ℚ) < 10 ^ d.exponent := by positivity
  have hfirst : ((d.digits.length : Int) - 1) = (d.digits.length - 1 : Nat) := by omega
  rw [← digits] at hlow hhigh
  rw [zpow_add₀ (by norm_num), zpow_add₀ (by norm_num), hfirst, zpow_natCast, zpow_natCast, value]
  constructor
  · exact mul_le_mul_of_nonneg_right (by exact_mod_cast hlow) hten.le
  · exact mul_lt_mul_of_pos_right (by exact_mod_cast hhigh) hten

/-- **No decimal that reads back is shorter.**  A decimal may lie in another decade than the word
    it reads back as; then a power of ten lies between the two. -/
theorem length_digits_shortest_le {w : Nat} (hw : w < infinityWord) (hpos : w ≠ 0) {d : Decimal}
    (hd : d.nearest = w) : (shortest w).digits.length ≤ d.digits.length := by
  have hlength : 0 < d.digits.length := Nat.length_toDigits_pos
  obtain ⟨hlead, hless⟩ := leadingPlace_bounds hpos
  obtain ⟨hlow, hhigh⟩ := value_bounds (coefficient_ne_zero hw hpos hd)
  have hone : ∀ c : Nat, nearest ⟨c, leadingPlace (Binary64.units w)⟩ = w →
      (shortest w).digits.length ≤ 1 := by
    intro c hc
    have hhit := onGrid?_isSome hw hc
    refine length_digits_of_isSome hpos (by decide : 0 < 17) ?_
    rwa [Nat.cast_zero, sub_zero]
  by_cases hmany : 17 ≤ d.digits.length
  · exact (length_digits_of_isSome hpos (by decide) (onGrid?_seventeen hw hpos)).trans hmany
  by_cases habove : (10 : ℚ) ^ (leadingPlace (Binary64.units w) + 1) ≤ d.value
  · refine (hone 10 ?_).trans hlength
    have hten : value ⟨10, leadingPlace (Binary64.units w)⟩ =
        10 ^ (leadingPlace (Binary64.units w) + 1) := by
      rw [zpow_add_one₀ (by norm_num), mul_comm]
      rfl
    exact nearest_between hw hd (.inr ⟨hten ▸ hless.le, hten ▸ habove⟩)
  by_cases hbelow : d.value < (10 : ℚ) ^ leadingPlace (Binary64.units w)
  · refine (hone 1 ?_).trans hlength
    have hten : value ⟨1, leadingPlace (Binary64.units w)⟩ =
        10 ^ leadingPlace (Binary64.units w) := by
      rw [value, Nat.cast_one, one_mul]
    exact nearest_between hw hd (.inl ⟨hten ▸ hbelow.le, hten ▸ hlead⟩)
  · -- in the same decade, the decimal is a point of the grid of as many digits
    have hupper := (zpow_lt_zpow_iff_right₀ (by norm_num)).mp (hlow.trans_lt (not_le.mp habove))
    have hlower := (zpow_lt_zpow_iff_right₀ (by norm_num)).mp ((not_lt.mp hbelow).trans_lt hhigh)
    have hexponent :
        d.exponent = leadingPlace (Binary64.units w) - (d.digits.length - 1 : Nat) := by omega
    have hhit := length_digits_of_isSome hpos (by omega) (hexponent ▸ onGrid?_isSome hw hd)
    omega

end Abacus.Decimal
