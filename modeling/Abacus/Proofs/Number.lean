/-
  Abacus/Proofs/Number.lean
  =========================
  **A whole number survives being written and read.**  Three ways back and forth have to fit:
  a double and its bits, a word and the units it stands for, a natural number and its decimal
  digits.  A double is made up again from its sign and its word; rounding leaves alone what needs
  no rounding; and the value of the digits of a number is the number.  Together they give
  `ofNat_whole`: the integer printed for a literal is read as the literal.

  A number with too many digits for a double is rounded when it is read.  What comes out is a
  whole number again, or infinity: `isWhole_nearest`.
-/
import Abacus.Number.Text
import Abacus.Parse.Grammar
import Mathlib

namespace Abacus.Binary64

open Float.Model Float.Model.UnpackedFloat

/-! ### Doubles and their bits -/

theorem word_of_shape {x : Float} {negative : Bool} {w : Nat} (h : shape x = .finite negative w) :
    w = word x ∧ negative = isNegative x ∧ w < infinityWord := by
  unfold shape at h
  split at h
  · cases h
  · split at h
    · cases h
    · cases h
      exact ⟨rfl, rfl, by omega⟩

theorem ofWord_word (x : Float) : ofWord (isNegative x) (word x) = x := by
  have hbits : (if isNegative x = true then signBit + word x else word x) = x.toBits.toNat := by
    have hlt : x.toBits.toNat < signBit + signBit := x.toBits.toNat_lt
    unfold isNegative word
    by_cases hsign : signBit ≤ x.toBits.toNat
    · rw [if_pos (by simpa using hsign), Nat.mod_eq_sub_mod hsign, Nat.mod_eq_of_lt (by omega)]
      omega
    · rw [if_neg (by simpa using hsign), Nat.mod_eq_of_lt (by omega)]
  unfold ofWord
  rw [hbits, UInt64.ofNat_toNat]
  exact Float.ofBits_toBits x

theorem ofWord_of_shape {x : Float} {negative : Bool} {w : Nat}
    (h : shape x = .finite negative w) : ofWord negative w = x := by
  obtain ⟨rfl, rfl, -⟩ := word_of_shape h
  exact ofWord_word x

theorem ofWord_of_infinite {x : Float} {negative : Bool} (h : shape x = .infinite negative) :
    ofWord negative infinityWord = x := by
  unfold shape at h
  split at h
  · cases h
  · split at h
    · rename_i hword
      cases h
      rw [← hword]
      exact ofWord_word x
    · cases h

theorem toNat_unpackExponent (b : BitVec Format.binary64.numBits) :
    (unpackExponent b).toNat = b.toNat / 2 ^ 52 % 2 ^ 11 := by
  simp [unpackExponent, Nat.shiftRight_eq_div_pow]

theorem toNat_unpackMantissa (b : BitVec Format.binary64.numBits) :
    (unpackMantissa b).toNat = b.toNat % 2 ^ 52 := by
  simp [unpackMantissa]

/-- No word up to the one of infinity stands for what is not a number. -/
theorem isNaNBits_eq_false {b : BitVec Format.binary64.numBits} {negative : Bool} {w : Nat}
    (hb : b.toNat = if negative then signBit + w else w) (h : w ≤ infinityWord) :
    isNaNBits b = false := by
  have hsign : signBit = 2 ^ 63 := rfl
  have hinfinity : infinityWord = 2047 * 2 ^ 52 := rfl
  have hfields : b.toNat / 2 ^ 52 % 2 ^ 11 = 2047 → b.toNat % 2 ^ 52 = 0 := by
    rw [hb]
    cases negative <;> simp only [Bool.false_eq_true, if_false, if_true] <;> omega
  simp only [isNaNBits, decide_eq_false_iff_not, not_and, not_not, ← BitVec.toNat_inj,
    toNat_unpackExponent, toNat_unpackMantissa]
  exact hfields

theorem toBits_ofWord (negative : Bool) {w : Nat} (h : w ≤ infinityWord) :
    (ofWord negative w).toBits.toNat = if negative then signBit + w else w := by
  have hsign : signBit = 2 ^ 63 := rfl
  have hinfinity : infinityWord = 2047 * 2 ^ 52 := rfl
  let bits := UInt64.ofNat (if negative then signBit + w else w)
  have hbits : bits.toBitVec.toNat = if negative then signBit + w else w := by
    apply UInt64.toNat_ofNat_of_lt'
    show _ < 2 ^ 64
    split <;> omega
  have hpack : (unpack .binary64 bits.toBitVec).pack .binary64 = bits.toBitVec := by
    rw [pack_unpack, isNaNBits_eq_false hbits h]
    rfl
  exact (congrArg BitVec.toNat hpack).trans hbits

theorem shape_ofWord (negative : Bool) {w : Nat} (h : w ≤ infinityWord) :
    shape (ofWord negative w) =
      if w = infinityWord then .infinite negative else .finite negative w := by
  have hbits := toBits_ofWord negative h
  have hless : w < signBit := Nat.lt_of_le_of_lt h (by decide)
  have hword : word (ofWord negative w) = w := by
    rw [word, hbits]
    cases negative with
    | false => exact Nat.mod_eq_of_lt hless
    | true => exact (Nat.add_mod_left _ _).trans (Nat.mod_eq_of_lt hless)
  have hnegative : isNegative (ofWord negative w) = negative := by
    rw [isNegative, hbits]
    cases negative with
    | false => simpa using hless
    | true => simp
  simp only [shape, hword, hnegative, if_neg (Nat.not_lt.mpr h)]

/-! ### Words and units -/

theorem roundQuotient_mul (n : Nat) {den : Nat} (hden : 0 < den) :
    roundQuotient (n * den) den = n := by
  unfold roundQuotient
  simp only [Nat.mul_mod_left, Nat.mul_div_cancel n hden, Nat.mul_zero, if_pos hden]

theorem pow2_pos (k : Nat) : 0 < pow2 k :=
  Nat.two_pow_pos k

theorem pow2_add (j k : Nat) : pow2 (j + k) = pow2 j * pow2 k :=
  Nat.pow_add 2 j k

theorem log2_mul_pow2 {n : Nat} (hn : n ≠ 0) (k : Nat) : (n * pow2 k).log2 = n.log2 + k := by
  obtain ⟨hlow, hhigh⟩ := (Nat.log2_eq_iff hn).mp rfl
  rw [Nat.log2_eq_iff (Nat.mul_ne_zero hn (Nat.ne_of_gt (pow2_pos k)))]
  constructor
  · rw [Nat.pow_add]
    exact Nat.mul_le_mul_right _ hlow
  · rw [Nat.add_right_comm, Nat.pow_add]
    exact Nat.mul_lt_mul_of_pos_right hhigh (pow2_pos k)

theorem log2_shifted {m e : Nat} (hlow : binade ≤ m) (hhigh : m < 2 * binade) :
    (m * pow2 e).log2 = 52 + e := by
  have hm : m ≠ 0 := Nat.ne_of_gt (Nat.lt_of_lt_of_le (pow2_pos 52) hlow)
  have hlog : m.log2 = 52 :=
    (Nat.log2_eq_iff hm).mpr ⟨hlow, Nat.lt_of_lt_of_eq hhigh Nat.pow_succ'.symm⟩
  rw [log2_mul_pow2 hm, hlog]

theorem binade_pos : 0 < binade :=
  pow2_pos 52

/-- Rounding gives a significand that fills a binade, or the one just past it. -/
theorem units_shifted {m e : Nat} (hlow : binade ≤ m) (hhigh : m ≤ 2 * binade) :
    units (e * binade + m) = m * pow2 e := by
  have hbinade := binade_pos
  have hword : ¬ e * binade + m < binade := by omega
  unfold units
  rw [if_neg hword]
  rcases Nat.lt_or_eq_of_le hhigh with hless | rfl
  · have hsplit : e * binade + m = (m - binade) + binade * (e + 1) := by
      rw [Nat.mul_add, Nat.mul_comm]
      omega
    rw [hsplit, Nat.add_mul_mod_self_left, Nat.add_mul_div_left _ _ hbinade,
      Nat.mod_eq_of_lt (by omega), Nat.div_eq_of_lt (by omega), Nat.sub_add_cancel hlow,
      Nat.zero_add, Nat.add_sub_cancel]
  · have hsplit : e * binade + 2 * binade = binade * (e + 2) := by ring
    have hpow : pow2 (e + 1) = 2 * pow2 e := Nat.pow_succ'
    rw [hsplit, Nat.mul_mod_right, Nat.mul_div_cancel_left _ hbinade]
    show (0 + binade) * pow2 (e + 1) = 2 * binade * pow2 e
    rw [hpow]
    ring

theorem units_of_significand {m e : Nat} (hm : m ≤ 2 * binade) (hnormal : e = 0 ∨ binade ≤ m) :
    units (e * binade + m) = m * pow2 e := by
  by_cases hlow : binade ≤ m
  · exact units_shifted hlow hm
  · obtain rfl := hnormal.resolve_right hlow
    have hword : 0 * binade + m < binade := by omega
    unfold units
    rw [if_pos hword, Nat.zero_mul, Nat.zero_add]
    exact (Nat.mul_one m).symm

theorem exists_significand (w : Nat) :
    ∃ m e, e * binade + m = w ∧ m < 2 * binade ∧ (e = 0 ∨ binade ≤ m) := by
  by_cases hfirst : w < binade
  · exact ⟨w, 0, by omega, by omega, .inl rfl⟩
  · have hm : w % binade < binade := Nat.mod_lt _ binade_pos
    have hfield : 1 ≤ w / binade := Nat.div_pos (Nat.le_of_not_lt hfirst) binade_pos
    refine ⟨w % binade + binade, w / binade - 1, ?_, by omega, .inr (by omega)⟩
    calc (w / binade - 1) * binade + (w % binade + binade)
        = (w / binade - 1 + 1) * binade + w % binade := by rw [Nat.add_mul]; omega
      _ = w / binade * binade + w % binade := by rw [Nat.sub_add_cancel hfield]
      _ = w := Nat.div_add_mod' w binade

/-- The units of a word are a fraction and a shift, from which rounding finds the word. -/
theorem exists_units_eq (w : Nat) :
    ∃ m e, units w = m * pow2 e ∧ (units w).log2 - 52 = e ∧ e * binade + m = w := by
  obtain ⟨m, e, rfl, hm, hnormal⟩ := exists_significand w
  have hunits := units_of_significand hm.le hnormal
  refine ⟨m, e, hunits, ?_, rfl⟩
  rw [hunits]
  by_cases hlow : binade ≤ m
  · rw [log2_shifted hlow hm]
    omega
  · -- in the first binade nothing is shifted
    obtain rfl := hnormal.resolve_right hlow
    have hunshifted : m * pow2 0 = m := Nat.mul_one m
    rw [hunshifted]
    by_cases hzero : m = 0
    · rw [hzero]
      rfl
    · have hlog : m.log2 < 52 := (Nat.log2_lt hzero).mpr (Nat.lt_of_not_le hlow)
      omega

/-- **What is a double needs no rounding.** -/
theorem nearest_eq_of_units {num den w : Nat} (hden : 0 < den) (hw : w < infinityWord)
    (h : num * one = units w * den) : nearest num den = w := by
  obtain ⟨m, e, hunits, hshift, hword⟩ := exists_units_eq w
  have hround : roundQuotient (num * one) (den * pow2 e) = m := by
    have hscaled : num * one = m * (den * pow2 e) := by
      rw [h, hunits, Nat.mul_assoc, Nat.mul_comm den]
    rw [hscaled]
    exact roundQuotient_mul m (Nat.mul_pos hden (pow2_pos e))
  unfold nearest
  simp only [h, Nat.mul_div_cancel _ hden, hshift]
  rw [← h, hround, hword]
  exact Nat.min_eq_left (Nat.le_of_lt hw)

/-- **The integer written for a whole double is read as that double.** -/
theorem ofNat_whole {x : Float} {w : Nat} (h : shape x = .finite false w)
    (hw : Number.isWhole w = true) : ofNat (Number.whole w) = x := by
  obtain ⟨-, -, hfinite⟩ := word_of_shape h
  have hwhole : Number.whole w * one = units w * 1 := by
    rw [Nat.mul_one]
    exact Nat.div_mul_cancel (Nat.dvd_of_mod_eq_zero (by simpa [Number.isWhole] using hw))
  unfold ofNat
  rw [nearest_eq_of_units Nat.one_pos hfinite hwhole]
  exact ofWord_of_shape h

/-! ### Rounding whole numbers -/

theorem roundQuotient_bounds (num den : Nat) :
    num / den ≤ roundQuotient num den ∧ roundQuotient num den ≤ num / den + 1 := by
  simp only [roundQuotient]
  constructor
  · split
    · exact Nat.le_refl _
    · split <;> omega
  · split
    · exact Nat.le_succ _
    · split <;> omega

/-- The significand of a positive whole number, as rounding finds it. -/
theorem significand_bounds {n : Nat} (hn : n ≠ 0) (hlarge : 52 ≤ n.log2) :
    binade ≤ roundQuotient n (pow2 (n.log2 - 52)) ∧
      roundQuotient n (pow2 (n.log2 - 52)) ≤ 2 * binade := by
  obtain ⟨shift, hshift⟩ := Nat.exists_eq_add_of_le hlarge
  have hpow : pow2 n.log2 = binade * pow2 shift := by
    rw [hshift, pow2_add, binade]
  rw [hshift, Nat.add_sub_cancel_left]
  obtain ⟨hlow, hhigh⟩ := (Nat.log2_eq_iff hn).mp rfl
  have hlow' : binade ≤ n / pow2 shift := by
    rw [Nat.le_div_iff_mul_le (pow2_pos shift), ← hpow]
    exact hlow
  have hhigh' : n / pow2 shift < 2 * binade := by
    rw [Nat.div_lt_iff_lt_mul (pow2_pos shift), Nat.mul_assoc, ← hpow]
    exact Nat.lt_of_lt_of_eq hhigh Nat.pow_succ'
  obtain ⟨hfloor, hceil⟩ := roundQuotient_bounds n (pow2 shift)
  exact ⟨hlow'.trans hfloor, hceil.trans hhigh'⟩

theorem nearest_le_infinityWord (num den : Nat) : nearest num den ≤ infinityWord := by
  unfold nearest
  exact Nat.min_le_right _ _

/-- **Whole numbers are rounded to whole numbers.** -/
theorem isWhole_nearest {n : Nat} (h : nearest n 1 ≠ infinityWord) :
    Number.isWhole (nearest n 1) = true := by
  by_cases hn : n = 0
  · subst hn
    decide +kernel
  let shift := (n * one).log2 - 52
  let m := roundQuotient (n * one) (pow2 shift)
  have hword : nearest n 1 = shift * binade + m := by
    have hmin : nearest n 1 = min (shift * binade + m) infinityWord := by
      simp only [nearest, Nat.div_one, Nat.one_mul, shift, m]
    omega
  have hne : n * one ≠ 0 := Nat.mul_ne_zero hn (Nat.ne_of_gt (pow2_pos 1074))
  have hlog : (n * one).log2 = n.log2 + 1074 := log2_mul_pow2 hn 1074
  obtain ⟨hlow, hhigh⟩ := significand_bounds hne (by omega)
  have hdvd : one ∣ m * pow2 shift := by
    by_cases hshift : 1074 ≤ shift
    · -- the step between neighbours is whole already
      obtain ⟨k, hk⟩ := Nat.exists_eq_add_of_le hshift
      rw [hk, pow2_add, ← one, Nat.mul_left_comm]
      exact Nat.dvd_mul_right one _
    · -- the significand holds all digits, so nothing is rounded
      obtain ⟨k, hk⟩ := Nat.exists_eq_add_of_le (Nat.le_of_not_le hshift)
      have hone : one = pow2 k * pow2 shift := by
        rw [Nat.mul_comm, ← pow2_add, ← hk]
        rfl
      have hexact : m = n * pow2 k := by
        show roundQuotient (n * one) (pow2 shift) = _
        rw [hone, ← Nat.mul_assoc]
        exact roundQuotient_mul _ (pow2_pos shift)
      rw [hexact, Nat.mul_assoc, ← hone]
      exact Nat.dvd_mul_left one n
  rw [Number.isWhole, hword, units_shifted hlow hhigh]
  simpa using Nat.mod_eq_zero_of_dvd hdvd

end Abacus.Binary64

/-! ### Natural numbers and their digits -/

namespace Abacus.Parse

theorem digitsValue?_of_isDigit {cs : List Char} (h : ∀ c ∈ cs, c.isDigit) (read : Nat) :
    digitsValue? read cs = some (Nat.ofDigitChars 10 cs read) := by
  induction cs generalizing read with
  | nil => rfl
  | cons c cs ih =>
    have hc : c.isDigit = true := h c (by simp)
    rw [digitsValue?, if_pos hc, ih (fun d hd => h d (by simp [hd])), Nat.ofDigitChars_cons,
      Nat.mul_comm 10]
    rfl

theorem numeralValue?_of_isDigit {cs : List Char} (hcs : cs ≠ []) (h : ∀ c ∈ cs, c.isDigit) :
    numeralValue? (String.ofList cs) = some (Nat.ofDigitChars 10 cs 0) := by
  cases cs with
  | nil => exact absurd rfl hcs
  | cons c cs =>
    simp only [numeralValue?, String.toList_ofList]
    exact digitsValue?_of_isDigit h 0

theorem numeralValue?_toDigits (n : Nat) :
    numeralValue? (String.ofList (Nat.toDigits 10 n)) = some n := by
  rw [numeralValue?_of_isDigit Nat.toDigits_ne_nil fun c hc =>
    Nat.isDigit_of_mem_toDigits (by decide) (by decide) hc, Nat.ofDigitChars_ten_toDigits]

theorem toDigits_eq_cons {n : Nat} (hn : n ≠ 0) :
    ∃ c rest, Nat.toDigits 10 n = c :: rest ∧ c ≠ '0' := by
  induction n using Nat.strongRecOn with
  | ind n ih =>
    by_cases hsmall : n < 10
    · refine ⟨n.digitChar, [], Nat.toDigits_of_lt_base hsmall, ?_⟩
      rwa [ne_eq, Nat.digitChar_eq_zero]
    · obtain ⟨c, rest, hdigits, hc⟩ := ih (n / 10) (by omega) (by omega)
      refine ⟨c, rest ++ [(n % 10).digitChar], ?_, hc⟩
      rw [Nat.toDigits_of_base_le (by decide) (by omega), hdigits]
      rfl

end Abacus.Parse
