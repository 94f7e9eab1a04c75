/-
  Abacus/Proofs/Numeral.lean
  ==========================
  **Results print exactly and read back.**  A result is written in full: no exponent, no zero that
  could be left out.  Here a reader of decimal text is put beside the printers.  It knows nothing of
  doubles and gives the exact number that a text stands for, so that one can say what a text is
  worth: that of a whole double is worth just the double, that of any other as much as the short
  form with an exponent that a call record shows.

  Whatever is read from a result is nearer to the double it was printed for than to any other.  So
  two doubles with the same text are the same, down to the sign of zero.
-/
import Abacus.Proofs.Shortest

namespace Abacus.Decimal

/-! ### A reader of decimal text -/

/-- The exponent at the end of a text; zero if there is none. -/
def readExponent? : List Char → Option Int
  | [] => some 0
  | 'e' :: mark :: digits =>
    if digits ≠ [] ∧ digits.all Char.isDigit then
      match mark with
      | '+' => some (Nat.ofDigitChars 10 digits 0)
      | '-' => some (-Nat.ofDigitChars 10 digits 0)
      | _ => none
    else none
  | _ => none

/-- The digits after the point, if there is one, and what follows. -/
def readFraction : List Char → List Char × List Char
  | '.' :: text => text.span Char.isDigit
  | text => ([], text)

/-- The decimal that a text without a sign stands for. -/
def read? (text : List Char) : Option Decimal :=
  let integer := text.span Char.isDigit
  let fraction := readFraction integer.2
  if integer.1 = [] then none
  else
    (readExponent? fraction.2).map fun exponent =>
      ⟨Nat.ofDigitChars 10 (integer.1 ++ fraction.1) 0, exponent - fraction.1.length⟩

/-- The decimal that a text stands for, and whether it has a minus sign. -/
def readSigned? : List Char → Option (Bool × Decimal)
  | '-' :: text => (read? text).map fun d => (true, d)
  | text => (read? text).map fun d => (false, d)

example : readSigned? "-0.00000015".toList = some (true, ⟨15, -8⟩) := by decide

example : readSigned? "1.5e-07".toList = some (false, ⟨15, -8⟩) := by decide

/-- A point and the digits after it, or nothing. -/
def point (fraction : List Char) : List Char :=
  if fraction = [] then [] else '.' :: fraction

theorem span_isDigit {digits rest : List Char} (hdigits : ∀ c ∈ digits, c.isDigit = true)
    (hrest : ∀ c ∈ rest.head?, c.isDigit = false) :
    (digits ++ rest).span Char.isDigit = (digits, rest) := by
  rw [List.span_eq_takeWhile_dropWhile, List.takeWhile_append_of_pos hdigits,
    List.dropWhile_append_of_pos hdigits]
  cases rest with
  | nil => simp
  | cons c rest =>
    have hc := hrest c rfl
    simp [hc]

/-- What an exponent starts with is neither a digit nor a point. -/
theorem head_of_readExponent? {tail : List Char} {e : Int} (h : readExponent? tail = some e) :
    ∀ c ∈ tail.head?, c = 'e' := by
  unfold readExponent? at h
  split at h
  · simp
  · simp
  · cases h

theorem readFraction_point {fraction tail : List Char} {e : Int}
    (hfraction : ∀ c ∈ fraction, c.isDigit = true) (htail : readExponent? tail = some e) :
    readFraction (point fraction ++ tail) = (fraction, tail) := by
  have hhead := head_of_readExponent? htail
  unfold point
  split
  · rename_i hnil
    subst hnil
    cases tail with
    | nil => rfl
    | cons c tail =>
      obtain rfl := hhead c rfl
      rfl
  · exact span_isDigit hfraction fun c hc => by rw [hhead c hc]; decide

theorem read?_eq {integer fraction tail : List Char} {e : Int} (hne : integer ≠ [])
    (hinteger : ∀ c ∈ integer, c.isDigit = true) (hfraction : ∀ c ∈ fraction, c.isDigit = true)
    (htail : readExponent? tail = some e) :
    read? (integer ++ (point fraction ++ tail)) =
      some ⟨Nat.ofDigitChars 10 (integer ++ fraction) 0, e - fraction.length⟩ := by
  have hrest : ∀ c ∈ (point fraction ++ tail).head?, c.isDigit = false := by
    intro c hc
    unfold point at hc
    split at hc
    · rw [head_of_readExponent? htail c hc]
      decide
    · obtain rfl : '.' = c := Option.some.inj hc
      decide
  unfold read?
  simp only [span_isDigit hinteger hrest, readFraction_point hfraction htail, if_neg hne, htail,
    Option.map_some]

theorem readSigned?_sign (negative : Bool) {text : List Char} {d : Decimal}
    (h : read? text = some d) : readSigned? (Number.sign negative ++ text) = some (negative, d) := by
  cases negative with
  | true => exact congrArg (Option.map (Prod.mk true)) h
  | false =>
    unfold Number.sign readSigned?
    simp only [Bool.false_eq_true, if_false, List.nil_append]
    split
    · cases h
    · rw [h]
      rfl

end Abacus.Decimal

namespace Abacus

/-! ### Numbers in full -/

/-- A number written in full: an integer part without a superfluous zero at its start, and digits
    after the point without one at their end. -/
structure Numeral where
  integer : List Char
  fraction : List Char
  integer_ne_nil : integer ≠ []
  integer_digits : ∀ c ∈ integer, c.isDigit = true
  fraction_digits : ∀ c ∈ fraction, c.isDigit = true
  no_leading_zero : integer.head? = some '0' → integer = ['0']
  no_trailing_zero : fraction.getLast? ≠ some '0'

namespace Numeral

/-- The text of a numeral, with a point only if digits follow. -/
def chars (n : Numeral) : List Char :=
  n.integer ++ Decimal.point n.fraction

theorem read?_chars (n : Numeral) : Decimal.read? n.chars =
    some ⟨Nat.ofDigitChars 10 (n.integer ++ n.fraction) 0, -n.fraction.length⟩ := by
  have hread := Decimal.read?_eq n.integer_ne_nil n.integer_digits n.fraction_digits
    (rfl : Decimal.readExponent? [] = some 0)
  rw [List.append_nil, Int.zero_sub] at hread
  exact hread

/-- The numeral of a natural number. -/
def ofNat (n : Nat) : Numeral where
  integer := Nat.toDigits 10 n
  fraction := []
  integer_ne_nil := Nat.toDigits_ne_nil
  integer_digits _ hc := Nat.isDigit_of_mem_toDigits (by decide) (by decide) hc
  fraction_digits _ hc := nomatch hc
  no_leading_zero hzero := by
    by_cases hn : n = 0
    · rw [hn, Nat.toDigits_zero]
    · obtain ⟨c, rest, hdigits, hc⟩ := Parse.toDigits_eq_cons hn
      rw [hdigits] at hzero
      exact absurd (Option.some.inj hzero) hc
  no_trailing_zero := nofun

end Numeral

/-! ### Layouts -/

namespace Decimal

theorem isDigit_of_mem_digits (d : Decimal) : ∀ c ∈ d.digits, c.isDigit = true :=
  fun _ hc => Nat.isDigit_of_mem_toDigits (by decide) (by decide) hc

theorem ofDigitChars_zeros_toDigits (k n : Nat) :
    Nat.ofDigitChars 10 (List.replicate k '0' ++ Nat.toDigits 10 n) 0 = n := by
  rw [Nat.ofDigitChars_append, Nat.ofDigitChars_replicate_zero, Nat.mul_zero,
    Nat.ofDigitChars_ten_toDigits]

theorem isDigit_of_mem_zeros_toDigits {k n : Nat} :
    ∀ c ∈ List.replicate k '0' ++ Nat.toDigits 10 n, c.isDigit = true := by
  intro c hc
  rcases List.mem_append.mp hc with hc | hc
  · rw [List.eq_of_mem_replicate hc]
    decide
  · exact Nat.isDigit_of_mem_toDigits (by decide) (by decide) hc

/-- The digits of a decimal, with zeros before them up to the one before the point. -/
def padded (d : Decimal) : List Char :=
  List.replicate ((-d.exponent).toNat + 1 - d.digits.length) '0' ++ d.digits

theorem length_padded (d : Decimal) :
    d.padded.length = max ((-d.exponent).toNat + 1) d.digits.length := by
  rw [padded, List.length_append, List.length_replicate]
  omega

theorem getLast?_toDigits (n : Nat) : (Nat.toDigits 10 n).getLast? = some (n % 10).digitChar := by
  by_cases hsmall : n < 10
  · rw [Nat.toDigits_of_lt_base hsmall, Nat.mod_eq_of_lt hsmall]
    rfl
  · rw [Nat.toDigits_of_base_le (by decide) (by omega), List.getLast?_concat]

/-- How many of the padded digits stand before the point. -/
def integerLength (d : Decimal) : Nat :=
  d.padded.length - (-d.exponent).toNat

theorem positional_of_neg {d : Decimal} (h : d.exponent < 0) :
    d.positional = d.padded.take d.integerLength ++ '.' :: d.padded.drop d.integerLength := by
  unfold positional
  rw [if_neg (Int.not_le.mpr h)]
  rfl

theorem integerLength_pos (d : Decimal) : 0 < d.integerLength := by
  have hpadded := length_padded d
  unfold integerLength
  omega

theorem take_padded_ne_nil (d : Decimal) : d.padded.take d.integerLength ≠ [] := by
  intro hnil
  have hpos := integerLength_pos d
  have hpadded := length_padded d
  have hlength := congrArg List.length hnil
  rw [List.length_take, List.length_nil] at hlength
  omega

/-- A zero before the point stands there alone. -/
theorem take_padded_of_zero {d : Decimal} (hlast : d.coefficient % 10 ≠ 0)
    (hzero : (d.padded.take d.integerLength).head? = some '0') :
    d.padded.take d.integerLength = ['0'] := by
  have hpadded := length_padded d
  by_cases hshort : d.digits.length ≤ (-d.exponent).toNat
  · -- one zero before the point, so the rest of the padding is after it
    have hone : d.integerLength = 1 := by
      unfold integerLength
      omega
    obtain ⟨k, hk⟩ : ∃ k, (-d.exponent).toNat + 1 - d.digits.length = k + 1 :=
      ⟨_, (Nat.sub_add_cancel (by omega)).symm⟩
    rw [hone, padded, hk]
    rfl
  · -- the digits reach past the point, and the first of them is not zero
    have hne : d.coefficient ≠ 0 := by
      intro hcoefficient
      simp [hcoefficient] at hlast
    obtain ⟨c, rest, hdigits, hc⟩ := Parse.toDigits_eq_cons hne
    have hnone : (-d.exponent).toNat + 1 - d.digits.length = 0 := by omega
    rw [List.head?_take, if_neg (integerLength_pos d).ne', padded, hnone, digits, hdigits] at hzero
    exact absurd (Option.some.inj hzero) hc

theorem length_drop_padded (d : Decimal) :
    (d.padded.drop d.integerLength).length = (-d.exponent).toNat := by
  have hpadded := length_padded d
  rw [List.length_drop, integerLength]
  omega

theorem getLast?_drop_padded {d : Decimal} (hexponent : d.exponent < 0)
    (hlast : d.coefficient % 10 ≠ 0) : (d.padded.drop d.integerLength).getLast? ≠ some '0' := by
  intro hzero
  have hlength := length_drop_padded d
  have hlastDigit : d.padded.getLast? = some (d.coefficient % 10).digitChar := by
    rw [padded, List.getLast?_append, digits, getLast?_toDigits]
    rfl
  rw [List.length_drop] at hlength
  rw [List.getLast?_drop, if_neg (by omega), hlastDigit] at hzero
  exact hlast (Nat.digitChar_eq_zero.mp (Option.some.inj hzero))

/-- The numeral of a decimal whose last digit stands after the point. -/
def numeral (d : Decimal) (hexponent : d.exponent < 0) (hlast : d.coefficient % 10 ≠ 0) :
    Numeral where
  integer := d.padded.take d.integerLength
  fraction := d.padded.drop d.integerLength
  integer_ne_nil := take_padded_ne_nil d
  integer_digits c hc := isDigit_of_mem_zeros_toDigits c (List.mem_of_mem_take hc)
  fraction_digits c hc := isDigit_of_mem_zeros_toDigits c (List.mem_of_mem_drop hc)
  no_leading_zero := take_padded_of_zero hlast
  no_trailing_zero := getLast?_drop_padded hexponent hlast

theorem length_fraction_numeral {d : Decimal} (hexponent : d.exponent < 0)
    (hlast : d.coefficient % 10 ≠ 0) :
    (d.numeral hexponent hlast).fraction.length = (-d.exponent).toNat :=
  length_drop_padded d

theorem fraction_numeral_ne_nil {d : Decimal} (hexponent : d.exponent < 0)
    (hlast : d.coefficient % 10 ≠ 0) : (d.numeral hexponent hlast).fraction ≠ [] := by
  intro hnil
  have hlength := length_fraction_numeral hexponent hlast
  rw [hnil, List.length_nil] at hlength
  omega

theorem chars_numeral {d : Decimal} (hexponent : d.exponent < 0) (hlast : d.coefficient % 10 ≠ 0) :
    (d.numeral hexponent hlast).chars = d.positional := by
  rw [positional_of_neg hexponent, Numeral.chars, point,
    if_neg (fraction_numeral_ne_nil hexponent hlast)]
  rfl

/-- **Positional notation neither loses nor adds a digit.** -/
theorem read?_positional {d : Decimal} (hexponent : d.exponent < 0)
    (hlast : d.coefficient % 10 ≠ 0) : read? d.positional = some d := by
  have hdigits : (d.numeral hexponent hlast).integer ++ (d.numeral hexponent hlast).fraction =
      d.padded := List.take_append_drop _ _
  have hplaces : -((-d.exponent).toNat : Int) = d.exponent := by omega
  rw [← chars_numeral hexponent hlast, Numeral.read?_chars, length_fraction_numeral, hdigits, padded,
    digits, ofDigitChars_zeros_toDigits, hplaces]

theorem readExponent?_place (place : Int) (zeros : Nat) :
    readExponent? ('e' :: (if place < 0 then '-' else '+') ::
      (List.replicate zeros '0' ++ Nat.toDigits 10 place.natAbs)) = some place := by
  have hne : List.replicate zeros '0' ++ Nat.toDigits 10 place.natAbs ≠ [] :=
    List.append_ne_nil_of_right_ne_nil _ Nat.toDigits_ne_nil
  have hall : (List.replicate zeros '0' ++ Nat.toDigits 10 place.natAbs).all Char.isDigit = true :=
    List.all_eq_true.mpr isDigit_of_mem_zeros_toDigits
  unfold readExponent?
  simp only
  rw [if_pos ⟨hne, hall⟩, ofDigitChars_zeros_toDigits]
  by_cases hsign : place < 0
  · rw [if_pos hsign]
    simp only [Option.some.injEq]
    omega
  · rw [if_neg hsign]
    simp only [Option.some.injEq]
    omega

/-- **Nor does exponent notation.** -/
theorem read?_scientific (d : Decimal) : read? d.scientific = some d := by
  have hne : d.digits ≠ [] := Nat.toDigits_ne_nil
  obtain ⟨c, rest, hdigits⟩ := List.exists_cons_of_ne_nil hne
  let place : Int := d.digits.length - 1 + d.exponent
  have htext : d.scientific = [c] ++ (point rest ++ 'e' :: (if place < 0 then '-' else '+') ::
      (List.replicate (2 - (Nat.toDigits 10 place.natAbs).length) '0' ++
        Nat.toDigits 10 place.natAbs)) := by
    unfold scientific
    simp only [hdigits, place]
    cases rest with
    | nil => simp [point]
    | cons c' rest => simp [point]
  have hall : ∀ c' ∈ c :: rest, c'.isDigit = true := hdigits ▸ isDigit_of_mem_digits d
  have hvalue : Nat.ofDigitChars 10 ([c] ++ rest) 0 = d.coefficient := by
    rw [List.singleton_append, ← hdigits, digits, Nat.ofDigitChars_ten_toDigits]
  have hexponent : place - rest.length = d.exponent := by
    simp only [place, hdigits, List.length_cons]
    omega
  rw [htext, read?_eq (List.cons_ne_nil c []) (fun c' hc' => hall c' (by simp_all))
    (fun c' hc' => hall c' (List.mem_cons_of_mem c hc')) (readExponent?_place place _), hvalue,
    hexponent]

end Decimal
end Abacus

/-! ### The texts of a double -/

namespace Abacus.Number

open Binary64 (shape infinityWord ofWord IsNearest)

/-- Whether a word stands for a whole number. -/
def Integral (w : Nat) : Prop :=
  ∃ n : Nat, Binary64.value w = n

theorem value_whole {w : Nat} (h : isWhole w = true) : Binary64.value w = whole w := by
  have hunits : whole w * Binary64.one = Binary64.units w :=
    Nat.div_mul_cancel (Nat.dvd_of_mod_eq_zero (by simpa [isWhole] using h))
  rw [Binary64.value, ← hunits, Nat.cast_mul,
    mul_div_cancel_right₀ _ (ne_of_gt Binary64.one_cast_pos)]

theorem isWhole_iff_integral (w : Nat) : isWhole w = true ↔ Integral w := by
  constructor
  · exact fun h => ⟨whole w, value_whole h⟩
  · rintro ⟨n, hn⟩
    rw [Binary64.value, div_eq_iff (ne_of_gt Binary64.one_cast_pos)] at hn
    have hunits : Binary64.units w = n * Binary64.one := by exact_mod_cast hn
    simp [isWhole, hunits]

theorem ne_zero_of_isWhole_eq_false {w : Nat} (h : isWhole w = false) : w ≠ 0 := by
  rintro rfl
  have hzero : isWhole 0 = true :=
    (isWhole_iff_integral 0).mpr ⟨0, by rw [Binary64.value_zero, Nat.cast_zero]⟩
  rw [h] at hzero
  cases hzero

/-- A decimal without digits after the point is rounded to a whole number. -/
theorem exponent_shortest_neg {w : Nat} (hw : w < infinityWord) (h : isWhole w = false) :
    (Decimal.shortest w).exponent < 0 := by
  by_contra hnonneg
  have hnearest := Decimal.nearest_shortest hw
  have hzero : (-(Decimal.shortest w).exponent).toNat = 0 := by omega
  rw [Decimal.nearest, hzero] at hnearest
  have hwhole := Binary64.isWhole_nearest (hnearest.trans_ne hw.ne)
  rw [show Decimal.pow10 0 = 1 from rfl] at hnearest
  rw [hnearest, h] at hwhole
  cases hwhole

/-- The decimal that is printed for a word: all digits of a whole number, else the fewest. -/
def printed (w : Nat) : Decimal :=
  if isWhole w then ⟨whole w, 0⟩ else Decimal.shortest w

theorem printed_of_isWhole {w : Nat} (h : isWhole w = true) : printed w = ⟨whole w, 0⟩ :=
  if_pos h

theorem printed_of_not_isWhole {w : Nat} (h : isWhole w = false) :
    printed w = Decimal.shortest w :=
  if_neg (Bool.eq_false_iff.mp h)

theorem value_printed {w : Nat} (h : isWhole w = true) : (printed w).value = Binary64.value w := by
  rw [printed_of_isWhole h, value_whole h, Decimal.value, zpow_zero, mul_one]

theorem nearest_printed {w : Nat} (hw : w < infinityWord) : (printed w).nearest = w := by
  cases hwhole : isWhole w with
  | true =>
    apply Decimal.nearest_of_isNearest hw
    rw [value_printed hwhole]
    exact .self w
  | false =>
    rw [printed_of_not_isWhole hwhole]
    exact Decimal.nearest_shortest hw

theorem ofWord_nearest_printed {x : Float} {negative : Bool} {w : Nat}
    (h : shape x = .finite negative w) : ofWord negative (printed w).nearest = x := by
  obtain ⟨-, -, hw⟩ := Binary64.word_of_shape h
  rw [nearest_printed hw]
  exact Binary64.ofWord_of_shape h

/-- The text of a finite double without its sign. -/
theorem exists_numeral {w : Nat} (hw : w < infinityWord) :
    ∃ n : Numeral, (if isWhole w then Nat.toDigits 10 (whole w)
        else (Decimal.shortest w).positional) = n.chars ∧
      (n.fraction = [] ↔ Integral w) ∧ Decimal.read? n.chars = some (printed w) := by
  cases hwhole : isWhole w with
  | true =>
    refine ⟨.ofNat (whole w), ?_, ?_, ?_⟩
    · rw [if_pos rfl]
      exact (List.append_nil _).symm
    · exact ⟨fun _ => (isWhole_iff_integral w).mp hwhole, fun _ => rfl⟩
    · rw [Numeral.read?_chars, printed_of_isWhole hwhole]
      simp [Numeral.ofNat, Nat.ofDigitChars_ten_toDigits]
  | false =>
    have hexponent := exponent_shortest_neg hw hwhole
    have hlast := Decimal.coefficient_shortest_mod hw (ne_zero_of_isWhole_eq_false hwhole)
    have hpoint := Decimal.fraction_numeral_ne_nil hexponent hlast
    refine ⟨Decimal.numeral _ hexponent hlast, ?_, ?_, ?_⟩
    · rw [if_neg Bool.false_ne_true, Decimal.chars_numeral]
    · rw [← isWhole_iff_integral, hwhole]
      simpa using hpoint
    · rw [Decimal.chars_numeral, printed_of_not_isWhole hwhole]
      exact Decimal.read?_positional hexponent hlast

theorem read?_shortestChars {w : Nat} (hw : w < infinityWord) (h : isWhole w = false) :
    Decimal.read? (shortestChars w) = some (Decimal.shortest w) := by
  have hpos := ne_zero_of_isWhole_eq_false h
  have hexponent := exponent_shortest_neg hw h
  unfold shortestChars
  dsimp only
  rw [if_neg hpos]
  split
  · rw [if_neg (Int.not_le.mpr hexponent)]
    exact Decimal.read?_positional hexponent (Decimal.coefficient_shortest_mod hw hpos)
  · exact Decimal.read?_scientific _

theorem readSigned?_resultChars {x : Float} {negative : Bool} {w : Nat}
    (h : shape x = .finite negative w) :
    Decimal.readSigned? (resultChars x) = some (negative, printed w) := by
  obtain ⟨-, -, hw⟩ := Binary64.word_of_shape h
  obtain ⟨n, hchars, -, hread⟩ := exists_numeral hw
  unfold resultChars
  rw [h]
  dsimp only
  rw [hchars]
  exact Decimal.readSigned?_sign negative hread

theorem readSigned?_infinity (negative : Bool) :
    Decimal.readSigned? (sign negative ++ "inf".toList) = none := by
  cases negative <;> decide

/-- What the text of a finite double has to be: the numeral `n` after a sign, worth the decimal
    `d`. -/
structure Faithful (x : Float) (negative : Bool) (w : Nat) (n : Numeral) (d : Decimal) : Prop where
  layout : (result x).toList = sign negative ++ n.chars
  point : n.fraction = [] ↔ Integral w
  reads : Decimal.readSigned? (result x).toList = some (negative, d)
  exact : Integral w → d.value = Binary64.value w
  short : ¬ Integral w → Decimal.readSigned? (traced x).toList = some (negative, d) ∧
    ∀ d' : Decimal, d'.nearest = w → d.digits.length ≤ d'.digits.length
  nearest : IsNearest d.value w
  back : ofWord negative d.nearest = x

theorem faithful {x : Float} {negative : Bool} {w : Nat} (h : shape x = .finite negative w) :
    ∃ n, Faithful x negative w n (printed w) := by
  obtain ⟨-, -, hw⟩ := Binary64.word_of_shape h
  obtain ⟨n, hchars, hpoint, hread⟩ := exists_numeral hw
  refine ⟨n, ?_, hpoint, ?_, ?_, ?_, ?_, ?_⟩
  · rw [result, String.toList_ofList, resultChars, h, ← hchars]
  · rw [result, String.toList_ofList]
    exact readSigned?_resultChars h
  · intro hintegral
    exact value_printed ((isWhole_iff_integral w).mpr hintegral)
  · intro hintegral
    have hwhole : isWhole w = false :=
      Bool.eq_false_iff.mpr fun hwhole => hintegral ((isWhole_iff_integral w).mp hwhole)
    rw [printed_of_not_isWhole hwhole]
    constructor
    · rw [traced, String.toList_ofList, tracedChars, h]
      exact Decimal.readSigned?_sign negative (read?_shortestChars hw hwhole)
    · exact fun d' => Decimal.length_digits_shortest_le hw (ne_zero_of_isWhole_eq_false hwhole)
  · exact Decimal.isNearest_of_nearest hw (nearest_printed hw)
  · exact ofWord_nearest_printed h

theorem sign_injective {negative negative' : Bool} {text : List Char}
    (h : sign negative ++ text = sign negative' ++ text) : negative = negative' := by
  have hlength := congrArg List.length (List.append_cancel_right h)
  cases negative <;> cases negative' <;> simp_all [sign]

/-- The text of an infinity is that of no other number. -/
theorem eq_of_resultChars_infinite {x y : Float} {negative : Bool}
    (hx : shape x = .infinite negative) (hy : shape y ≠ .nan)
    (h : resultChars x = resultChars y) : x = y := by
  have htext : resultChars x = sign negative ++ "inf".toList := by
    unfold resultChars
    rw [hx]
  rw [htext] at h
  cases hshape : shape y with
  | nan => exact absurd hshape hy
  | infinite negative' =>
    unfold resultChars at h
    rw [hshape] at h
    obtain rfl := sign_injective h
    exact (Binary64.ofWord_of_infinite hx).symm.trans (Binary64.ofWord_of_infinite hshape)
  | finite negative' w =>
    have hread := readSigned?_resultChars hshape
    rw [← h, readSigned?_infinity] at hread
    cases hread

theorem resultChars_injective {x y : Float} (hx : shape x ≠ .nan) (hy : shape y ≠ .nan)
    (h : resultChars x = resultChars y) : x = y := by
  cases hshape : shape x with
  | nan => exact absurd hshape hx
  | infinite negative => exact eq_of_resultChars_infinite hshape hy h
  | finite negative w =>
    cases hshape' : shape y with
    | nan => exact absurd hshape' hy
    | infinite negative' => exact (eq_of_resultChars_infinite hshape' hx h.symm).symm
    | finite negative' w' =>
      have hread := readSigned?_resultChars hshape
      rw [h, readSigned?_resultChars hshape'] at hread
      obtain ⟨rfl, hprinted⟩ := Prod.mk.inj (Option.some.inj hread)
      rw [← ofWord_nearest_printed hshape, ← ofWord_nearest_printed hshape', hprinted]

/-- **Results print exactly and read back.**  The text of a finite double is a numeral in full
    after its sign, with a point just if the number is not whole; it is worth the double if that is
    whole and else what the shortest text with an exponent is worth; the nearest double to its worth
    is the one that was printed.  So no two numbers have the same text. -/
theorem result_reads_back :
    (∀ x negative w, shape x = .finite negative w → ∃ n d, Faithful x negative w n d) ∧
      ∀ x y, shape x ≠ .nan → shape y ≠ .nan → result x = result y → x = y := by
  constructor
  · intro x negative w h
    obtain ⟨n, hfaithful⟩ := faithful h
    exact ⟨n, printed w, hfaithful⟩
  · intro x y hx hy h
    exact resultChars_injective hx hy (String.ofList_injective h)

theorem subnormal_reads_back :
    shape (ofWord true 1) = .finite true 1 ∧
      (∃ n d, Faithful (ofWord true 1) true 1 n d) ∧
      shape (ofWord true 0) ≠ .nan ∧ shape (ofWord false 0) ≠ .nan ∧
      result (ofWord true 0) ≠ result (ofWord false 0) := by
  have hshape : ∀ negative, shape (ofWord negative 0) = .finite negative 0 := fun negative =>
    Binary64.shape_ofWord negative (by decide)
  have hsubnormal : shape (ofWord true 1) = .finite true 1 :=
    Binary64.shape_ofWord true (by decide)
  have hnan : ∀ negative, shape (ofWord negative 0) ≠ .nan := by simp [hshape]
  refine ⟨hsubnormal, result_reads_back.1 _ _ _ hsubnormal, hnan true, hnan false, ?_⟩
  intro hsame
  have heq := congrArg shape (result_reads_back.2 _ _ (hnan true) (hnan false) hsame)
  rw [hshape, hshape] at heq
  cases heq

end Abacus.Number
