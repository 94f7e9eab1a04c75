/-
  Abacus/Proofs/Retyping.lean
  ===========================
  **A whole result can be typed back in.**  The text of a whole double, minus sign included, is a
  source, and running it gives the double again.  Four parts have to agree for that: the printer
  writes all digits, the scanner takes them for one number, reading rounds them to the double they
  came from, and the minus sign, which is an operator when it is read, sets the sign bit and
  nothing else.  The last makes negative zero come back as it was.
-/
import Abacus.Program
import Abacus.Proofs.Arithmetic
import Abacus.Proofs.Numeral
import Abacus.Proofs.Restoration
import Abacus.Proofs.RoundTrip

namespace Abacus.Binary64

open Float.Model Float.Model.UnpackedFloat

/-! ### Negation -/

theorem neg_eq (x : Float) : -x = .ofModel (.pack x.toModel.unpack.neg) :=
  rfl

/-- Bits that differ in their sign stand for numbers that do. -/
theorem unpack_eq_neg {b b' : BitVec Format.binary64.numBits}
    (hexponent : unpackExponent b' = unpackExponent b)
    (hmantissa : unpackMantissa b' = unpackMantissa b)
    (hsign : Sign.ofBitVec (unpackSign b') = -Sign.ofBitVec (unpackSign b)) :
    unpack .binary64 b' = (unpack .binary64 b).neg := by
  unfold UnpackedFloat.unpack
  simp only [hexponent, hmantissa, hsign]
  split
  · split
    · rfl
    · rfl
  · split
    · split
      · rfl
      · rfl
    · rfl

/-- **Negation sets the sign bit.** -/
theorem neg_ofWord {w : Nat} (hw : w ≤ infinityWord) : -ofWord false w = ofWord true w := by
  let b : BitVec Format.binary64.numBits := (ofWord false w).toBits.toBitVec
  let b' : BitVec Format.binary64.numBits := (ofWord true w).toBits.toBitVec
  have hb : b.toNat = w := toBits_ofWord false hw
  have hb' : b'.toNat = signBit + w := toBits_ofWord true hw
  have hless : w < signBit := Nat.lt_of_le_of_lt hw (by decide)
  have hbit : signBit = 2 ^ 63 := rfl
  have hunpack : unpack .binary64 b' = (unpack .binary64 b).neg := by
    apply unpack_eq_neg
    · rw [← BitVec.toNat_inj, toNat_unpackExponent, toNat_unpackExponent, hb, hb']
      omega
    · rw [← BitVec.toNat_inj, toNat_unpackMantissa, toNat_unpackMantissa, hb, hb']
      omega
    · have hpositive : unpackSign b = 0#1 := (unpackSign_eq_zero_iff b).mpr (hb ▸ hless)
      have hnegative : unpackSign b' ≠ 0#1 := by
        rw [ne_eq, unpackSign_eq_zero_iff, hb']
        omega
      rw [Sign.ofBitVec, Sign.ofBitVec, if_pos hpositive, if_neg hnegative]
      rfl
  calc -ofWord false w
      = .ofModel (.pack (unpack .binary64 b')) := by rw [neg_eq, hunpack]; rfl
    _ = Float.ofBits (ofWord true w).toBits := rfl
    _ = ofWord true w := Float.ofBits_toBits _

end Abacus.Binary64

namespace Abacus

open Binary64 (shape infinityWord ofWord)
open Number (isWhole whole sign Integral)
open Scan (Spells Stops)

/-! ### The text of a whole number as a source -/

/-- No double has more than 309 digits before the point. -/
theorem Number.length_toDigits_whole_le {w : Nat} (hw : w < infinityWord) :
    (Nat.toDigits 10 (whole w)).length ≤ 309 := by
  have hbound : Binary64.units infinityWord ≤ Binary64.one * Decimal.pow10 309 := by decide +kernel
  have hless : whole w < Decimal.pow10 309 :=
    Nat.div_lt_of_lt_mul ((Binary64.units_strictMono hw).trans_le hbound)
  have hdigits : 0 < 309 := by decide
  -- over a variable number of digits, so that no power is ever computed
  generalize 309 = digits at hless hdigits ⊢
  exact (Nat.length_toDigits_le_iff (by decide) hdigits).mpr hless

/-- An expression, under a minus sign or not. -/
def Expr.signed (negative : Bool) (e : Expr) : Expr :=
  if negative then .neg e else e

theorem Writes.signed {chars : List Char} {e : Expr} (h : Writes .unary (String.ofList chars) e)
    (negative : Bool) :
    Writes .unary (String.ofList (sign negative ++ chars)) (e.signed negative) := by
  cases negative with
  | false => exact h
  | true =>
    rw [String.ofList_append]
    exact h.neg

/-- A short text of an expression is read as the expression. -/
theorem parse_of_writes {source : String} {e : Expr} (h : Writes .unary source e)
    (hlength : source.toList.length + 1 < Parse.maxNesting) : Parse.parse source = .ok e := by
  obtain ⟨tokens, hderives, hspelled⟩ := h
  have hspells : Spells source.toList (tokens.map Token.lexeme) := by
    simpa using hspelled [] [] .nil (by simp [Stops])
  exact parse_of_spells hspells (.plain hderives.toMultiply.toAddition)
    (Parse.sourceNestsBelow_of_length hlength)

theorem parse_result {x : Float} {negative : Bool} {w : Nat} (h : shape x = .finite negative w)
    (hwhole : isWhole w = true) :
    Parse.parse (Number.result x) =
      .ok (Expr.signed negative (.num (Binary64.ofNat (whole w)))) := by
  obtain ⟨-, -, hw⟩ := Binary64.word_of_shape h
  have htext : Number.result x = String.ofList (sign negative ++ Nat.toDigits 10 (whole w)) := by
    rw [Number.result, Number.resultChars, h]
    simp only [hwhole, if_true]
  rw [htext]
  apply parse_of_writes ((Writes.integer (whole w)).primary.signed negative)
  have hdigits := Number.length_toDigits_whole_le hw
  have hsign : (sign negative).length ≤ 1 := by cases negative <;> decide
  have hmax : Parse.maxNesting = 500 := rfl
  rw [String.toList_ofList, List.length_append]
  omega

/-! ### Its value -/

/-- A literal is rounded to the double that it was printed for, and its sign put back. -/
theorem Eval.evaluate_signed {x : Float} {negative : Bool} {w : Nat}
    (h : shape x = .finite negative w) (hwhole : isWhole w = true) (limit : Nat) :
    (Eval.evaluate limit (Expr.signed negative (.num (Binary64.ofNat (whole w))))).result =
      .ok x := by
  obtain ⟨-, -, hw⟩ := Binary64.word_of_shape h
  have hshape : shape (ofWord false w) = .finite false w := by
    rw [Binary64.shape_ofWord false hw.le, if_neg hw.ne]
  have hliteral := Binary64.ofNat_whole hshape hwhole
  rw [hliteral, ← Binary64.ofWord_of_shape h]
  cases negative with
  | false => rfl
  | true =>
    rw [← Binary64.neg_ofWord hw.le]
    rfl

/-! ### Running it -/

/-- A depth that is not given, or given and positive, can be taken. -/
theorem Settings.exists_maxDepth (env : Environment) {given : Option Int}
    (h : ∀ depth ∈ given, 1 ≤ depth) : ∃ limit records, maxDepth env given = (.ok limit, records) := by
  cases given with
  | none => exact ⟨_, _, rfl⟩
  | some depth =>
    have hpositive : ¬ depth < 1 := Int.not_lt.mpr (h depth rfl)
    exact ⟨depth.toNat, [], by rw [maxDepth, if_neg hpositive]⟩

theorem Program.run_eq_value {options : Program.Options} {source : String} {e : Expr} {x : Float}
    (hdepth : ∀ depth ∈ options.depth, 1 ≤ depth) (hparse : Parse.parse source = .ok e)
    (hvalue : ∀ limit, (Eval.evaluate limit e).result = .ok x) :
    (Program.run options source).1 = .value x := by
  obtain ⟨limit, records, hlimit⟩ := Settings.exists_maxDepth options.environment hdepth
  have hscope : (!Scope.empty.isEmpty) = false := rfl
  unfold Parse.parse at hparse
  simp [Program.run, hparse, Program.evaluateIn, hscope, hlimit, Program.Result.ofRun, hvalue]

/-- **A whole result can be typed back in.**  For every whole double, either zero among them, the
    text of the result is a program whose value is that double, whatever depth of calls is
    allowed. -/
theorem run_result_of_integral (options : Program.Options) (x : Float) (negative : Bool) (w : Nat)
    (hdepth : ∀ depth ∈ options.depth, 1 ≤ depth) (h : shape x = .finite negative w)
    (hintegral : Integral w) : (Program.run options (Number.result x)).1 = .value x := by
  have hwhole := (Number.isWhole_iff_integral w).mpr hintegral
  exact Program.run_eq_value hdepth (parse_result h hwhole) (Eval.evaluate_signed h hwhole)

/-- Negative zero, and the negative double of most digits. -/
theorem run_result_of_integral_extremes :
    Number.result (ofWord true 0) = "-0" ∧
      (Program.run ⟨.empty, none, false⟩ "-0").1 = .value (ofWord true 0) ∧
      (Program.run ⟨.empty, some 1, true⟩ (Number.result (ofWord true (infinityWord - 1)))).1 =
        .value (ofWord true (infinityWord - 1)) := by
  have hzero : Number.result (ofWord true 0) = "-0" := by decide +kernel
  have hshape : ∀ w < infinityWord, shape (ofWord true w) = .finite true w := by
    intro w hw
    rw [Binary64.shape_ofWord true hw.le, if_neg hw.ne]
  have hintegral : ∀ w, isWhole w = true → Integral w := fun w =>
    (Number.isWhole_iff_integral w).mp
  refine ⟨hzero, ?_, ?_⟩
  · rw [← hzero]
    exact run_result_of_integral _ _ true 0 (by simp) (hshape 0 (by decide))
      (hintegral 0 (by decide +kernel))
  · exact run_result_of_integral _ _ true (infinityWord - 1) (by simp)
      (hshape _ (by decide)) (hintegral _ (by decide +kernel))

end Abacus
