/-
  Abacus/Proofs/Arithmetic.lean
  =============================
  **Division is total.**  The case distinction that keeps zero divisors away from plain
  division gives the quotient of the standard for floating-point numbers in every case, so no
  operator ever fails and `Operator.value` says what it gives.
-/
import Abacus.Eval.Arithmetic
import Abacus.Proofs.Number

namespace Abacus

/-- The value of an operator: the operation of the standard for floating-point numbers. -/
def Operator.value : Operator → Float → Float → Float
  | .add, x, y => x + y
  | .sub, x, y => x - y
  | .mul, x, y => x * y
  | .div, x, y => x / y

namespace Binary64

open Float.Model Float.Model.UnpackedFloat

theorem div_eq (x y : Float) :
    x / y = .ofModel (.pack (UnpackedFloat.div .binary64 x.toModel.unpack y.toModel.unpack)) :=
  rfl

theorem unpack_zero : (0.0 : Float).toModel.unpack = .zero .positive := by
  rfl

theorem beq_zero_iff (x : Float) :
    (x == 0.0) = true ↔ ∃ s, x.toModel.unpack = .zero s := by
  have hbeq : (x == 0.0) = (x.toModel.unpack.compare (.zero .positive) == some .eq) := by
    rw [← unpack_zero]
    rfl
  rw [hbeq]
  cases hx : x.toModel.unpack with
  | infinity s => cases s <;> simp [UnpackedFloat.compare]
  | notANumber => simp [UnpackedFloat.compare]
  | zero s => simp [UnpackedFloat.compare]
  | finite s m e hm => cases s <;> simp [UnpackedFloat.compare]

/-- The sign of what has one. -/
def sign? : UnpackedFloat → Option Sign
  | .infinity s | .zero s | .finite s .. => some s
  | .notANumber => none

theorem unpackSign_eq_zero_iff (b : BitVec Format.binary64.numBits) :
    unpackSign b = 0#1 ↔ b.toNat < signBit := by
  have hlt : b.toNat < 2 ^ 64 := b.isLt
  have hbit : (unpackSign b).toNat = b.toNat / 2 ^ 63 % 2 := by
    simp [unpackSign, Nat.shiftRight_eq_div_pow]
  have hsign : signBit = 2 ^ 63 := rfl
  rw [← BitVec.toNat_inj, hbit, hsign]
  simp only [BitVec.toNat_ofNat]
  omega

theorem isNegative_iff {x : Float} {s : Sign} (h : sign? x.toModel.unpack = some s) :
    isNegative x = true ↔ s = .negative := by
  let bits : BitVec Format.binary64.numBits := x.toModel.toBits.toBitVec
  have hs : s = Sign.ofBitVec (unpackSign bits) := by
    unfold Float.Model.unpack UnpackedFloat.unpack at h
    simp only at h
    split at h
    · split at h
      · exact (Option.some.inj h).symm
      · cases h
    · split at h
      · split at h
        · exact (Option.some.inj h).symm
        · exact (Option.some.inj h).symm
      · exact (Option.some.inj h).symm
  have hbits := unpackSign_eq_zero_iff bits
  have hnat : x.toBits.toNat = bits.toNat := rfl
  unfold isNegative
  rw [hs, Sign.ofBitVec, hnat, decide_eq_true_iff]
  split
  · rename_i hzero
    exact ⟨fun h => absurd h (Nat.not_le_of_lt (hbits.mp hzero)), fun h => nomatch h⟩
  · rename_i hone
    exact ⟨fun _ => rfl, fun _ => Nat.le_of_not_lt (mt hbits.mpr hone)⟩

theorem isNaN_iff (x : Float) : x.isNaN = true ↔ x.toModel.unpack = .notANumber :=
  UnpackedFloat.isNaN_iff

/-- The quotient by a zero is infinite unless the dividend is zero or not a number. -/
theorem divideByZero_of_sign {x y : Float} {s t : Sign} (hx : sign? x.toModel.unpack = some s)
    (hzero : ∀ s, x.toModel.unpack ≠ .zero s) (hy : y.toModel.unpack = .zero t) :
    divideByZero x y = .ofModel (.pack (.infinity (s / t))) := by
  have hsigny : sign? y.toModel.unpack = some t := by
    rw [hy]
    rfl
  have hnot : ¬ (x == 0.0 || x.isNaN) = true := by
    rw [Bool.or_eq_true, beq_zero_iff, isNaN_iff]
    rintro (⟨s', hs'⟩ | hnan)
    · exact hzero s' hs'
    · rw [hnan] at hx
      cases hx
  have hpositive : infinity = .ofModel (.pack (.infinity .positive)) := by decide
  have hnegative : -infinity = .ofModel (.pack (.infinity .negative)) := by decide
  have hsame : isNegative x = isNegative y ↔ s = t := by
    rw [Bool.eq_iff_iff, isNegative_iff hx, isNegative_iff hsigny]
    cases s <;> cases t <;> simp
  unfold divideByZero
  rw [if_neg hnot]
  by_cases hst : s = t
  · rw [if_pos (hsame.mpr hst), hpositive, hst]
    cases t <;> rfl
  · rw [if_neg (mt hsame.mp hst), hnegative]
    cases s with
    | negative =>
      cases t with
      | negative => exact absurd rfl hst
      | positive => rfl
    | positive =>
      cases t with
      | negative => rfl
      | positive => exact absurd rfl hst

/-- **Division by a zero is the quotient of the standard.** -/
theorem divideByZero_eq {x y : Float} (hy : (y == 0.0) = true) : divideByZero x y = x / y := by
  obtain ⟨t, ht⟩ := (beq_zero_iff y).mp hy
  have hnan : nan = .ofModel (.pack .notANumber) := by decide
  rw [div_eq, ht]
  cases hx : x.toModel.unpack with
  | notANumber =>
    have hisNaN := (isNaN_iff x).mpr hx
    rw [divideByZero, hisNaN, Bool.or_true, if_pos rfl, hnan]
    rfl
  | zero s =>
    have hzero := (beq_zero_iff x).mpr ⟨s, hx⟩
    rw [divideByZero, hzero, Bool.true_or, if_pos rfl, hnan]
    rfl
  | infinity s => exact divideByZero_of_sign (by rw [hx]; rfl) (by rw [hx]; nofun) ht
  | finite s m e hm => exact divideByZero_of_sign (by rw [hx]; rfl) (by rw [hx]; nofun) ht

end Binary64

theorem divide_eq (x y : Float) : divide x y = .ok (x / y) := by
  unfold divide plainDivide
  by_cases hy : (y == 0.0) = true
  · rw [if_pos hy, Binary64.divideByZero_eq hy]
  · rw [if_neg hy, if_neg hy]

/-- **No operator fails.** -/
theorem Operator.apply_eq (op : Operator) (x y : Float) : op.apply x y = .ok (op.value x y) := by
  cases op with
  | add | sub | mul => rfl
  | div => exact divide_eq x y

end Abacus
