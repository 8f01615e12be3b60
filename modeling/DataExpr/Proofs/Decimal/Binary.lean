import DataExpr.Decimal.Binary
import Mathlib

/-!
# Doubles and their bits

A binary fraction that a normal double holds comes back from the bits of the double,
with its mantissa brought to 53 bits (`ofFloat?_toFloat`).  So do the natural numbers
below `2 ^ 53` (`ofFloat?_ofNat`).
-/

namespace DataExpr.Decimal

open Float.Model Float.Model.UnpackedFloat in
/-- Only the bits of `NaN` are not kept, and those have the greatest exponent. -/
theorem toBits_ofBits {bits : Nat} (hbits : bits < 2 ^ 64)
    (hexponent : bits / 2 ^ 52 % 2 ^ 11 ≠ 2047) :
    (Float.ofBits (UInt64.ofNat bits)).toBits.toNat = bits := by
  have hnat : (UInt64.ofNat bits).toNat = bits := UInt64.toNat_ofNat_of_lt' hbits
  have hnan : @isNaNBits Format.binary64 (UInt64.ofNat bits).toBitVec = false := by
    simp only [isNaNBits, decide_eq_false_iff_not, not_and]
    intro h
    have hvalue := congrArg BitVec.toNat h
    rw [unpackExponent_def, BitVec.extractLsb'_toNat] at hvalue
    rw [UInt64.toNat_toBitVec, hnat, Nat.shiftRight_eq_div_pow] at hvalue
    exact absurd hvalue hexponent
  have hpack : (Float.ofBits (UInt64.ofNat bits)).toBits.toBitVec =
      (unpack Format.binary64 (UInt64.ofNat bits).toBitVec).pack Format.binary64 := rfl
  rw [pack_unpack _ (by decide), hnan] at hpack
  rw [← UInt64.toNat_toBitVec, hpack]
  exact hnat

namespace Binary

/-- The mantissa has 53 bits, and the exponent is one of a double. -/
structure IsNormal (b : Binary) : Prop where
  le_mantissa : 2 ^ 52 ≤ b.mantissa
  mantissa_lt : b.mantissa < 2 ^ 53
  le_exponent : leastExponent ≤ b.exponent
  exponent_le : b.exponent ≤ 971

theorem negative_normalize (b : Binary) : b.normalize.negative = b.negative := by
  unfold normalize
  dsimp only
  split <;> rfl

theorem toBits_of_isNormal {b : Binary} (h : b.normalize.IsNormal) (hb : b.mantissa ≠ 0) :
    b.toBits = (if b.negative then 2 ^ 63 else 0) +
      (b.normalize.exponent - leastExponent + 1).toNat * 2 ^ 52 +
      (b.normalize.mantissa - 2 ^ 52) := by
  have hlow : ¬b.normalize.mantissa < Nat.pow 2 52 := Nat.not_lt.2 h.le_mantissa
  unfold toBits
  dsimp only
  rw [if_neg hb, if_neg hlow]
  rfl

/-- The sign, the exponent and the fraction of a double's bits. -/
theorem split_bits {negative : Bool} {biased fraction bits : Nat} (hbiased : biased < 2047)
    (hfraction : fraction < 2 ^ 52)
    (h : bits = (if negative then 2 ^ 63 else 0) + biased * 2 ^ 52 + fraction) :
    bits < 2 ^ 64 ∧ (bits / 2 ^ 63 == 1) = negative ∧ bits / 2 ^ 52 % 2 ^ 11 = biased ∧
      bits % 2 ^ 52 = fraction := by
  cases negative
  · have hsign : bits / 2 ^ 63 = 0 := by
      simp only [Bool.false_eq_true, if_false] at h
      omega
    rw [hsign]
    simp only [Bool.false_eq_true, if_false] at h
    refine ⟨by omega, rfl, by omega, by omega⟩
  · have hsign : bits / 2 ^ 63 = 1 := by
      simp only [if_true] at h
      omega
    rw [hsign]
    simp only [if_true] at h
    refine ⟨by omega, rfl, by omega, by omega⟩

theorem ofFloat?_toFloat {b : Binary} (h : b.normalize.IsNormal) (hb : b.mantissa ≠ 0) :
    ofFloat? b.toFloat = some b.normalize := by
  have hleast : leastExponent = -1074 := rfl
  have hnegative := negative_normalize b
  have hsum := toBits_of_isNormal h hb
  rcases hnormal : b.normalize with ⟨negative, mantissa, exponent⟩
  rw [hnormal] at h hnegative hsum
  obtain ⟨hle_mantissa, hmantissa_lt, hle_exponent, hexponent_le⟩ := h
  dsimp only at *
  obtain ⟨hlt, hsign, hbiased, hfraction⟩ := split_bits (by omega) (by omega) hsum
  have hbits : b.toFloat.toBits.toNat = b.toBits := toBits_ofBits hlt (by omega)
  unfold ofFloat?
  dsimp only [Nat.pow_eq]
  rw [hbits, hbiased, hfraction, hsign, if_neg (by omega), if_neg (by omega), hnegative]
  congr
  · omega
  · omega

/-- The form that a positive natural number has as a double. -/
def ofWhole (n : Nat) : Binary :=
  ⟨false, n * 2 ^ (52 - n.log2), n.log2 - 52⟩

theorem log2_le {n : Nat} (h : n < 2 ^ 53) (hpos : n ≠ 0) : n.log2 ≤ 52 :=
  Nat.le_of_lt_succ ((Nat.log2_lt hpos).2 h)

theorem normalize_whole {n : Nat} (h : n < 2 ^ 53) (hpos : n ≠ 0) :
    normalize ⟨false, n, 0⟩ = ofWhole n := by
  have hlog := log2_le h hpos
  have hexponent : max ((0 : Int) + (n.log2 : Int) - 52) leastExponent = n.log2 - 52 := by
    unfold leastExponent
    omega
  have hshift : ((0 : Int) - (n.log2 - 52)).toNat = 52 - n.log2 := by omega
  unfold normalize
  dsimp only
  rw [hexponent, if_pos (by omega), hshift]
  rfl

theorem isNormal_ofWhole {n : Nat} (h : n < 2 ^ 53) (hpos : n ≠ 0) : (ofWhole n).IsNormal := by
  have hlog := log2_le h hpos
  have hlow : 2 ^ n.log2 ≤ n := Nat.log2_self_le hpos
  have hhigh : n < 2 ^ (n.log2 + 1) := Nat.lt_log2_self
  have hpow : 2 ^ n.log2 * 2 ^ (52 - n.log2) = 2 ^ 52 := by
    rw [← Nat.pow_add]
    congr 1
    omega
  constructor
  · calc 2 ^ 52 = 2 ^ n.log2 * 2 ^ (52 - n.log2) := hpow.symm
      _ ≤ n * 2 ^ (52 - n.log2) := Nat.mul_le_mul_right _ hlow
  · calc n * 2 ^ (52 - n.log2) < 2 ^ (n.log2 + 1) * 2 ^ (52 - n.log2) :=
          Nat.mul_lt_mul_of_pos_right hhigh (Nat.two_pow_pos _)
      _ = 2 ^ 53 := by
          rw [Nat.pow_succ, Nat.mul_right_comm, hpow]
          rfl
  · show leastExponent ≤ (n.log2 : Int) - 52
    unfold leastExponent
    omega
  · show (n.log2 : Int) - 52 ≤ 971
    omega

end Binary

/-- A natural number below `2 ^ 53` is a double. -/
theorem ofFloat?_ofNat {n : Nat} (h : n < exactLimit) (hpos : n ≠ 0) :
    Binary.ofFloat? (ofNat n) = some (Binary.ofWhole n) := by
  have hnormal := Binary.isNormal_ofWhole h hpos
  rw [← Binary.normalize_whole h hpos] at hnormal ⊢
  rw [ofNat, if_pos h]
  exact Binary.ofFloat?_toFloat hnormal hpos

end DataExpr.Decimal
