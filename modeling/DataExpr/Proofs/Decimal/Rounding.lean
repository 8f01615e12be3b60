import DataExpr.Decimal.Numeral
import DataExpr.Proofs.Decimal.Unpacked

/-!
# Rounding gives numbers

Rounding may lose all of a number or carry it to infinity, but it never gives `NaN`.  So
every numeral denotes a number (`not_isNaN_toFloat`).

What rounding has found stays a number when it is packed into bits (`not_isNaN_unpack_pack`),
and so does a number that is multiplied or divided by a power of ten.
-/

namespace DataExpr.Decimal

open Float.Model Float.Model.UnpackedFloat

/-! ## Packing -/

/-- Bits below the greatest exponent are those of a number. -/
theorem not_isNaN_unpack_packComponents {sign : Sign} {exponent : BitVec 11} {mantissa : BitVec 52}
    (h : exponent.toNat ≠ 2047) :
    (unpack Format.binary64 (packComponents Format.binary64 sign exponent mantissa)).isNaN =
      false := by
  have hexponent : exponent ≠ -1#11 := fun heq => h (congrArg BitVec.toNat heq)
  rw [UnpackedFloat.unpack.eq_def]
  dsimp only
  rw [unpackExponent_packComponents, if_neg hexponent]
  split
  · split <;> rfl
  · rfl

theorem not_isNaN_unpack_packedInfinity (sign : Sign) :
    (unpack Format.binary64 (packedInfinity Format.binary64 sign)).isNaN = false := by
  cases sign <;> decide +kernel

/-- What is a number stays one in its bits. -/
theorem not_isNaN_unpack_pack {x : UnpackedFloat} (h : x.isNaN = false) :
    (unpack Format.binary64 (x.pack Format.binary64)).isNaN = false := by
  cases x with
  | notANumber => cases h
  | infinity sign => exact not_isNaN_unpack_packedInfinity sign
  | zero sign =>
    show (unpack Format.binary64 (packedZero Format.binary64 sign)).isNaN = false
    rw [unpack_packedZero]
    rfl
  | finite sign mantissa exponent hpos =>
    rw [UnpackedFloat.pack.eq_def]
    dsimp only
    split
    · exact not_isNaN_unpack_packedInfinity sign
    · rename_i hfits
      have hlimit : 2 ^ Format.binary64.exponentBits = 2048 := rfl
      rw [hlimit] at hfits
      split
      · apply not_isNaN_unpack_packComponents
        rw [BitVec.toNat_ofNat]
        exact (Nat.mod_le _ _).trans_lt (by omega) |>.ne
      · exact not_isNaN_unpack_packComponents (by decide)

/-! ## Operations -/

theorem not_isNaN_roundWithAccuracy (sign : Sign) (mantissa : Nat) (exponent : Int)
    (accuracy : Accuracy) :
    (roundWithAccuracy Format.binary64 sign mantissa exponent accuracy).isNaN = false := by
  unfold roundWithAccuracy
  dsimp only
  split <;> rfl

/-- Whether this is neither zero nor infinite nor `NaN`. -/
def isFinitePart : UnpackedFloat → Bool
  | .finite .. => true
  | _ => false

theorem not_isNaN_mul {x y : UnpackedFloat} (hx : x.isNaN = false) (hy : isFinitePart y = true) :
    (x.mul Format.binary64 y).isNaN = false := by
  cases y with
  | finite sign mantissa exponent hpos =>
    cases x with
    | notANumber => cases hx
    | finite => exact not_isNaN_roundWithAccuracy _ _ _ _
    | _ => rfl
  | _ => cases hy

theorem not_isNaN_div {x y : UnpackedFloat} (hx : x.isNaN = false) (hy : isFinitePart y = true) :
    (x.div Format.binary64 y).isNaN = false := by
  cases y with
  | finite sign mantissa exponent hpos =>
    cases x with
    | notANumber => cases hx
    | finite => exact not_isNaN_roundWithAccuracy _ _ _ _
    | _ => rfl
  | _ => cases hy

theorem not_isNaN_ofUInt64 (n : UInt64) :
    (UnpackedFloat.ofUInt64 Format.binary64 n).isNaN = false := by
  unfold UnpackedFloat.ofUInt64 UnpackedFloat.ofNat UnpackedFloat.ofInt UnpackedFloat.normalize
  split
  · exact not_isNaN_roundWithAccuracy _ _ _ _
  · rfl
  · exact not_isNaN_roundWithAccuracy _ _ _ _

/-! ## Decimals -/

theorem isFinitePart_powerOfTen {e : Nat} (h : e < Float.exactlyRepresentablePowersOfTen.size) :
    isFinitePart Float.exactlyRepresentablePowersOfTen[e].toModel.unpack = true := by
  have hall : ∀ power ∈ Float.exactlyRepresentablePowersOfTen,
      isFinitePart power.toModel.unpack = true := by
    decide +kernel
  exact hall _ (Array.getElem_mem h)

theorem not_isNaN_unpacked_ofScientific (mantissa : Nat) (exponent : Int) :
    (UnpackedFloat.ofScientific Format.binary64 mantissa exponent).isNaN = false := by
  unfold UnpackedFloat.ofScientific
  split
  · rfl
  · split
    · rfl
    · split
      · rfl
      · split
        · exact not_isNaN_mul rfl rfl
        · exact not_isNaN_div rfl rfl

theorem not_isNaN_ofScientific (mantissa : Nat) (negative : Bool) (exponent : Nat) :
    (Float.ofScientific mantissa negative exponent).isNaN = false := by
  unfold Float.ofScientific
  split
  · rename_i hexact
    have hpower := isFinitePart_powerOfTen (Nat.lt_succ_of_le hexact.2)
    have hmantissa := not_isNaN_unpack_pack (not_isNaN_ofUInt64 mantissa.toUInt64)
    dsimp only
    split
    · exact not_isNaN_unpack_pack (not_isNaN_div hmantissa hpower)
    · exact not_isNaN_unpack_pack (not_isNaN_mul hmantissa hpower)
  · exact not_isNaN_unpack_pack (not_isNaN_unpacked_ofScientific _ _)

theorem not_isNaN_of_isFinite {x : Float} (h : x.isFinite = true) : x.isNaN = false := by
  have hfinite : x.toModel.unpack.isFinite = true := h
  show x.toModel.unpack.isNaN = false
  generalize x.toModel.unpack = parts at hfinite ⊢
  cases parts with
  | notANumber => cases hfinite
  | _ => rfl

theorem not_isNaN_ofNat (n : Nat) : (ofNat n).isNaN = false := by
  by_cases h : n < exactLimit
  · exact not_isNaN_of_isFinite (isFinite_ofNat h)
  · rw [ofNat, if_neg h]
    exact not_isNaN_ofScientific n false 0

/-- A numeral denotes a number. -/
theorem not_isNaN_toFloat (n : Numeral) : n.toFloat.isNaN = false := by
  unfold Numeral.toFloat
  dsimp only
  split
  · decide +kernel
  · split
    · decide +kernel
    · split
      · decide +kernel
      · split
        · exact not_isNaN_ofNat _
        · exact not_isNaN_ofScientific _ _ _

end DataExpr.Decimal
