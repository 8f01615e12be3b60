import DataExpr.Proofs.Decimal.Unpacked

/-!
# Natural numbers of 64 bits as doubles

`ofNat` takes a number below `2 ^ 53` apart exactly and reads a larger one as a decimal.  Both come
to the conversion of 64-bit words (`ofNat_eq_toFloat`), which rounds once.

For a small number nothing has to be rounded, and both have the same parts
(`ofNat_eq_unpacked`).  For a large one the decimal is rounded with zeros behind the mantissa, and
these leave no trace when they are shifted out (`roundWithAccuracy_mul_two_pow`).
-/

namespace DataExpr.Decimal

open Float.Model Float.Model.UnpackedFloat

/-! ## Zeros behind a mantissa -/

theorem shiftRight_add (em : ExtendedMantissa) (first second : Nat) :
    em >>> (first + second) = em >>> first >>> second := by
  induction second with
  | zero => rfl
  | succ second ih =>
    show (em >>> (first + second)).shiftRightOne = (em >>> first >>> second).shiftRightOne
    rw [ih]

/-- Zeros that are shifted out set none of the bits that rounding looks at. -/
theorem shiftRight_mul_two_pow (mantissa shift : Nat) :
    ExtendedMantissa.mk (mantissa * 2 ^ shift) false false >>> shift =
      ⟨mantissa, false, false⟩ := by
  induction shift generalizing mantissa with
  | zero =>
    rw [Nat.pow_zero, Nat.mul_one]
    rfl
  | succ shift ih =>
    have hstep : ExtendedMantissa.mk (mantissa * 2 ^ (shift + 1)) false false >>> (shift + 1) =
        (ExtendedMantissa.mk (2 * mantissa * 2 ^ shift) false false >>> shift).shiftRightOne := by
      rw [Nat.pow_succ', ← Nat.mul_assoc, Nat.mul_comm mantissa]
      rfl
    rw [hstep, ih, ExtendedMantissa.shiftRightOne]
    simp

theorem totalExponent_mul_two_pow {mantissa : Nat} (hpos : mantissa ≠ 0) (exponent : Int)
    (shift : Nat) :
    totalExponent (mantissa * 2 ^ shift) (exponent - shift) = totalExponent mantissa exponent := by
  have hlog : (mantissa * 2 ^ shift).log2 = mantissa.log2 + shift := by
    induction shift with
    | zero => rw [Nat.pow_zero, Nat.mul_one, Nat.add_zero]
    | succ shift ih =>
      rw [Nat.pow_succ', Nat.mul_left_comm, Nat.log2_two_mul (by positivity), ih, Nat.add_assoc]
  unfold totalExponent
  rw [hlog]
  omega

/-- A number is rounded to the same double however many zeros its mantissa ends with. -/
theorem roundWithAccuracy_mul_two_pow (spec : Format) (sign : Sign) {mantissa : Nat}
    (hpos : mantissa ≠ 0) {exponent : Int} (shift : Nat)
    (hle : exponent ≤ spec.targetExponent (totalExponent mantissa exponent)) :
    roundWithAccuracy spec sign (mantissa * 2 ^ shift) (exponent - shift) .exact =
      roundWithAccuracy spec sign mantissa exponent .exact := by
  have hshift : shiftToTargetExponent spec (mantissa * 2 ^ shift) (exponent - shift) .exact =
      shiftToTargetExponent spec mantissa exponent .exact := by
    unfold shiftToTargetExponent
    rw [totalExponent_mul_two_pow hpos]
    generalize spec.targetExponent (totalExponent mantissa exponent) = target at hle
    have hamount : (target - (exponent - shift)).toNat = shift + (target - exponent).toNat := by
      omega
    unfold shiftToExponent ExtendedMantissa.ofMantissaAndAccuracy
    dsimp only
    rw [hamount, shiftRight_add, shiftRight_mul_two_pow]
    congr 1
    omega
  unfold roundWithAccuracy
  rw [hshift]

/-- What has the exponent that rounding aims at is not changed. -/
theorem roundWithAccuracy_of_target {sign : Sign} {mantissa : Nat} (hpos : 0 < mantissa)
    {exponent : Int}
    (htarget : Format.binary64.targetExponent (totalExponent mantissa exponent) = exponent) :
    roundWithAccuracy Format.binary64 sign mantissa exponent .exact =
      .finite sign mantissa exponent hpos := by
  have hshift : shiftToTargetExponent Format.binary64 mantissa exponent .exact =
      (⟨mantissa, false, false⟩, exponent) := by
    unfold shiftToTargetExponent shiftToExponent
    rw [htarget]
    dsimp only
    rw [Int.sub_self, Int.toNat_zero, Int.natCast_zero, Int.add_zero]
    rfl
  have hrounded : ExtendedMantissa.roundedMantissa ⟨mantissa, false, false⟩ = mantissa := rfl
  unfold roundWithAccuracy
  rw [hshift]
  dsimp only
  rw [hrounded, hshift, dif_neg (by dsimp only; omega)]

/-! ## Natural numbers -/

theorem ofNat_eq_round {n : Nat} (hpos : n ≠ 0) :
    UnpackedFloat.ofNat Format.binary64 n = UnpackedFloat.round Format.binary64 .positive n 0 := by
  have hcompare : compare (n : Int) 0 = .gt := Int.compare_eq_gt.2 (by omega)
  unfold UnpackedFloat.ofNat UnpackedFloat.ofInt UnpackedFloat.normalize
  rw [hcompare]
  rfl

/-- A number below `2 ^ 53` is converted exactly. -/
theorem ofNat_eq_unpacked {n : Nat} (h : n < 2 ^ 53) (hpos : n ≠ 0) :
    UnpackedFloat.ofNat Format.binary64 n = (Binary.ofWhole n).unpacked := by
  have hlog := Binary.log2_le h hpos
  have hmantissa : 0 < n * 2 ^ (52 - n.log2) := by positivity
  have htarget : Format.binary64.targetExponent (totalExponent n 0) = n.log2 - 52 := by
    simp only [Format.targetExponent, totalExponent, Format.mantissaBits, Format.minExponent]
    omega
  have hshift : (0 - ((n.log2 : Int) - 52)).toNat = 52 - n.log2 := by omega
  have hexponent : (0 : Int) - (52 - n.log2 : Nat) = n.log2 - 52 := by omega
  have htotal := totalExponent_mul_two_pow hpos 0 (52 - n.log2)
  rw [hexponent] at htotal
  calc UnpackedFloat.ofNat Format.binary64 n
      = UnpackedFloat.round Format.binary64 .positive n 0 := ofNat_eq_round hpos
    _ = roundWithAccuracy Format.binary64 .positive (n * 2 ^ (52 - n.log2)) (n.log2 - 52)
          .exact := by
        unfold UnpackedFloat.round decreaseExponent
        dsimp only
        rw [htarget, hshift, hexponent, Nat.shiftLeft_eq]
    _ = .finite .positive (n * 2 ^ (52 - n.log2)) (n.log2 - 52) hmantissa :=
        roundWithAccuracy_of_target hmantissa (by rw [htotal, htarget])
    _ = (Binary.ofWhole n).unpacked := by
        rw [Binary.unpacked, dif_pos (show 0 < (Binary.ofWhole n).mantissa from hmantissa)]
        rfl

theorem mul_finite (spec : Format) (first second : Sign) {m k : Nat} (d e : Int) (hm : 0 < m)
    (hk : 0 < k) :
    UnpackedFloat.mul spec (.finite first m d hm) (.finite second k e hk) =
      roundWithAccuracy spec (first * second) (m * k) (d + e) .exact :=
  rfl

/-- A number from `2 ^ 53` on is the same as a decimal without a point. -/
theorem ofScientific_eq_ofNat {n : Nat} (h : 2 ^ 53 ≤ n) :
    UnpackedFloat.ofScientific Format.binary64 n 0 = UnpackedFloat.ofNat Format.binary64 n := by
  have hpos : n ≠ 0 := by omega
  have hlog : 53 ≤ n.log2 := (Nat.le_log2 hpos).2 h
  have htarget : 0 ≤ Format.binary64.targetExponent (totalExponent n 0) := by
    simp only [Format.targetExponent, totalExponent, Format.mantissaBits]
    omega
  have hrange : ¬(0 : Int) < -((2 ^ Format.binary64.exponentBits : Int) + n.log2) := by
    have hbits : (2 ^ Format.binary64.exponentBits : Int) = 2048 := rfl
    omega
  have hshift : (0 - Format.binary64.targetExponent (totalExponent n 0)).toNat = 0 := by omega
  calc UnpackedFloat.ofScientific Format.binary64 n 0
      = roundWithAccuracy Format.binary64 .positive (n * 2 ^ 53) (0 - 53) .exact := by
        unfold UnpackedFloat.ofScientific
        rw [dif_neg hpos, if_neg (by decide), if_neg hrange, if_pos (by decide), mul_finite]
        simp only [Int.toNat_zero, Nat.pow_zero, Nat.mul_one, Int.add_zero, Nat.shiftLeft_eq]
        rfl
    _ = roundWithAccuracy Format.binary64 .positive n 0 .exact :=
        roundWithAccuracy_mul_two_pow _ _ hpos 53 htarget
    _ = UnpackedFloat.round Format.binary64 .positive n 0 := by
        unfold UnpackedFloat.round decreaseExponent
        dsimp only
        rw [hshift]
        rfl
    _ = UnpackedFloat.ofNat Format.binary64 n := (ofNat_eq_round hpos).symm

/-- The double of a number of 64 bits is what the word is converted to. -/
theorem ofNat_eq_toFloat {n : Nat} (h : n < 2 ^ 64) : ofNat n = (UInt64.ofNat n).toFloat := by
  have hword : UnpackedFloat.ofUInt64 Format.binary64 (UInt64.ofNat n) =
      UnpackedFloat.ofNat Format.binary64 n :=
    congrArg (UnpackedFloat.ofNat Format.binary64) (UInt64.toNat_ofNat_of_lt' h)
  by_cases hexact : n < exactLimit
  · by_cases hpos : n = 0
    · subst hpos
      decide +kernel
    have hparts : (ofNat n).toModel.unpack =
        UnpackedFloat.ofUInt64 Format.binary64 (UInt64.ofNat n) := by
      rw [hword, ofNat_eq_unpacked hexact hpos, unpack_of_ofFloat? (ofFloat?_ofNat hexact hpos)]
    have hbits : (ofNat n).toModel.toBits.toBitVec =
        (UInt64.ofNat n).toFloat.toModel.toBits.toBitVec := by
      calc (ofNat n).toModel.toBits.toBitVec
          = UnpackedFloat.pack Format.binary64 (ofNat n).toModel.unpack :=
            (pack_unpack_of_valid (ofNat n).toModel.valid (by decide)).symm
        _ = (UInt64.ofNat n).toFloat.toModel.toBits.toBitVec := by
            rw [hparts]
            rfl
    exact Float.toBits_inj.1 (UInt64.toBitVec_inj.1 hbits)
  · have hlarge : 2 ^ 53 ≤ n := Nat.le_of_not_lt hexact
    have hdecimal : Float.ofScientific n false 0 =
        Float.ofModel (.pack (UnpackedFloat.ofScientific Format.binary64 n 0)) :=
      dif_neg fun hfast => Nat.not_lt.2 hlarge hfast.1
    rw [ofNat, if_neg hexact, hdecimal, ofScientific_eq_ofNat hlarge, ← hword]
    rfl

end DataExpr.Decimal
