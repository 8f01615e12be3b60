import DataExpr.Proofs.Decimal.Binary

/-!
# The parts of a double

A double that is taken apart as a binary fraction is the same one that arithmetic on
doubles takes apart (`unpack_eq_of_ofFloat?`).  So binary fractions tell finite doubles
apart (`eq_of_ofFloat?`), and the sign of a fraction is that of the double
(`ofFloat?_neg`).
-/

namespace DataExpr.Decimal

open Float.Model Float.Model.UnpackedFloat

/-! ## Fields of bits -/

theorem toNat_unpackExponent (x : Float) :
    (@unpackExponent Format.binary64 x.toBits.toBitVec).toNat =
      x.toBits.toNat / 2 ^ 52 % 2 ^ 11 := by
  rw [unpackExponent_def, BitVec.extractLsb'_toNat, UInt64.toNat_toBitVec,
    Nat.shiftRight_eq_div_pow]

theorem toNat_unpackMantissa (x : Float) :
    (@unpackMantissa Format.binary64 x.toBits.toBitVec).toNat = x.toBits.toNat % 2 ^ 52 := by
  rw [unpackMantissa_def, BitVec.extractLsb'_toNat, UInt64.toNat_toBitVec, Nat.shiftRight_zero]

theorem toNat_unpackSign (x : Float) :
    (@unpackSign Format.binary64 x.toBits.toBitVec).toNat = x.toBits.toNat / 2 ^ 63 := by
  have hlt : x.toBits.toNat < 2 ^ 64 := x.toBits.toNat_lt
  rw [unpackSign_def, BitVec.extractLsb'_toNat, UInt64.toNat_toBitVec, Nat.shiftRight_eq_div_pow]
  exact Nat.mod_eq_of_lt (Nat.div_lt_of_lt_mul hlt)

/-- The first digit of a normal mantissa is not among the bits. -/
theorem toNat_implicit (fraction : BitVec 52) :
    (1#1 ++ fraction).toNat = fraction.toNat + 2 ^ 52 := by
  rw [BitVec.toNat_append, ← Nat.shiftLeft_add_eq_or_of_lt fraction.isLt, Nat.add_comm]
  rfl

namespace Binary

/-- The sign of a binary fraction. -/
def sign (b : Binary) : Sign :=
  if b.negative then .negative else .positive

/-- A binary fraction as arithmetic on doubles has it. -/
def unpacked (b : Binary) : UnpackedFloat :=
  if h : 0 < b.mantissa then .finite b.sign b.mantissa b.exponent h else .zero b.sign

end Binary

theorem ofBitVec_unpackSign (x : Float) :
    Sign.ofBitVec (@unpackSign Format.binary64 x.toBits.toBitVec) =
      if x.toBits.toNat / 2 ^ 63 == 1 then .negative else .positive := by
  have hvalue := toNat_unpackSign x
  have hlt : x.toBits.toNat / 2 ^ 63 < 2 := Nat.div_lt_of_lt_mul x.toBits.toNat_lt
  generalize @unpackSign Format.binary64 x.toBits.toBitVec = field at hvalue
  rw [← hvalue] at hlt ⊢
  obtain rfl | rfl : field = 0#1 ∨ field = 1#1 := by
    rw [← BitVec.toNat_inj, ← BitVec.toNat_inj]
    exact Nat.le_one_iff_eq_zero_or_eq_one.1 (Nat.le_of_lt_succ hlt)
  · rfl
  · rfl

/-- Both ways to take a finite double apart agree. -/
theorem unpack_of_ofFloat? {x : Float} {b : Binary} (h : Binary.ofFloat? x = some b) :
    x.toModel.unpack = b.unpacked := by
  have hunpack : x.toModel.unpack =
      UnpackedFloat.unpack Format.binary64 x.toBits.toBitVec := rfl
  have himplicit := toNat_implicit (@unpackMantissa Format.binary64 x.toBits.toBitVec)
  unfold Binary.ofFloat? at h
  dsimp only [Nat.pow_eq] at h
  rw [← toNat_unpackExponent x, ← toNat_unpackMantissa x] at h
  rw [hunpack, UnpackedFloat.unpack.eq_def]
  dsimp only
  rw [ofBitVec_unpackSign x]
  unfold Binary.unpacked Binary.sign
  split at h
  · cases h
  · rename_i hfinite
    rw [if_neg fun hinfinite => hfinite (congrArg BitVec.toNat hinfinite)]
    split at h
    · rename_i hleast
      rw [if_pos (BitVec.eq_of_toNat_eq hleast)]
      obtain rfl := Option.some.inj h
      split
      · rename_i hzero
        rw [dif_neg (by rw [hzero]; exact Nat.lt_irrefl 0)]
      · rename_i hpos
        have hne : (@unpackMantissa Format.binary64 x.toBits.toBitVec).toNat ≠ 0 :=
          fun hzero => hpos (BitVec.eq_of_toNat_eq hzero)
        rw [dif_pos (Nat.pos_of_ne_zero hne)]
        congr 1
        rw [hleast]
        rfl
    · rename_i hleast
      rw [if_neg fun hzero => hleast (congrArg BitVec.toNat hzero)]
      obtain rfl := Option.some.inj h
      rw [dif_pos (by positivity)]
      have hbias : (Format.binary64.exponentBias : Int) = 1023 := rfl
      congr 1
      rw [hbias, Binary.leastExponent]
      dsimp only
      omega

/-- Doubles that are no fractions are infinite or not a number. -/
theorem isFinite_eq (x : Float) : x.isFinite = (Binary.ofFloat? x).isSome := by
  have hfinite : x.isFinite = x.toModel.unpack.isFinite := rfl
  rw [hfinite]
  cases h : Binary.ofFloat? x with
  | some b =>
    rw [unpack_of_ofFloat? h, Binary.unpacked]
    split <;> rfl
  | none =>
    have hunpack : x.toModel.unpack =
        UnpackedFloat.unpack Format.binary64 x.toBits.toBitVec := rfl
    unfold Binary.ofFloat? at h
    dsimp only [Nat.pow_eq] at h
    rw [← toNat_unpackExponent x] at h
    split at h
    · rename_i hinfinite
      rw [hunpack, UnpackedFloat.unpack.eq_def]
      dsimp only
      rw [if_pos (BitVec.eq_of_toNat_eq hinfinite)]
      split <;> rfl
    · split at h <;> cases h

theorem eq_of_unpack_eq {x y : Float} (h : x.toModel.unpack = y.toModel.unpack) : x = y := by
  have hbits : x.toModel.toBits.toBitVec = y.toModel.toBits.toBitVec :=
    (unpack_inj_of_valid x.toModel.valid y.toModel.valid (by decide)).1 h
  exact Float.toBits_inj.1 (UInt64.toBitVec_inj.1 hbits)

theorem eq_neg_of_unpack_eq {x y : Float} (h : x.toModel.unpack = y.toModel.unpack.neg) :
    x = -y := by
  have hbits : (-y).toModel.toBits.toBitVec = x.toModel.toBits.toBitVec := by
    have hneg : (-y).toModel.toBits.toBitVec =
        UnpackedFloat.pack Format.binary64 y.toModel.unpack.neg := rfl
    rw [hneg, ← h]
    exact pack_unpack_of_valid x.toModel.valid (by decide)
  exact (Float.toBits_inj.1 (UInt64.toBitVec_inj.1 hbits)).symm

theorem eq_of_ofFloat? {x y : Float} {b : Binary} (hx : Binary.ofFloat? x = some b)
    (hy : Binary.ofFloat? y = some b) : x = y :=
  eq_of_unpack_eq ((unpack_of_ofFloat? hx).trans (unpack_of_ofFloat? hy).symm)

theorem unpacked_neg (negative : Bool) (mantissa : Nat) (exponent : Int) :
    (Binary.mk (!negative) mantissa exponent).unpacked =
      (Binary.mk negative mantissa exponent).unpacked.neg := by
  unfold Binary.unpacked Binary.sign
  dsimp only
  split <;> cases negative <;> rfl

/-- Only the fractions of zero have no mantissa. -/
theorem beq_zero_iff {x : Float} {b : Binary} (h : Binary.ofFloat? x = some b) :
    (x == 0) = true ↔ b.mantissa = 0 := by
  have hbeq : (x == 0) = x.toModel.unpack.beq (.zero .positive) := rfl
  rw [hbeq, unpack_of_ofFloat? h, Binary.unpacked]
  split
  · rename_i hpos
    generalize b.sign = sign
    have hne : b.mantissa ≠ 0 := hpos.ne'
    cases sign <;> simp [UnpackedFloat.beq, UnpackedFloat.compare, hne]
  · rename_i hzero
    simpa [UnpackedFloat.beq, UnpackedFloat.compare] using hzero

/-- A mantissa of less than 53 bits belongs to the least exponent. -/
theorem le_mantissa_of_ofFloat? {x : Float} {b : Binary} (h : Binary.ofFloat? x = some b) :
    b.mantissa < 2 ^ 53 ∧ (2 ^ 52 ≤ b.mantissa ∨ b.exponent = Binary.leastExponent) := by
  unfold Binary.ofFloat? at h
  dsimp only [Nat.pow_eq] at h
  split at h
  · cases h
  · split at h <;> obtain rfl := Option.some.inj h
    · exact ⟨by dsimp only; omega, .inr rfl⟩
    · exact ⟨by dsimp only; omega, .inl (Nat.le_add_left _ _)⟩

/-! ## Integers -/

/-- What a mantissa of 53 bits counts is known from the number. -/
theorem log2_of_mul_two_pow {n shift : Nat} (hlow : 2 ^ 52 ≤ n * 2 ^ shift)
    (hhigh : n * 2 ^ shift < 2 ^ 53) : n.log2 + shift = 52 := by
  have hpos : n ≠ 0 := by
    rintro rfl
    simp at hlow
  have hself : 2 ^ (n.log2 + shift) ≤ n * 2 ^ shift := by
    rw [Nat.pow_add]
    exact Nat.mul_le_mul_right _ (Nat.log2_self_le hpos)
  have hnext : n * 2 ^ shift < 2 ^ (n.log2 + shift + 1) := by
    rw [Nat.add_right_comm, Nat.pow_add]
    exact Nat.mul_lt_mul_of_pos_right Nat.lt_log2_self (Nat.two_pow_pos _)
  have hle : n.log2 + shift < 53 :=
    (Nat.pow_lt_pow_iff_right (by decide)).1 (hself.trans_lt hhigh)
  have hge : 52 < n.log2 + shift + 1 :=
    (Nat.pow_lt_pow_iff_right (by decide)).1 (hlow.trans_lt hnext)
  omega

/-- An integer has the sign of the fraction, and its magnitude is the mantissa in units. -/
theorem toInt?_eq_some {b : Binary} {i : Int} (h : b.toInt? = some i) :
    i = (if b.negative then -(i.natAbs : Int) else i.natAbs) ∧
      (0 ≤ b.exponent ∧ i.natAbs = b.mantissa * 2 ^ b.exponent.toNat ∨
        b.exponent < 0 ∧ b.mantissa = i.natAbs * 2 ^ (-b.exponent).toNat) := by
  have hsigned (n : Nat) : (if b.negative then -(n : Int) else n).natAbs = n := by
    split <;> omega
  unfold Binary.toInt? at h
  dsimp only [Nat.pow_eq] at h
  by_cases hwhole : 0 ≤ b.exponent
  · rw [if_pos hwhole] at h
    obtain rfl := Option.some.inj h
    rw [hsigned]
    exact ⟨rfl, .inl ⟨hwhole, rfl⟩⟩
  · rw [if_neg hwhole] at h
    by_cases hmod : b.mantissa % 2 ^ (-b.exponent).toNat = 0
    · rw [if_pos hmod] at h
      obtain rfl := Option.some.inj h
      rw [hsigned]
      refine ⟨rfl, .inr ⟨by omega, ?_⟩⟩
      rw [Nat.div_mul_cancel (Nat.dvd_of_mod_eq_zero hmod)]
    · rw [if_neg hmod] at h
      cases h

/-- A double that is an integer below `2 ^ 53` other than zero has the parts of that
integer. -/
theorem eq_ofWhole_of_toInt? {x : Float} {b : Binary} {i : Int}
    (h : Binary.ofFloat? x = some b) (hint : b.toInt? = some i) (hlt : i.natAbs < 2 ^ 53)
    (hne : i ≠ 0) :
    b = { Binary.ofWhole i.natAbs with negative := b.negative } := by
  obtain ⟨hupper, hlower⟩ := le_mantissa_of_ofFloat? h
  obtain ⟨-, hparts⟩ := toInt?_eq_some hint
  obtain ⟨shift, hmantissa, hexponent, hlow⟩ : ∃ shift : Nat, b.mantissa = i.natAbs * 2 ^ shift ∧
      b.exponent = -shift ∧ 2 ^ 52 ≤ b.mantissa := by
    have hleast : Binary.leastExponent = -1074 := rfl
    rcases hparts with ⟨hwhole, habs⟩ | ⟨hfraction, hmantissa⟩
    · have hlow : 2 ^ 52 ≤ b.mantissa := by omega
      have hzero : b.exponent.toNat = 0 := by
        by_contra hpos
        have htwo : 2 ^ 1 ≤ 2 ^ b.exponent.toNat := Nat.pow_le_pow_right (by decide) (by omega)
        have hdouble := Nat.mul_le_mul hlow htwo
        omega
      rw [hzero, Nat.pow_zero, Nat.mul_one] at habs
      exact ⟨0, by omega, by omega, hlow⟩
    · refine ⟨(-b.exponent).toNat, hmantissa, by omega, ?_⟩
      rcases hlower with hlow | hexponent
      · exact hlow
      · have hunit : 2 ^ 53 ≤ 2 ^ (-b.exponent).toNat :=
          Nat.pow_le_pow_right (by decide) (by omega)
        have hmul := Nat.mul_le_mul (show 1 ≤ i.natAbs by omega) hunit
        omega
  rw [hmantissa] at hlow hupper
  have hlog := log2_of_mul_two_pow hlow hupper
  obtain ⟨negative, mantissa, exponent⟩ := b
  dsimp only at hmantissa hexponent ⊢
  rw [Binary.ofWhole, hmantissa, hexponent, ← hlog, Nat.add_sub_cancel_left]
  congr 1
  dsimp only
  omega

/-- An integer below `2 ^ 53` other than zero is one double only. -/
theorem eq_ofInt_of_toInt? {x : Float} {b : Binary} {i : Int}
    (h : Binary.ofFloat? x = some b) (hint : b.toInt? = some i) (hlt : i.natAbs < exactLimit)
    (hne : i ≠ 0) : x = ofInt i := by
  have hparts := eq_ofWhole_of_toInt? h hint hlt hne
  obtain ⟨hsign, -⟩ := toInt?_eq_some hint
  have hnat := ofFloat?_ofNat hlt (Int.natAbs_ne_zero.2 hne)
  unfold ofInt
  split
  · rename_i hneg
    have hnegative : b.negative = true := by
      by_contra hpos
      rw [if_neg hpos] at hsign
      omega
    apply eq_neg_of_unpack_eq
    rw [unpack_of_ofFloat? h, unpack_of_ofFloat? hnat, hparts, hnegative]
    exact unpacked_neg false _ _
  · rename_i hnonneg
    have hnegative : b.negative = false := by
      by_contra hpos
      rw [if_pos (by simpa using hpos)] at hsign
      omega
    rw [hparts, hnegative] at h
    exact eq_of_ofFloat? h hnat

theorem isFinite_ofNat {n : Nat} (h : n < exactLimit) : (ofNat n).isFinite = true := by
  rw [isFinite_eq]
  by_cases hpos : n = 0
  · subst hpos
    decide +kernel
  · rw [ofFloat?_ofNat h hpos]
    rfl

end DataExpr.Decimal
