import DataExpr.Decimal.Numeral
import DataExpr.Proofs.Decimal.Binary
import DataExpr.Value.Display

/-!
# Natural numbers as texts

A natural number below `2 ^ 53` is shown as its decimal digits (`formatNumber_ofNat`).

The reals that round to the number's double reach less than `1 / 2` away from it, so it is
the only integer among them.  The grids of whole multiples of powers of ten are tried
before any finer ones, and the first that has a point there has the number itself.  What
is cut off at the end of its digits are zeros, and the layout puts them back.
-/

namespace DataExpr

namespace Decimal

/-! ## Zeros at the end -/

theorem toDigits_mul_pow {n : Nat} (h : 0 < n) (zeros : Nat) :
    Nat.toDigits 10 (n * 10 ^ zeros) = Nat.toDigits 10 n ++ List.replicate zeros '0' := by
  induction zeros with
  | zero => rw [Nat.pow_zero, Nat.mul_one, List.replicate_zero, List.append_nil]
  | succ zeros ih =>
    have hstep := @Nat.toDigits_append_toDigits 10 (n * 10 ^ zeros) 0 (by decide)
      (Nat.mul_pos h (Nat.pow_pos (by decide))) (by decide)
    have hnumber : n * 10 ^ (zeros + 1) = 10 * (n * 10 ^ zeros) + 0 := by
      rw [Nat.pow_succ]
      ring
    rw [hnumber, ← hstep, ih, Nat.toDigits_zero, List.replicate_succ', List.append_assoc]

/-- What is cut off at the end of digits are zeros. -/
theorem exists_zeros (digits : List Char) :
    ∃ zeros, digits =
      (digits.reverse.dropWhile (· = '0')).reverse ++ List.replicate zeros '0' := by
  refine ⟨(digits.reverse.takeWhile (· = '0')).length, ?_⟩
  have hzeros : digits.reverse.takeWhile (· = '0') =
      List.replicate (digits.reverse.takeWhile (· = '0')).length '0' := by
    refine List.eq_replicate_of_mem fun c hc => ?_
    simpa using List.mem_takeWhile_imp hc
  calc digits = (digits.reverse.takeWhile (· = '0') ++
        digits.reverse.dropWhile (· = '0')).reverse := by
        rw [List.takeWhile_append_dropWhile, List.reverse_reverse]
    _ = (digits.reverse.dropWhile (· = '0')).reverse ++
        List.replicate (digits.reverse.takeWhile (· = '0')).length '0' := by
        rw [List.reverse_append, hzeros, List.reverse_replicate, List.length_replicate]

/-- The layout puts back the zeros of a whole number. -/
theorem positional_whole {layout : Layout} (h : layout.pointAlways = false)
    {digits : List Char} (hdigits : digits ≠ []) (zeros : Nat) :
    layout.positional
        ⟨(digits.reverse.dropWhile (· = '0')).reverse, ((zeros + digits.length : Nat) : Int)⟩ =
      digits ++ List.replicate zeros '0' := by
  obtain ⟨cut, hcut⟩ := exists_zeros digits
  generalize (digits.reverse.dropWhile (· = '0')).reverse = kept at hcut ⊢
  have hlength : digits.length = kept.length + cut := by
    rw [hcut, List.length_append, List.length_replicate]
  have hpos : 0 < digits.length := List.length_pos_iff.2 hdigits
  have hmissing : ((zeros + digits.length : Nat) : Int).toNat - kept.length = cut + zeros := by
    omega
  unfold Layout.positional
  dsimp only
  rw [if_neg (by omega), if_neg (by omega), hmissing, h, if_neg (by decide), List.append_nil,
    List.replicate_add, ← List.append_assoc, ← hcut]

namespace Shortest

/-! ## The reals around a natural number -/

/-- The interval is that of a number and reaches at most `1 / 2` to either side. -/
structure Interval.IsAround (i : Interval) (n : Nat) : Prop where
  middle : i.middle = n * i.denominator
  low_lt : i.low < i.middle
  le_low : i.middle ≤ i.low + 2
  lt_high : i.middle < i.high
  high_le : i.high ≤ i.middle + 2
  four_le : 4 ≤ i.denominator

theorem isAround_interval {n : Nat} (h : n < 2 ^ 53) (hpos : n ≠ 0) :
    (interval (Binary.ofWhole n)).IsAround n := by
  have hlog := Binary.log2_le h hpos
  have hunit : Nat.pow 2 ((n.log2 : Int) - 52 - 2).toNat = 1 := by
    rw [show ((n.log2 : Int) - 52 - 2).toNat = 0 by omega, Nat.pow_eq, Nat.pow_zero]
  have hdenominator : Nat.pow 2 (-((n.log2 : Int) - 52 - 2)).toNat =
      4 * 2 ^ (52 - n.log2) := by
    rw [show (-((n.log2 : Int) - 52 - 2)).toNat = 2 + (52 - n.log2) by omega]
    exact Nat.pow_add 2 2 _
  have hone : 1 ≤ 2 ^ (52 - n.log2) := Nat.two_pow_pos _
  have hmantissa : 0 < n * 2 ^ (52 - n.log2) := Nat.mul_pos (by omega) hone
  have hmiddle : 4 * (n * 2 ^ (52 - n.log2)) = n * (4 * 2 ^ (52 - n.log2)) :=
    Nat.mul_left_comm _ _ _
  unfold interval Binary.ofWhole
  dsimp only
  rw [hunit, hdenominator, Nat.mul_one, Nat.mul_one, Nat.mul_one]
  constructor <;> dsimp only
  · exact hmiddle
  · split <;> omega
  · split <;> omega
  · omega
  · omega
  · omega

theorem Interval.IsAround.holds_mul_iff {i : Interval} {n : Nat} (h : i.IsAround n) (k : Nat) :
    i.holds (k * i.denominator) = true ↔ k = n := by
  obtain ⟨hmiddle, hlow_lt, hle_low, hlt_high, hhigh_le, hfour⟩ := h
  constructor
  · intro hholds
    have hclosed : i.low ≤ k * i.denominator ∧ k * i.denominator ≤ i.high := by
      unfold Interval.holds at hholds
      split at hholds
      · simpa using hholds
      · simp only [decide_eq_true_eq] at hholds
        omega
    rcases Nat.lt_trichotomy k n with hlt | heq | hgt
    · have hstep : (k + 1) * i.denominator ≤ n * i.denominator := Nat.mul_le_mul_right _ hlt
      rw [Nat.add_mul] at hstep
      omega
    · exact heq
    · have hstep : (n + 1) * i.denominator ≤ k * i.denominator := Nat.mul_le_mul_right _ hgt
      rw [Nat.add_mul] at hstep
      omega
  · rintro rfl
    unfold Interval.holds
    split <;> simp only [decide_eq_true_eq] <;> omega

/-- Whole multiples of a power of ten change the denominator only. -/
theorem Interval.inUnits_whole (i : Interval) (power : Nat) :
    i.inUnits power = { i with denominator := i.denominator * 10 ^ power } := by
  have hup : Nat.pow 10 (-(power : Int)).toNat = 1 := by
    rw [show (-(power : Int)).toNat = 0 by omega, Nat.pow_eq, Nat.pow_zero]
  unfold inUnits
  dsimp only
  rw [hup, Nat.mul_one, Nat.mul_one, Nat.mul_one]
  rfl

/-- On a grid of whole multiples the number is found if it lies on the grid. -/
theorem Interval.IsAround.onGrid?_eq {i : Interval} {n : Nat} (h : i.IsAround n) (tie : Tie)
    (power : Nat) :
    onGrid? tie i power = if 10 ^ power ∣ n then some (n / 10 ^ power) else none := by
  have hpow : 0 < 10 ^ power := Nat.pow_pos (by decide)
  have hholds (k : Nat) : ({ i with denominator := i.denominator * 10 ^ power } : Interval).holds
      (k * (i.denominator * 10 ^ power)) = true ↔ k * 10 ^ power = n := by
    rw [← h.holds_mul_iff, Nat.mul_comm i.denominator, ← Nat.mul_assoc]
    rfl
  have hbelow : i.middle / (i.denominator * 10 ^ power) = n / 10 ^ power := by
    rw [h.middle, Nat.mul_comm n]
    exact Nat.mul_div_mul_left _ _ (by have := h.four_le; omega)
  have habove : (n / 10 ^ power + 1) * 10 ^ power ≠ n :=
    (Nat.lt_mul_of_div_lt (Nat.lt_succ_self _) hpow).ne'
  unfold onGrid?
  rw [Interval.inUnits_whole]
  dsimp only
  rw [hbelow, Bool.eq_false_iff.2 (mt (hholds _).1 habove)]
  by_cases hdvd : 10 ^ power ∣ n
  · rw [if_pos hdvd, (hholds _).2 (Nat.div_mul_cancel hdvd)]
  · have hnot : n / 10 ^ power * 10 ^ power ≠ n := fun heq => hdvd (Dvd.intro_left _ heq)
    rw [if_neg hdvd, Bool.eq_false_iff.2 (mt (hholds _).1 hnot)]

theorem Interval.IsAround.exists_search {i : Interval} {n : Nat} (h : i.IsAround n) (tie : Tie)
    {point fuel count : Nat} (hcount : count ≤ point) (hfuel : point < fuel + count) :
    ∃ power : Nat, search tie i point fuel count = some (n / 10 ^ power, (power : Int)) ∧
      10 ^ power ∣ n := by
  induction fuel generalizing count with
  | zero => omega
  | succ fuel ih =>
    have hpower : (point : Int) - count = ((point - count : Nat) : Int) := by omega
    rw [search, hpower, h.onGrid?_eq]
    by_cases hdvd : 10 ^ (point - count) ∣ n
    · rw [if_pos hdvd]
      exact ⟨point - count, rfl, hdvd⟩
    · rw [if_neg hdvd]
      have hne : count ≠ point := by
        rintro rfl
        simp at hdvd
      exact ih (by omega) (by omega)

/-- The place of the point is known well enough for the grid of units to be tried. -/
theorem exists_point {n : Nat} (h : n < 2 ^ 53) (hpos : n ≠ 0) :
    ∃ place : Nat, point (Binary.ofWhole n) (interval (Binary.ofWhole n)) = place ∧
      1 ≤ place ∧ place ≤ mostDigits := by
  have hlog := Binary.log2_le h hpos
  have hnormal := Binary.isNormal_ofWhole h hpos
  have hmantissa : (Binary.ofWhole n).mantissa.log2 = 52 :=
    (Nat.log2_eq_iff (by have := hnormal.le_mantissa; omega)).2
      ⟨hnormal.le_mantissa, hnormal.mantissa_lt⟩
  have hexponent : (Binary.ofWhole n).exponent = (n.log2 : Int) - 52 := rfl
  have hsum : (((Binary.ofWhole n).mantissa.log2 : Int) + (Binary.ofWhole n).exponent) * 30103 /
      100000 + 1 = ((n.log2 * 30103 / 100000 + 1 : Nat) : Int) := by
    rw [hmantissa, hexponent]
    omega
  have hbound : n.log2 * 30103 / 100000 + 1 ≤ 16 := by omega
  unfold point mostDigits
  dsimp only
  rw [hsum]
  split
  · exact ⟨_, rfl, by omega, by omega⟩
  · exact ⟨n.log2 * 30103 / 100000 + 1 + 1, by push_cast; rfl, by omega, by omega⟩

end Shortest

/-- The shortest digits of a natural number are its own, up to zeros at the end. -/
theorem exists_shortestDigits {n : Nat} (h : n < 2 ^ 53) (hpos : n ≠ 0) (tie : Tie) :
    ∃ power, 10 ^ power ∣ n ∧
      shortestDigits tie (Binary.ofWhole n) =
        ⟨((Nat.toDigits 10 (n / 10 ^ power)).reverse.dropWhile (· = '0')).reverse,
          ((power + (Nat.toDigits 10 (n / 10 ^ power)).length : Nat) : Int)⟩ := by
  obtain ⟨place, hplace, hone, hmost⟩ := Shortest.exists_point h hpos
  obtain ⟨power, hsearch, hdvd⟩ :=
    (Shortest.isAround_interval h hpos).exists_search tie hone
      (show place < Shortest.mostDigits + 1 by omega)
  have hsearch' : Shortest.search tie (Shortest.interval (Binary.ofWhole n)) (place : Int)
      Shortest.mostDigits 1 = some (n / 10 ^ power, (power : Int)) := hsearch
  refine ⟨power, hdvd, ?_⟩
  unfold shortestDigits
  dsimp only
  rw [hplace, hsearch']
  rfl

theorem numberLayout_write_ofWhole {n : Nat} (h : n < 2 ^ 53) (hpos : n ≠ 0) :
    numberLayout.write (Binary.ofWhole n) = Nat.repr n := by
  obtain ⟨power, hdvd, hshortest⟩ := exists_shortestDigits h hpos numberLayout.tie
  have hquotient : 0 < n / 10 ^ power :=
    Nat.div_pos (Nat.le_of_dvd (by omega) hdvd) (Nat.pow_pos (by decide))
  have hdigits : Nat.toDigits 10 n =
      Nat.toDigits 10 (n / 10 ^ power) ++ List.replicate power '0' := by
    rw [← toDigits_mul_pow hquotient, Nat.div_mul_cancel hdvd]
  have hlength : (Nat.toDigits 10 n).length ≤ 21 :=
    (Nat.length_toDigits_le_iff (by decide) (by decide)).2 (by omega)
  rw [hdigits, List.length_append, List.length_replicate] at hlength
  have hpositive : 0 < (Nat.toDigits 10 (n / 10 ^ power)).length := Nat.length_toDigits_pos
  -- The exponent of the first digit is one below the number of digits.
  have hpositional :
      numberLayout.leastPositional ≤
          ((power + (Nat.toDigits 10 (n / 10 ^ power)).length : Nat) : Int) - 1 ∧
        ((power + (Nat.toDigits 10 (n / 10 ^ power)).length : Nat) : Int) - 1 ≤
          numberLayout.greatestPositional := by
    unfold numberLayout
    dsimp only
    omega
  rw [Layout.write, hshortest, Layout.writeDigits, if_pos hpositional,
    positional_whole rfl Nat.toDigits_ne_nil, ← hdigits, Nat.repr_eq_ofList_toDigits]
  rfl

/-! ## Reading a number's digits -/

/-- A numeral of decimal digits is all digits. -/
theorem takeWhile_toDigits (n : Nat) :
    (Nat.toDigits 10 n).takeWhile Char.isDigit = Nat.toDigits 10 n :=
  List.takeWhile_eq_self_iff.2 fun _ => Nat.isDigit_of_mem_toDigits (by decide) (by decide)

theorem dropWhile_toDigits (n : Nat) : (Nat.toDigits 10 n).dropWhile Char.isDigit = [] :=
  List.dropWhile_eq_nil_iff.2 fun _ => Nat.isDigit_of_mem_toDigits (by decide) (by decide)

theorem ofChars?_toDigits (n : Nat) :
    Numeral.ofChars? (Nat.toDigits 10 n) = some ⟨Nat.toDigits 10 n, [], 0⟩ := by
  unfold Numeral.ofChars?
  dsimp only
  rw [takeWhile_toDigits, dropWhile_toDigits]
  dsimp only
  rw [if_neg (by simp [Nat.toDigits_ne_nil])]
  rfl

theorem toFloat_toDigits {n : Nat} (h : n < exactLimit) :
    Numeral.toFloat ⟨Nat.toDigits 10 n, [], 0⟩ = ofNat n := by
  have hmantissa : (Numeral.mk (Nat.toDigits 10 n) [] 0).mantissa = n := by
    rw [Numeral.mantissa, List.append_nil]
    exact Nat.ofDigitChars_ten_toDigits
  have hscale : (Numeral.mk (Nat.toDigits 10 n) [] 0).scale = 0 := rfl
  have hlength : (Nat.toDigits 10 n).length ≤ 21 :=
    (Nat.length_toDigits_le_iff (by decide) (by decide)).2 (Nat.lt_trans h (by decide))
  unfold Numeral.toFloat Numeral.widestScale
  dsimp only
  rw [hmantissa, hscale]
  by_cases hpos : n = 0
  · rw [if_pos hpos, hpos]
    decide +kernel
  · rw [if_neg hpos, if_neg (by omega), if_neg (by omega), if_pos rfl]

end Decimal

open Decimal

/-- A natural number below `2 ^ 53` is shown as its decimal digits. -/
theorem formatNumber_ofNat {n : Nat} (h : n < exactLimit) :
    formatNumber (Decimal.ofNat n) = Nat.repr n := by
  by_cases hpos : n = 0
  · subst hpos
    decide +kernel
  · have hmantissa : (Binary.ofWhole n).mantissa ≠ 0 := by
      have := (Binary.isNormal_ofWhole h hpos).le_mantissa
      omega
    rw [formatNumber, ofFloat?_ofNat h hpos]
    dsimp only
    rw [if_neg hmantissa, numberLayout_write_ofWhole h hpos]

end DataExpr
