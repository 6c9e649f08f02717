import Mathlib.Algebra.Order.Field.Power
import Mathlib.Algebra.Order.Field.Rat
import Mathlib.Data.Rat.Cast.Order
import RecordQuery.Number.Decimal

namespace RecordQuery.Decimal

/-!
# The order of decimals

Decimals are in the order of the rational numbers that they write, however
many zeros there are at their ends.
-/

/-- The number that a decimal writes, without its sign. -/
def magnitude (d : Decimal) : ℚ := d.coefficient * 10 ^ d.exponent

/-- The number that a decimal writes. -/
def toRat (d : Decimal) : ℚ := if d.negative then -d.magnitude else d.magnitude

theorem power_pos (e : Int) : (0 : ℚ) < 10 ^ e := zpow_pos (by norm_num) e

theorem magnitude_pos {d : Decimal} (h : d.coefficient ≠ 0) : 0 < d.magnitude :=
  mul_pos (Nat.cast_pos.mpr (Nat.pos_of_ne_zero h)) (power_pos d.exponent)

theorem magnitude_eq_zero {d : Decimal} (h : d.coefficient = 0) : d.magnitude = 0 := by
  simp [magnitude, h]

/-! ## Leading digits -/

theorem digitCount_pos (n : Nat) : 0 < digitCount n := by
  rw [digitCount, List.length_pos_iff]
  exact Nat.toDigits_ne_nil

theorem lt_power_digitCount (n : Nat) : n < 10 ^ digitCount n :=
  (Nat.length_toDigits_le_iff (by decide) (digitCount_pos n)).mp (Nat.le_refl _)

theorem power_digitCount_le {n : Nat} (h : n ≠ 0) : 10 ^ (digitCount n - 1) ≤ n := by
  rcases Nat.eq_zero_or_pos (digitCount n - 1) with hzero | hpos
  · rw [hzero, Nat.pow_zero]
    exact Nat.pos_of_ne_zero h
  · by_contra hlt
    have hle : digitCount n ≤ digitCount n - 1 :=
      (Nat.length_toDigits_le_iff (by decide) hpos).mpr (Nat.lt_of_not_le hlt)
    omega

theorem magnitude_lt (d : Decimal) : d.magnitude < 10 ^ (d.adjusted + 1) := by
  have hexponent : d.adjusted + 1 = (digitCount d.coefficient : Int) + d.exponent := by
    rw [adjusted]
    omega
  have hlt : (d.coefficient : ℚ) < 10 ^ digitCount d.coefficient := by
    exact_mod_cast lt_power_digitCount d.coefficient
  rw [hexponent, zpow_add₀ (by norm_num), zpow_natCast, magnitude]
  exact mul_lt_mul_of_pos_right hlt (power_pos d.exponent)

theorem power_adjusted_le {d : Decimal} (h : d.coefficient ≠ 0) :
    (10 : ℚ) ^ d.adjusted ≤ d.magnitude := by
  have hpos := digitCount_pos d.coefficient
  have hexponent : d.adjusted = ((digitCount d.coefficient - 1 : Nat) : Int) + d.exponent := by
    rw [adjusted]
    omega
  have hle : (10 : ℚ) ^ (digitCount d.coefficient - 1) ≤ d.coefficient := by
    exact_mod_cast power_digitCount_le h
  rw [hexponent, zpow_add₀ (by norm_num), zpow_natCast, magnitude]
  exact mul_le_mul_of_nonneg_right hle (power_pos d.exponent).le

/-- Of two numbers, the one whose leading digit stands higher is the greater one. -/
theorem magnitude_lt_of_adjusted_lt {a b : Decimal} (hb : b.coefficient ≠ 0)
    (h : a.adjusted < b.adjusted) : a.magnitude < b.magnitude :=
  calc a.magnitude
      < 10 ^ (a.adjusted + 1) := magnitude_lt a
    _ ≤ 10 ^ b.adjusted := zpow_le_zpow_right₀ (by norm_num) h
    _ ≤ b.magnitude := power_adjusted_le hb

/-! ## Comparison -/

theorem compare_natCast_mul {p : ℚ} (hp : 0 < p) (m n : Nat) :
    compare ((m : ℚ) * p) (n * p) = compare m n := by
  rw [← cmp_eq_compare, ← cmp_eq_compare, cmp_mul_pos_right hp]
  exact Nat.strictMono_cast.cmp_map_eq m n

theorem magnitude_eq_scaled {d : Decimal} {e : Int} (h : e ≤ d.exponent) :
    d.magnitude = ((d.coefficient * 10 ^ (d.exponent - e).toNat : Nat) : ℚ) * 10 ^ e := by
  have hexponent : d.exponent = ((d.exponent - e).toNat : Int) + e := by omega
  rw [magnitude, hexponent, zpow_add₀ (by norm_num), zpow_natCast, Int.add_sub_cancel,
    Int.toNat_natCast]
  rw [Nat.cast_mul, Nat.cast_pow, mul_assoc]
  rfl

theorem compare_scaled (a b : Decimal) :
    (if b.exponent ≤ a.exponent then
      compare (a.coefficient * 10 ^ (a.exponent - b.exponent).toNat) b.coefficient
    else
      compare a.coefficient (b.coefficient * 10 ^ (b.exponent - a.exponent).toNat)) =
      compare a.magnitude b.magnitude := by
  split
  · next h => rw [magnitude_eq_scaled h, magnitude, compare_natCast_mul (power_pos b.exponent)]
  · next h =>
      rw [magnitude_eq_scaled (d := b) (e := a.exponent) (by omega), magnitude,
        compare_natCast_mul (power_pos a.exponent)]

theorem compareMagnitude_eq {a b : Decimal} (ha : a.coefficient ≠ 0) (hb : b.coefficient ≠ 0) :
    compareMagnitude a b = compare a.magnitude b.magnitude := by
  rw [compareMagnitude, compare_scaled]
  rcases Int.lt_trichotomy a.adjusted b.adjusted with hlt | heq | hgt
  · rw [compare_lt_iff_lt.mpr hlt, Ordering.lt_then,
      compare_lt_iff_lt.mpr (magnitude_lt_of_adjusted_lt hb hlt)]
  · rw [compare_eq_iff_eq.mpr heq, Ordering.eq_then]
  · rw [compare_gt_iff_gt.mpr hgt, Ordering.gt_then,
      compare_gt_iff_gt.mpr (magnitude_lt_of_adjusted_lt ha hgt)]

theorem compare_neg (x y : ℚ) : compare (-x) (-y) = compare y x := by
  rcases lt_trichotomy x y with hlt | rfl | hgt
  · rw [compare_gt_iff_gt.mpr (neg_lt_neg hlt), compare_gt_iff_gt.mpr hlt]
  · rw [compare_eq_iff_eq.mpr rfl, compare_eq_iff_eq.mpr rfl]
  · rw [compare_lt_iff_lt.mpr (neg_lt_neg hgt), compare_lt_iff_lt.mpr hgt]

theorem toRat_of_coefficient {d : Decimal} (h : d.coefficient = 0) : d.toRat = 0 := by
  simp [toRat, magnitude_eq_zero h]

theorem toRat_of_negative {d : Decimal} (h : d.negative = true) : d.toRat = -d.magnitude := by
  simp [toRat, h]

theorem toRat_of_positive {d : Decimal} (h : d.negative = false) : d.toRat = d.magnitude := by
  simp [toRat, h]

/-- The order of a zero and another number is that of the other number's sign. -/
theorem compare_zero_toRat {d : Decimal} (h : d.coefficient ≠ 0) :
    compare 0 d.toRat = if d.negative then .gt else .lt := by
  have hpos := magnitude_pos h
  cases hsign : d.negative with
  | true =>
      rw [toRat_of_negative hsign, if_pos rfl]
      exact compare_gt_iff_gt.mpr (neg_neg_of_pos hpos)
  | false =>
      rw [toRat_of_positive hsign, if_neg Bool.false_ne_true]
      exact compare_lt_iff_lt.mpr hpos

theorem compare_toRat_zero {d : Decimal} (h : d.coefficient ≠ 0) :
    compare d.toRat 0 = if d.negative then .lt else .gt := by
  have hswap : compare d.toRat 0 = (compare 0 d.toRat).swap := Std.OrientedCmp.eq_swap
  rw [hswap, compare_zero_toRat h]
  cases d.negative <;> rfl

/-- Decimals are in the order of what they are worth. -/
theorem order_eq_compare (a b : Decimal) : order a b = compare a.toRat b.toRat := by
  unfold order
  split
  · next ha hb =>
      rw [toRat_of_coefficient (beq_iff_eq.mp ha), toRat_of_coefficient (beq_iff_eq.mp hb)]
      exact (compare_eq_iff_eq.mpr rfl).symm
  · next ha hb =>
      rw [toRat_of_coefficient (beq_iff_eq.mp ha), compare_zero_toRat (beq_eq_false_iff_ne.mp hb)]
  · next ha hb =>
      rw [toRat_of_coefficient (beq_iff_eq.mp hb), compare_toRat_zero (beq_eq_false_iff_ne.mp ha)]
  · next ha hb =>
      have ha' := beq_eq_false_iff_ne.mp ha
      have hb' := beq_eq_false_iff_ne.mp hb
      have hpos := magnitude_pos ha'
      have hpos' := magnitude_pos hb'
      split
      · next hsign hsign' =>
          rw [toRat_of_negative hsign, toRat_of_positive hsign']
          exact (compare_lt_iff_lt.mpr ((neg_neg_of_pos hpos).trans hpos')).symm
      · next hsign hsign' =>
          rw [toRat_of_positive hsign, toRat_of_negative hsign']
          exact (compare_gt_iff_gt.mpr ((neg_neg_of_pos hpos').trans hpos)).symm
      · next hsign hsign' =>
          rw [toRat_of_positive hsign, toRat_of_positive hsign', compareMagnitude_eq ha' hb']
      · next hsign hsign' =>
          rw [toRat_of_negative hsign, toRat_of_negative hsign', compare_neg,
            compareMagnitude_eq hb' ha']

end RecordQuery.Decimal
