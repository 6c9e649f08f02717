import Mathlib.Data.Nat.Cast.Order.Field
import Mathlib.Tactic.NormNum
import Mathlib.Tactic.Ring
import RecordQuery.Proofs.Database.Cell
import RecordQuery.Proofs.Number.Decimal
import RecordQuery.Value.Wire

namespace RecordQuery

/-!
# Decimals within the range of binary numbers

A decimal that is far from the greatest binary number is rounded to a finite
one, and so is what a database gives back of it.
-/

theorem roundHalfEven_le (num den : Nat) : roundHalfEven num den ≤ num / den + 1 := by
  unfold roundHalfEven
  dsimp only
  split
  · omega
  · split
    · omega
    · omega

/-- Rounding adds less than two to a quotient. -/
theorem roundHalfEven_cast_le (num den : Nat) :
    (roundHalfEven num den : ℚ) ≤ num / den + 1 := by
  have hle : (roundHalfEven num den : ℚ) ≤ (num / den : Nat) + 1 := by
    exact_mod_cast roundHalfEven_le num den
  exact hle.trans (add_le_add_left Nat.cast_div_le 1)

namespace Binary64

theorem exponentFor_le {num den e : Nat} (hnum : num ≠ 0) (h : num < den * 2 ^ e) :
    exponentFor num den ≤ max ((e : Int) - 52) minExponent := by
  have hden : den < 2 ^ (Nat.log2 den + 1) := Nat.lt_log2_self
  have hlt : num < 2 ^ (Nat.log2 den + 1 + e) := by
    rw [Nat.pow_add]
    exact h.trans (Nat.mul_lt_mul_of_pos_right hden (Nat.two_pow_pos e))
  have hlog : Nat.log2 num < Nat.log2 den + 1 + e := (Nat.log2_lt hnum).mpr hlt
  unfold exponentFor
  dsimp only
  split <;> omega

/-- A scaled quotient is worth no more than the quotient and one unit of its last place. -/
theorem scaled_mul_le {num den : Nat} (q : Int) :
    (scaled num den q : ℚ) * 2 ^ q ≤ num / den + 2 ^ q := by
  have hpos : (0 : ℚ) < 2 ^ q := zpow_pos (by norm_num) q
  have hscaled : (scaled num den q : ℚ) ≤ num / den / 2 ^ q + 1 := by
    unfold scaled
    split
    · next hq =>
        obtain ⟨n, rfl⟩ := Int.eq_ofNat_of_zero_le hq
        refine (roundHalfEven_cast_le _ _).trans (le_of_eq ?_)
        rw [Int.toNat_natCast, Nat.cast_mul, Nat.cast_pow, Nat.cast_ofNat, zpow_natCast, div_div]
    · next hq =>
        obtain ⟨n, rfl⟩ : ∃ n : Nat, q = -n := ⟨(-q).toNat, by omega⟩
        refine (roundHalfEven_cast_le _ _).trans (le_of_eq ?_)
        rw [neg_neg, Int.toNat_natCast, Nat.cast_mul, Nat.cast_pow, Nat.cast_ofNat, zpow_neg,
          zpow_natCast, div_inv_eq_mul, div_mul_eq_mul_div]
  calc (scaled num den q : ℚ) * 2 ^ q
      ≤ (num / den / 2 ^ q + 1) * 2 ^ q := mul_le_mul_of_nonneg_right hscaled hpos.le
    _ = num / den + 2 ^ q := by rw [add_mul, div_mul_cancel₀ _ hpos.ne', one_mul]

/-- A quotient below a power of two is rounded to a finite number, of less than twice its bound. -/
theorem exists_ofQuotient_eq {num den e : Nat} (he : e ≤ 200) (h : num < den * 2 ^ e)
    (negative : Bool) : ∃ m q, ofQuotient negative num den = .finite negative m q ∧
      (m : ℚ) * 2 ^ q ≤ 2 ^ (e + 1) := by
  by_cases hnum : num = 0
  · exact ⟨0, minExponent, by rw [ofQuotient, if_pos hnum], by simp⟩
  have hexponent := exponentFor_le hnum h
  generalize hq : exponentFor num den = q at hexponent
  have hden : (0 : ℚ) < den := by
    have hne : den ≠ 0 := by
      rintro rfl
      omega
    exact_mod_cast Nat.pos_of_ne_zero hne
  have hvalue : (scaled num den q : ℚ) * 2 ^ q ≤ 2 ^ (e + 1) := by
    have hquotient : (num : ℚ) / den ≤ 2 ^ e := by
      rw [div_le_iff₀ hden, mul_comm]
      exact_mod_cast h.le
    have hunit : (2 : ℚ) ^ q ≤ 2 ^ e := by
      rw [← zpow_natCast]
      apply zpow_le_zpow_right₀ (by norm_num)
      rw [minExponent] at hexponent
      omega
    calc (scaled num den q : ℚ) * 2 ^ q
        ≤ num / den + 2 ^ q := scaled_mul_le q
      _ ≤ 2 ^ e + 2 ^ e := add_le_add hquotient hunit
      _ = 2 ^ (e + 1) := by rw [pow_succ, mul_two]
  rw [ofQuotient, if_neg hnum, hq]
  dsimp only
  have hsmall : q + 1 ≤ maxExponent := by
    rw [minExponent] at hexponent
    rw [maxExponent]
    omega
  split
  · next hcarry =>
      refine ⟨2 ^ 52, q + 1, if_neg (Int.not_lt.mpr hsmall), ?_⟩
      rw [hcarry] at hvalue
      refine le_trans (le_of_eq ?_) hvalue
      rw [zpow_add_one₀ (by norm_num)]
      push_cast
      ring
  · exact ⟨_, q, if_neg (by dsimp only; omega), hvalue⟩

/-- A decimal below a power of two is rounded to a finite number, of less than twice its bound. -/
theorem exists_ofDecimal_eq {d : Decimal} {e : Nat} (he : e ≤ 200) (h : d.magnitude < 2 ^ e) :
    ∃ m q, ofDecimal d = .finite d.negative m q ∧ (m : ℚ) * 2 ^ q ≤ 2 ^ (e + 1) := by
  by_cases hzero : d.coefficient = 0
  · exact ⟨0, minExponent, by rw [ofDecimal, if_pos hzero], by simp⟩
  have hadjusted : ¬ 310 < d.adjusted := by
    intro hlt
    have hpower : (10 : ℚ) ^ (100 : Int) < 2 ^ 200 :=
      calc (10 : ℚ) ^ (100 : Int)
          ≤ 10 ^ d.adjusted := zpow_le_zpow_right₀ (by norm_num) (by omega)
        _ ≤ d.magnitude := Decimal.power_adjusted_le hzero
        _ < 2 ^ e := h
        _ ≤ 2 ^ 200 := pow_le_pow_right₀ (by norm_num) he
    exact absurd hpower (by norm_num)
  rw [ofDecimal, if_neg hzero, if_neg hadjusted]
  split
  · exact ⟨0, minExponent, rfl, by simp⟩
  · split
    · next hexponent =>
        obtain ⟨n, hn⟩ := Int.eq_ofNat_of_zero_le hexponent
        refine exists_ofQuotient_eq he ?_ d.negative
        rw [Decimal.magnitude, hn, zpow_natCast] at h
        rw [hn, Int.toNat_natCast, one_mul]
        exact_mod_cast h
    · next hexponent =>
        obtain ⟨n, hn⟩ : ∃ n : Nat, d.exponent = -n := ⟨(-d.exponent).toNat, by omega⟩
        refine exists_ofQuotient_eq he ?_ d.negative
        rw [Decimal.magnitude, hn, zpow_neg, zpow_natCast, ← div_eq_mul_inv,
          div_lt_iff₀ (by positivity), mul_comm] at h
        rw [hn, neg_neg, Int.toNat_natCast]
        exact_mod_cast h

theorem isFinite_ofDecimal {d : Decimal} {e : Nat} (he : e ≤ 200) (h : d.magnitude < 2 ^ e) :
    (ofDecimal d).isFinite = true := by
  obtain ⟨m, q, heq, -⟩ := exists_ofDecimal_eq he h
  rw [heq, isFinite, toDecimal?]
  split <;> rfl

theorem quotient_eq (m : Nat) (q : Int) :
    ((quotient m q).1 : ℚ) / (quotient m q).2 = m * 2 ^ q := by
  unfold quotient
  split
  · next hq =>
      obtain ⟨n, rfl⟩ := Int.eq_ofNat_of_zero_le hq
      simp
  · next hq =>
      obtain ⟨n, rfl⟩ : ∃ n : Nat, q = -n := ⟨(-q).toNat, by omega⟩
      simp [div_eq_mul_inv]

/-- A number that is given some places grows by no more than one. -/
theorem exists_roundTo_eq (places : Nat) (negative : Bool) (m : Nat) (q : Int) :
    ∃ d, roundTo places (.finite negative m q) = some d ∧ d.magnitude ≤ m * 2 ^ q + 1 := by
  refine ⟨⟨negative, roundHalfEven ((quotient m q).1 * 10 ^ places) (quotient m q).2, -places⟩,
    rfl, ?_⟩
  have hpos : (0 : ℚ) < 10 ^ places := pow_pos (by norm_num) places
  have hone : (1 : ℚ) ≤ 10 ^ places := one_le_pow₀ (by norm_num)
  rw [Decimal.magnitude, zpow_neg, zpow_natCast, ← div_eq_mul_inv, div_le_iff₀ hpos]
  refine (roundHalfEven_cast_le _ _).trans ?_
  rw [Nat.cast_mul, Nat.cast_pow, Nat.cast_ofNat, mul_div_right_comm, quotient_eq, add_mul, one_mul]
  exact add_le_add_right hone _

end Binary64

/-- What a database gives back of a decimal that is not too great is not too great. -/
theorem Value.exists_stored_decimal_eq {d : Decimal} (h : d.magnitude < 2 ^ 100) :
    ∃ d', (Value.decimal d).stored = .decimal d' ∧ d'.magnitude < 2 ^ 200 := by
  rcases Cell.ofDecimal_eq d with ⟨n, hcell, hn⟩ | hcell
  · refine ⟨_, by rw [stored, hcell], ?_⟩
    have hlt : (n.natAbs : ℚ) < 2 ^ 63 := by exact_mod_cast hn
    have hmagnitude : Decimal.magnitude ⟨n < 0, n.natAbs * 10 ^ storedPlaces,
        -(storedPlaces : Int)⟩ = n.natAbs := by
      simp [Decimal.magnitude, zpow_neg]
    rw [hmagnitude]
    exact hlt.trans (by norm_num)
  · obtain ⟨m, q, heq, hbound⟩ := Binary64.exists_ofDecimal_eq (by decide) h
    obtain ⟨d', hd', hle⟩ := Binary64.exists_roundTo_eq storedPlaces d.negative m q
    have hstored : (Value.decimal d).stored =
        ((Binary64.roundTo storedPlaces (.finite d.negative m q)).map .decimal).getD .null := by
      rw [stored, hcell, heq]
      rfl
    refine ⟨d', by rw [hstored, hd']; rfl, ?_⟩
    calc d'.magnitude
        ≤ m * 2 ^ q + 1 := hle
      _ ≤ 2 ^ 101 + 1 := add_le_add_left hbound 1
      _ < 2 ^ 200 := by norm_num

/-- A decimal that is not too great has a form in a message when it comes from a database. -/
theorem Value.hasForm_stored_decimal {d : Decimal} (h : d.magnitude < 2 ^ 100) :
    (Value.decimal d).stored.toWire.hasForm = true := by
  obtain ⟨d', hd', hlt⟩ := exists_stored_decimal_eq h
  rw [hd']
  exact Binary64.isFinite_ofDecimal (Nat.le_refl 200) hlt

end RecordQuery
