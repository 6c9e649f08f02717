import Mathlib.Data.Nat.Find
import RecordQuery.Proofs.Calendar.Day

namespace RecordQuery

/-!
# Weeks

A week goes from Monday to Sunday and belongs to the year of its Thursday,
in which it has the number that its Thursday has among the Thursdays. Year,
week and day of the week tell a date as year, month and day do.
-/

namespace Date

variable {d e : Date} {y w k : Nat}

/-! ## Days of a year -/

theorem dayNumber_inj : d.dayNumber = e.dayNumber ↔ d = e := by
  rw [← order_eq_eq_iff, order, Nat.compare_eq_eq]

theorem yearDay_inj (hyear : d.year = e.year) : d.yearDay = e.yearDay ↔ d = e := by
  rw [← dayNumber_inj, dayNumber_eq, dayNumber_eq, hyear, Nat.add_left_cancel_iff]

/-- The days of a year are those that come after its beginning and before the next one. -/
theorem year_eq_iff (hy : 1 ≤ y) : d.year = y ↔
    daysBeforeYear y < d.dayNumber ∧ d.dayNumber ≤ daysBeforeYear y + daysInYear y := by
  have hpos := d.yearDay_pos
  have hle := d.yearDay_le
  rw [dayNumber_eq]
  constructor
  · rintro rfl
    omega
  · rintro ⟨hfirst, hlast⟩
    rcases Nat.lt_trichotomy d.year y with hlt | heq | hgt
    · have hmono := daysBeforeYear_mono d.isDate.1.1 hlt
      omega
    · exact heq
    · have hmono := daysBeforeYear_mono hy hgt
      omega

theorem dayNumber_le_last (d : Date) : d.dayNumber ≤ last.dayNumber := by
  have hyear := daysBeforeYear_mono d.isDate.1.1 (Nat.lt_succ_of_le d.isDate.1.2)
  have hday := d.yearDay_le
  rw [dayNumber_eq]
  exact Nat.le_trans (Nat.add_le_add_left hday _) hyear

/-- The search for the month of a day goes through the months that are left. -/
theorem ofYearDay_eq_some_iff {m fuel : Nat} (hm : 1 ≤ m) (hfuel : m + fuel = 13) :
    ofYearDay y m fuel k = some d ↔
      d.year = y ∧ d.yearDay = daysBeforeMonth y m + k + 1 := by
  induction fuel generalizing m k with
  | zero =>
      obtain rfl : m = 13 := hfuel
      refine iff_of_false nofun ?_
      rintro ⟨rfl, hday⟩
      have hle := d.yearDay_le
      rw [daysBeforeMonth_thirteen] at hday
      omega
  | succ fuel ih =>
      rw [ofYearDay]
      split
      · next hk =>
          rw [of?_eq_some_iff]
          constructor
          · rintro ⟨rfl, rfl, hday⟩
            exact ⟨rfl, by rw [yearDay, hday]; rfl⟩
          · rintro ⟨rfl, hday⟩
            have hdate : IsDate d.year m (k + 1) := ⟨d.isDate.1, by omega, by omega, hk⟩
            let e : Date := ⟨d.year, m, k + 1, hdate⟩
            have heq : d = e := (yearDay_inj (d := d) (e := e) rfl).mp hday
            exact ⟨rfl, congrArg month heq, congrArg day heq⟩
      · next hk =>
          have hnext : daysBeforeMonth y (m + 1) + (k - daysInMonth y m) + 1 =
              daysBeforeMonth y m + k + 1 := by
            rw [daysBeforeMonth_succ hm]
            omega
          rw [ih (by omega) (by omega), hnext]

theorem ofYearDay_january_eq_some_iff (hy : 1 ≤ y) (hk : k < daysInYear y) :
    ofYearDay y 1 12 k = some d ↔ d.dayNumber = daysBeforeYear y + k + 1 := by
  have hfirst : daysBeforeMonth y 1 = 0 := rfl
  rw [ofYearDay_eq_some_iff (by decide) rfl, hfirst]
  constructor
  · rintro ⟨rfl, hday⟩
    rw [dayNumber_eq]
    omega
  · intro hday
    have hyear : d.year = y := (year_eq_iff hy).mpr ⟨by omega, by omega⟩
    rw [dayNumber_eq, hyear] at hday
    exact ⟨hyear, by omega⟩

/-! ## Days of a week -/

/-- The date is a day of a week of a year. Day 1 is a Monday, so that the number of a Thursday
leaves 4 when it is divided by 7; the Thursday of the week lies in the year, and is counted among
its Thursdays. -/
def IsWeekDay (d : Date) (y w k : Nat) : Prop :=
  (1 ≤ k ∧ k ≤ 7) ∧ ∃ thursday, thursday % 7 = 4 ∧ d.dayNumber + 4 = thursday + k ∧
    daysBeforeYear y < thursday ∧ thursday ≤ daysBeforeYear (y + 1) ∧
    w = (thursday - daysBeforeYear y + 6) / 7

theorem daysInYear_bounds (y : Nat) : 365 ≤ daysInYear y ∧ daysInYear y ≤ 366 := by
  unfold daysInYear
  split <;> decide

/-- The days from the first of January to the Monday of week 1, which may lie before it. -/
def firstMonday (y : Nat) : Int :=
  if 3 < (firstWeekday y : Int) then 7 - firstWeekday y else -firstWeekday y

theorem firstMonday_spec (y : Nat) :
    (-3 ≤ firstMonday y ∧ firstMonday y ≤ 3) ∧ (daysBeforeYear y + firstMonday y) % 7 = 0 := by
  unfold firstMonday firstWeekday
  split <;> omega

/-- A year has the weeks whose Thursdays it has. -/
theorem le_weeksInYear_iff :
    w ≤ weeksInYear y ↔ firstMonday y + 7 * ((w : Int) - 1) + 4 ≤ daysInYear y := by
  unfold weeksInYear firstMonday daysInYear firstWeekday
  cases isLeapYear y with
  | true =>
      simp only [if_true, and_true]
      split <;> split <;> omega
  | false =>
      simp only [Bool.false_eq_true, if_false, and_false, or_false]
      split <;> split <;> omega

/-- The date at a distance from the first of January that leads to the years around it at most. -/
theorem ofYearDay_near_eq_some_iff {i : Int} (hy : 1 ≤ y) (hfirst : y = 1 → 0 ≤ i)
    (hi : -365 ≤ i) (hi' : i < 730) :
    (if i < 0 then ofYearDay (y - 1) 1 12 (i + daysInYear (y - 1)).toNat
      else if i < daysInYear y then ofYearDay y 1 12 i.toNat
      else ofYearDay (y + 1) 1 12 (i - daysInYear y).toNat) = some d ↔
        (d.dayNumber : Int) = daysBeforeYear y + i + 1 := by
  have hyear := daysInYear_bounds y
  split
  · have hbefore := daysInYear_bounds (y - 1)
    have hsucc : daysBeforeYear y = daysBeforeYear (y - 1) + daysInYear (y - 1) := by
      rw [← daysBeforeYear_succ (by omega), Nat.sub_add_cancel hy]
    rw [ofYearDay_january_eq_some_iff (by omega) (by omega)]
    omega
  · split
    · rw [ofYearDay_january_eq_some_iff hy (by omega)]
      omega
    · have hafter := daysInYear_bounds (y + 1)
      have hsucc := daysBeforeYear_succ hy
      rw [ofYearDay_january_eq_some_iff (by omega) (by omega)]
      omega

namespace IsWeekDay

variable (h : d.IsWeekDay y w k)

include h

theorem year_pos : 1 ≤ y := by
  obtain ⟨-, thursday, -, -, hfirst, hlast, -⟩ := h
  rcases Nat.eq_zero_or_pos y with rfl | hy
  · exact absurd (Nat.lt_of_lt_of_le hfirst hlast) (by decide)
  · exact hy

theorem year_lt : y < 10 ^ 4 := by
  obtain ⟨hk, thursday, hthursday, hday, hfirst, -⟩ := h
  have hle := d.dayNumber_le_last
  by_contra hy
  have hmono := daysBeforeYear_mono (by decide : 1 ≤ 9999) (by omega : 9999 < y)
  have hlast : last.dayNumber = daysBeforeYear 9999 + daysInYear 9999 := rfl
  have hfriday : last.dayNumber % 7 = 5 := by decide
  omega

theorem week_lt : w < 10 ^ 2 := by
  have hsucc := daysBeforeYear_succ h.year_pos
  have hyear := daysInYear_bounds y
  obtain ⟨-, thursday, -, -, -, hlast, rfl⟩ := h
  omega

theorem weekday_lt : k < 10 ^ 1 := Nat.lt_of_le_of_lt h.1.2 (by decide)

end IsWeekDay

theorem ofWeek?_eq_some_iff : ofWeek? y w k = some d ↔ d.IsWeekDay y w k := by
  have hmonday := firstMonday_spec y
  have hyear := daysInYear_bounds y
  have hweek : ofWeek? y w k = some d ↔
      (1 ≤ y ∧ 1 ≤ w ∧ w ≤ weeksInYear y ∧ 1 ≤ k ∧ k ≤ 7) ∧
        (d.dayNumber : Int) = daysBeforeYear y + (firstMonday y + 7 * (w - 1) + (k - 1)) + 1 := by
    rw [ofWeek?, Option.ite_none_right_eq_some]
    refine and_congr_right fun ⟨hy, hw, hw', hk, hk'⟩ ↦ ?_
    rw [le_weeksInYear_iff] at hw'
    refine ofYearDay_near_eq_some_iff hy ?_ ?_ ?_
    · rintro rfl
      change 0 ≤ firstMonday 1 + 7 * ((w : Int) - 1) + (k - 1)
      have hfirst : firstMonday 1 = 0 := by decide
      omega
    · change -365 ≤ firstMonday y + 7 * ((w : Int) - 1) + (k - 1)
      omega
    · change firstMonday y + 7 * ((w : Int) - 1) + (k - 1) < 730
      omega
  rw [hweek, le_weeksInYear_iff]
  constructor
  · rintro ⟨⟨hy, hw, hw', hk⟩, hday⟩
    have hsucc := daysBeforeYear_succ hy
    exact ⟨hk, d.dayNumber + 4 - k, by omega, by omega, by omega, by omega, by omega⟩
  · intro h
    have hy := h.year_pos
    have hsucc := daysBeforeYear_succ hy
    obtain ⟨hk, thursday, hthursday, hday, hfirst, hlast, hw⟩ := h
    exact ⟨⟨hy, by omega, by omega, hk⟩, by omega⟩

end Date

end RecordQuery
