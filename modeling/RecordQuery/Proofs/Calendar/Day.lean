import RecordQuery.Proofs.Calendar.Order

namespace RecordQuery

/-!
# Days

Every day but the last is followed by another, and ends at the midnight at
which that one begins.
-/

namespace Date

variable {d e : Date}

/-! ## The day after -/

def last : Date := ⟨9999, 12, 31, by decide⟩

theorem of?_eq_some_iff {y m n : Nat} :
    of? y m n = some d ↔ d.year = y ∧ d.month = m ∧ d.day = n := by
  constructor
  · intro h
    unfold of? at h
    split at h
    · cases h
      exact ⟨rfl, rfl, rfl⟩
    · cases h
  · rintro ⟨rfl, rfl, rfl⟩
    exact d.of?_self

theorem of?_ne_none {y m n : Nat} (h : IsDate y m n) : of? y m n ≠ none := by
  simp [of?, h]

theorem one_le_daysInMonth (y m : Nat) : 1 ≤ daysInMonth y m := by
  unfold daysInMonth
  split <;> (try split) <;> decide

theorem next?_eq_none_iff : d.next? = none ↔ d = last := by
  obtain ⟨y, m, n, ⟨⟨hy, hy'⟩, ⟨hm, hm'⟩, hn, hn'⟩⟩ := d
  unfold next?
  dsimp only
  split
  · next hday =>
      refine iff_of_false (of?_ne_none ⟨⟨hy, hy'⟩, ⟨hm, hm'⟩, by omega, hday⟩) ?_
      rintro ⟨⟩
      exact absurd hday (by decide)
  · next hday =>
      split
      · next hmonth =>
          refine iff_of_false
            (of?_ne_none ⟨⟨hy, hy'⟩, by omega, by omega, one_le_daysInMonth y _⟩) ?_
          rintro ⟨⟩
          exact absurd hmonth (by decide)
      · next hmonth =>
          obtain rfl : m = 12 := by omega
          have hdays : daysInMonth y 12 = 31 := rfl
          obtain rfl : n = 31 := by omega
          by_cases hyear : y = 9999
          · subst hyear
            exact iff_of_true rfl rfl
          · refine iff_of_false
              (of?_ne_none ⟨by omega, by decide, by decide, one_le_daysInMonth _ 1⟩) ?_
            rintro ⟨⟩
            exact hyear rfl

theorem dayNumber_of_next? (h : d.next? = some e) : e.dayNumber = d.dayNumber + 1 := by
  obtain ⟨⟨hyear, -⟩, ⟨hmonth, hmonth'⟩, -, hday⟩ := d.isDate
  rw [dayNumber, dayNumber]
  unfold next? at h
  split at h
  · obtain ⟨hy, hm, hn⟩ := of?_eq_some_iff.mp h
    rw [hy, hm, hn]
    omega
  · next hlast =>
      split at h
      · obtain ⟨hy, hm, hn⟩ := of?_eq_some_iff.mp h
        rw [hy, hm, hn, daysBeforeMonth_succ hmonth]
        omega
      · next hend =>
          -- the last day of a year, which is the last of its twelfth month
          obtain ⟨hy, hm, hn⟩ := of?_eq_some_iff.mp h
          have hdecember : d.month = 12 := by omega
          have hyearDays := daysBeforeMonth_thirteen d.year
          rw [daysBeforeMonth_succ (by decide)] at hyearDays
          have hfirst : daysBeforeMonth (d.year + 1) 1 = 0 := rfl
          rw [hdecember] at hlast hday ⊢
          rw [hy, hm, hn, daysBeforeYear_succ hyear, hfirst]
          omega

end Date

/-! ## Midnights -/

namespace Moment

theorem wallMicros_midnightOf (d : Date) :
    (midnightOf d).wallMicros = (d.dayNumber * microsPerDay : Nat) := by
  have hclock : Clock.midnight.micros = 0 := by decide
  rw [midnightOf, wallMicros, hclock, Nat.add_zero]

theorem instant_midnightOf (d : Date) : (midnightOf d).instant = (midnightOf d).wallMicros :=
  Int.sub_zero _

/-- A day lasts from its midnight to the next one. -/
theorem within_day_iff {d e : Date} (h : d.next? = some e) (micros : Int) :
    (midnightOf d).wallMicros ≤ micros ∧ micros < (midnightOf e).wallMicros ↔
      micros / microsPerDay = d.dayNumber := by
  rw [wallMicros_midnightOf, wallMicros_midnightOf, Date.dayNumber_of_next? h]
  unfold microsPerDay
  omega

end Moment

end RecordQuery
