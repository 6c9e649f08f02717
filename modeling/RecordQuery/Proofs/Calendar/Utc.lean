import RecordQuery.Proofs.Calendar.Week

namespace RecordQuery

/-!
# Days in UTC

An offset is shorter than a day, so that UTC shows the day of a moment, the
day before or the day after. The days before year 1 and after year 9999
have no date.
-/

namespace Date

variable {d e : Date}

/-- The day before; the first date has none. -/
def previous? (d : Date) : Option Date :=
  if 1 < d.day then of? d.year d.month (d.day - 1)
  else if 1 < d.month then of? d.year (d.month - 1) (daysInMonth d.year (d.month - 1))
  else of? (d.year - 1) 12 31

theorem next?_eq_some_iff : d.next? = some e ↔ e.dayNumber = d.dayNumber + 1 := by
  refine ⟨dayNumber_of_next?, fun h ↦ ?_⟩
  cases hnext : d.next? with
  | none =>
      have hle := e.dayNumber_le_last
      rw [h, next?_eq_none_iff.mp hnext] at hle
      omega
  | some e' =>
      have he' := dayNumber_of_next? hnext
      rw [dayNumber_inj.mp (he'.trans h.symm)]

theorem dayNumber_of_previous? (h : d.previous? = some e) : e.dayNumber + 1 = d.dayNumber := by
  obtain ⟨-, ⟨hmonth, -⟩, hday, -⟩ := d.isDate
  rw [dayNumber, dayNumber]
  unfold previous? at h
  split at h
  · obtain ⟨hy, hm, hn⟩ := of?_eq_some_iff.mp h
    rw [hy, hm, hn]
    omega
  · split at h
    · obtain ⟨hy, hm, hn⟩ := of?_eq_some_iff.mp h
      have hsucc := daysBeforeMonth_succ (y := d.year) (m := d.month - 1) (by omega)
      rw [Nat.sub_add_cancel hmonth] at hsucc
      rw [hy, hm, hn, hsucc]
      omega
    · obtain ⟨hy, hm, hn⟩ := of?_eq_some_iff.mp h
      have hpos := e.isDate.1.1
      have hyear : d.year = e.year + 1 := by omega
      have hjanuary : d.month = 1 := by omega
      have hfirst : daysBeforeMonth (e.year + 1) 1 = 0 := rfl
      have hyearDays := daysBeforeMonth_thirteen e.year
      rw [daysBeforeMonth_succ (by decide)] at hyearDays
      have hdecember : daysInMonth e.year 12 = 31 := rfl
      rw [hm, hn, hyear, hjanuary, hfirst, daysBeforeYear_succ hpos]
      omega

theorem previous?_of_next? (h : d.next? = some e) : e.previous? = some d := by
  obtain ⟨-, ⟨hmonth, hmonth'⟩, hday, hday'⟩ := d.isDate
  unfold next? at h
  split at h
  · obtain ⟨hy, hm, hn⟩ := of?_eq_some_iff.mp h
    rw [previous?, if_pos (by omega), hy, hm, hn]
    exact d.of?_self
  · next hlast =>
      have hend : d.day = daysInMonth d.year d.month := by omega
      split at h
      · obtain ⟨hy, hm, hn⟩ := of?_eq_some_iff.mp h
        rw [previous?, if_neg (by omega), if_pos (by omega), hy, hm, Nat.add_sub_cancel, ← hend]
        exact d.of?_self
      · obtain ⟨hy, hm, hn⟩ := of?_eq_some_iff.mp h
        have hdecember : d.month = 12 := by omega
        have hdays : daysInMonth d.year 12 = 31 := rfl
        rw [previous?, if_neg (by omega), if_neg (by omega), hy, Nat.add_sub_cancel, ← hdays,
          ← hdecember, ← hend]
        exact d.of?_self

theorem previous?_eq_some_iff : d.previous? = some e ↔ e.dayNumber + 1 = d.dayNumber :=
  ⟨dayNumber_of_previous?, fun h ↦ previous?_of_next? (next?_eq_some_iff.mpr h.symm)⟩

end Date

namespace Moment

variable {d : Date} {t : Moment}

/-- The day that a calendar in UTC shows at a moment. -/
def dayInUtc? (t : Moment) : Option Date :=
  let micros : Int := t.clock.micros - t.offsetMicros
  if micros < 0 then t.date.previous?
  else if micros < microsPerDay then some t.date
  else t.date.next?

theorem natAbs_offsetMicros_lt (t : Moment) : t.offsetMicros.natAbs < microsPerDay := by
  unfold offsetMicros
  split
  · next o _ => exact o.lt_day
  · decide

theorem dayInUtc?_eq_some_iff :
    t.dayInUtc? = some d ↔ t.instant / microsPerDay = d.dayNumber := by
  have hoffset := t.natAbs_offsetMicros_lt
  have hclock := t.clock.micros_lt
  rw [dayInUtc?, instant, wallMicros]
  unfold microsPerDay at *
  split
  · rw [Date.previous?_eq_some_iff]
    omega
  · split
    · rw [Option.some_inj, ← Date.dayNumber_inj]
      omega
    · rw [Date.next?_eq_some_iff]
      omega

end Moment

end RecordQuery
