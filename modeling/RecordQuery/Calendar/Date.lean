import RecordQuery.Text.Basic

namespace RecordQuery

/-!
# Calendar dates

Dates of the Gregorian calendar from year 1 to year 9999, with the number
of days up to each of them, and the dates of ISO weeks.
-/

def isLeapYear (y : Nat) : Bool := y % 4 = 0 && (y % 100 ≠ 0 || y % 400 = 0)

def daysInMonth (y : Nat) : Nat → Nat
  | 2 => if isLeapYear y then 29 else 28
  | 4 | 6 | 9 | 11 => 30
  | _ => 31

def daysInYear (y : Nat) : Nat := if isLeapYear y then 366 else 365

def daysBeforeMonth (y : Nat) : Nat → Nat
  | 0 | 1 => 0
  | m + 2 => daysBeforeMonth y (m + 1) + daysInMonth y (m + 1)

def daysBeforeYear (y : Nat) : Nat :=
  (y - 1) * 365 + (y - 1) / 4 - (y - 1) / 100 + (y - 1) / 400

def IsDate (y m d : Nat) : Prop :=
  (1 ≤ y ∧ y ≤ 9999) ∧ (1 ≤ m ∧ m ≤ 12) ∧ 1 ≤ d ∧ d ≤ daysInMonth y m

instance (y m d : Nat) : Decidable (IsDate y m d) := by unfold IsDate; infer_instance

structure Date where
  year : Nat
  month : Nat
  day : Nat
  isDate : IsDate year month day
  deriving DecidableEq

namespace Date

def of? (y m d : Nat) : Option Date := if h : IsDate y m d then some ⟨y, m, d, h⟩ else none

theorem of?_self (d : Date) : of? d.year d.month d.day = some d := by
  simp [of?, d.isDate]

/-- Days up to and including the date, the first of January of year 1 being day 1. -/
def dayNumber (d : Date) : Nat := daysBeforeYear d.year + daysBeforeMonth d.year d.month + d.day

def order (a b : Date) : Ordering := compare a.dayNumber b.dayNumber

/-- The day after; the last date has none. -/
def next? (d : Date) : Option Date :=
  if d.day < daysInMonth d.year d.month then of? d.year d.month (d.day + 1)
  else if d.month < 12 then of? d.year (d.month + 1) 1
  else of? (d.year + 1) 1 1

/-- The month and the day of a day of the year, counted from zero, when
the given count of months is still to be looked at. -/
def ofYearDay (y m : Nat) : Nat → Nat → Option Date
  | 0, _ => none
  | fuel + 1, k =>
    if k < daysInMonth y m then of? y m (k + 1) else ofYearDay y (m + 1) fuel (k - daysInMonth y m)

/-- The day of the week of the first of January; Monday is 0. -/
def firstWeekday (y : Nat) : Nat := daysBeforeYear y % 7

/-- A year has 53 weeks if it begins on a Thursday, or on a Wednesday and is a leap year. -/
def weeksInYear (y : Nat) : Nat :=
  if firstWeekday y = 3 ∨ (firstWeekday y = 2 ∧ isLeapYear y = true) then 53 else 52

/-- The date of a week of a year and a day of that week; week 1 is the week with the first
Thursday. -/
def ofWeek? (y w d : Nat) : Option Date :=
  if 1 ≤ y ∧ 1 ≤ w ∧ w ≤ weeksInYear y ∧ 1 ≤ d ∧ d ≤ 7 then
    let first : Int := firstWeekday y
    let monday : Int := if 3 < first then 7 - first else -first
    let k : Int := monday + 7 * (w - 1) + (d - 1)
    if k < 0 then ofYearDay (y - 1) 1 12 (k + daysInYear (y - 1)).toNat
    else if k < daysInYear y then ofYearDay y 1 12 k.toNat
    else ofYearDay (y + 1) 1 12 (k - daysInYear y).toNat
  else none

def text (d : Date) : Text :=
  Text.padded 4 d.year ++ '-' :: Text.padded 2 d.month ++ '-' :: Text.padded 2 d.day

example : (ofWeek? 2024 9 4).map text = some "2024-02-29".toList := by decide +kernel

example : (ofWeek? 2020 53 7).map text = some "2021-01-03".toList := by decide +kernel

example : ofWeek? 9999 52 6 = none := by decide +kernel

end Date

end RecordQuery
