import RecordQuery.Calendar.Date

namespace RecordQuery

/-!
# Moments

A moment is a date and a time of day, with or without an offset from UTC.
Moments are put in order by their distance from the beginning of year 1
in microseconds, a moment without an offset being read as UTC.
-/

def microsPerDay : Nat := 86400000000

def IsClock (h m s us : Nat) : Prop := h < 24 ∧ m < 60 ∧ s < 60 ∧ us < 1000000

instance (h m s us : Nat) : Decidable (IsClock h m s us) := by unfold IsClock; infer_instance

structure Clock where
  hour : Nat
  minute : Nat
  second : Nat
  micro : Nat
  isClock : IsClock hour minute second micro
  deriving DecidableEq

namespace Clock

def of? (h m s us : Nat) : Option Clock :=
  if k : IsClock h m s us then some ⟨h, m, s, us, k⟩ else none

def midnight : Clock := ⟨0, 0, 0, 0, by decide⟩

def micros (c : Clock) : Nat := ((c.hour * 60 + c.minute) * 60 + c.second) * 1000000 + c.micro

theorem micros_lt (c : Clock) : c.micros < microsPerDay := by
  have h := c.isClock
  unfold IsClock at h
  unfold micros microsPerDay
  omega

def text (c : Clock) (fraction : Bool) : Text :=
  Text.padded 2 c.hour ++ ':' :: Text.padded 2 c.minute ++ ':' :: Text.padded 2 c.second ++
    (if fraction then '.' :: Text.padded 6 c.micro else [])

end Clock

/-- A distance from UTC of less than a day, in microseconds. -/
structure Offset where
  micros : Int
  lt_day : micros.natAbs < microsPerDay
  deriving DecidableEq

namespace Offset

def utc : Offset := ⟨0, by decide⟩

def of? (micros : Int) : Option Offset :=
  if h : micros.natAbs < microsPerDay then some ⟨micros, h⟩ else none

def text (o : Offset) : Text :=
  let us := o.micros.natAbs
  let s := us / 1000000
  (if o.micros < 0 then '-' else '+') :: Text.padded 2 (s / 3600) ++
    ':' :: Text.padded 2 (s / 60 % 60) ++
    (if us % 60000000 = 0 then [] else ':' :: Text.padded 2 (s % 60)) ++
    (if us % 1000000 = 0 then [] else '.' :: Text.padded 6 (us % 1000000))

example : text utc = "+00:00".toList := by decide

example : text ⟨-19815500000, by decide⟩ = "-05:30:15.500000".toList := by decide

end Offset

structure Moment where
  date : Date
  clock : Clock
  offset : Option Offset
  deriving DecidableEq

namespace Moment

/-- The offset, UTC if there is none. -/
def offsetMicros (t : Moment) : Int :=
  match t.offset with
  | some o => o.micros
  | none => 0

/-- Microseconds on the wall clock since the day before year 1. -/
def wallMicros (t : Moment) : Int := (t.date.dayNumber * microsPerDay + t.clock.micros : Nat)

/-- Microseconds in UTC since the day before year 1. -/
def instant (t : Moment) : Int := t.wallMicros - t.offsetMicros

def order (a b : Moment) : Ordering := compare a.instant b.instant

def isAware (t : Moment) : Bool := t.offset.isSome

def midnightOf (d : Date) : Moment := ⟨d, Clock.midnight, some Offset.utc⟩

/-- A moment without an offset, placed in UTC. -/
def inUtc (t : Moment) : Moment :=
  match t.offset with
  | some _ => t
  | none => { t with offset := some Offset.utc }

@[simp] theorem instant_inUtc (t : Moment) : t.inUtc.instant = t.instant := by
  obtain ⟨d, c, _ | o⟩ := t <;> rfl

theorem order_inUtc (s t : Moment) : s.inUtc.order t.inUtc = s.order t := by
  rw [order, order, instant_inUtc, instant_inUtc]

/-- Date and time of day, with the fraction if there is one, and the offset if there is one. -/
def text (separator : Char) (t : Moment) : Text :=
  t.date.text ++ separator :: t.clock.text (t.clock.micro ≠ 0) ++
    (match t.offset with
    | some o => o.text
    | none => [])

end Moment

end RecordQuery
