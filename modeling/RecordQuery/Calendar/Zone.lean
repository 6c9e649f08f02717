import RecordQuery.Calendar.Moment

namespace RecordQuery

/-!
# Moments in zones

A zone has clocks that are put forward and back, so that its offset from
UTC depends on what they show. Where they show a time twice, a moment says
which of both it is. Moments of one zone are compared by its clocks,
moments of different zones by their distance from the beginning of year 1
in UTC; the latter are not equal where the clocks show a time twice or never.
-/

/-- Zones are told apart by their names. -/
structure Zone where
  name : Text
  /-- The offset, by the microseconds that `Moment.wallMicros` counts, at the
  first or at the later of two times that the clocks show. -/
  offsetAt : Int → Bool → Offset

structure ZonedMoment where
  zone : Zone
  date : Date
  clock : Clock
  /-- Whether it is the later of two moments that the clocks show. -/
  later : Bool

namespace ZonedMoment

/-- What the clocks of the zone show. -/
def wall (t : ZonedMoment) : Moment := ⟨t.date, t.clock, none⟩

def wallMicros (t : ZonedMoment) : Int := t.wall.wallMicros

def offset (t : ZonedMoment) : Offset := t.zone.offsetAt t.wallMicros t.later

/-- The same moment with its offset in place of its zone. -/
def moment (t : ZonedMoment) : Moment := { t.wall with offset := some t.offset }

def instant (t : ZonedMoment) : Int := t.moment.instant

/-- Whether the clocks show this time twice or never. -/
def isAmbiguous (t : ZonedMoment) : Bool := t.zone.offsetAt t.wallMicros (!t.later) ≠ t.offset

def sharesZone (a b : ZonedMoment) : Bool := a.zone.name = b.zone.name

def same (a b : ZonedMoment) : Bool :=
  if a.sharesZone b then a.wallMicros = b.wallMicros
  else !a.isAmbiguous && !b.isAmbiguous && a.instant = b.instant

def order (a b : ZonedMoment) : Ordering :=
  if a.sharesZone b then compare a.wallMicros b.wallMicros else compare a.instant b.instant

theorem order_swap (a b : ZonedMoment) : b.order a = (a.order b).swap := by
  have hshares : b.sharesZone a = a.sharesZone b := decide_eq_decide.mpr eq_comm
  have hswap : ∀ i j : Int, compare j i = (compare i j).swap := fun _ _ ↦ Std.OrientedCmp.eq_swap
  rw [order, order, hshares]
  split
  · exact hswap _ _
  · exact hswap _ _

/-- Whether two moments stand to each other as they do in UTC. -/
def keepTime (a b : ZonedMoment) : Bool := a.order b = compare a.instant b.instant

end ZonedMoment

/-- The clocks of Berlin around the night of 27 October 2024, in which they were put back from
three o'clock to two. -/
def Zone.berlin : Zone where
  name := "Europe/Berlin".toList
  offsetAt wall later :=
    let day : Date := ⟨2024, 10, 27, by decide⟩
    let two : Moment := ⟨day, ⟨2, 0, 0, 0, by decide⟩, none⟩
    let three : Moment := ⟨day, ⟨3, 0, 0, 0, by decide⟩, none⟩
    if wall < two.wallMicros || (wall < three.wallMicros && !later) then ⟨7200000000, by decide⟩
    else ⟨3600000000, by decide⟩

end RecordQuery
