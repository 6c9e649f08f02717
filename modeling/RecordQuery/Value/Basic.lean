import RecordQuery.Calendar.Zone
import RecordQuery.Number.Binary64
import RecordQuery.Uuid

namespace RecordQuery

/-!
# Values

What the fields of records hold. Fields are declared with a type, but a
record may hold any value in any field.
-/

inductive Value where
  | null
  | bool (b : Bool)
  | int (n : Int)
  | float (x : Binary64)
  | decimal (d : Decimal)
  /-- A decimal beyond all others, as a database gives it back. -/
  | infinite (negative : Bool)
  /-- A decimal that is no number. -/
  | undefined
  | text (t : Text)
  | date (d : Date)
  | moment (t : Moment)
  | zoned (t : ZonedMoment)
  | uuid (u : Uuid)
  | list (items : List Value)
  | tuple (items : List Value)
  | dict (entries : List (Value × Value))
  deriving Inhabited

namespace Value

def isNull : Value → Bool
  | null => true
  | _ => false

/-- A moment, written with its offset if it is one of a zone. -/
def moment? : Value → Option Moment
  | moment t => some t
  | zoned t => some t.moment
  | _ => none

/-- A moment in a zone whose clocks show its time twice or never. -/
def isAmbiguous : Value → Bool
  | zoned t => t.isAmbiguous
  | _ => false

end Value

end RecordQuery
