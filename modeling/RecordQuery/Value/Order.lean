import RecordQuery.Error
import RecordQuery.Value.Basic

namespace RecordQuery

/-!
# Equality and order of values

Numbers of all kinds are compared by what they are worth, moments with and
without a zone by their instants. Values of different kinds are unequal and
have no order. A sequence is compared at the first place where it differs.
-/

/-- A number apart from its representation. -/
inductive Number where
  | finite (d : Decimal)
  | infinite (negative : Bool)
  | nan
  deriving DecidableEq, Repr

/-- How two values stand to each other; what is not a number stands in no order to numbers. -/
inductive Relation where
  | less | equal | greater | unordered
  deriving DecidableEq, Repr

namespace Relation

def ofOrdering : Ordering → Relation
  | .lt => less
  | .eq => equal
  | .gt => greater

def swap : Relation → Relation
  | less => greater
  | greater => less
  | r => r

end Relation

namespace Number

def relate : Number → Number → Relation
  | nan, _ => .unordered
  | _, nan => .unordered
  | finite a, finite b => .ofOrdering (Decimal.order a b)
  | infinite a, infinite b => if a = b then .equal else if a then .less else .greater
  | infinite a, finite _ => if a then .less else .greater
  | finite _, infinite b => if b then .greater else .less

def ofBinary64 : Binary64 → Number
  | .nan => nan
  | .infinite negative => infinite negative
  | x =>
    match x.toDecimal? with
    | some d => finite d
    | none => nan

end Number

namespace Value

def number? : Value → Option Number
  | bool b => some (.finite (Decimal.ofInt (if b then 1 else 0)))
  | int n => some (.finite (Decimal.ofInt n))
  | float x => some (.ofBinary64 x)
  | decimal d => some (.finite d)
  | infinite negative => some (.infinite negative)
  | undefined => some .nan
  | _ => none

def isDecimal : Value → Bool
  | decimal _ | infinite _ | undefined => true
  | _ => false

/-- Two moments of which exactly one has an offset are neither equal nor in order. -/
def sameAwareness (a b : Moment) : Bool := a.isAware == b.isAware

/-- Equality of a moment in a zone and one without. -/
def sameInstant (a : ZonedMoment) (b : Moment) : Bool :=
  b.isAware && !a.isAmbiguous && a.instant = b.instant

def numbersEqual (a b : Value) : Bool :=
  match a.number?, b.number? with
  | some x, some y => x.relate y = .equal
  | _, _ => false

mutual

def same : Value → Value → Bool
  | null, null => true
  | int a, int b => a = b
  | text a, text b => a = b
  | date a, date b => a = b
  | moment a, moment b => sameAwareness a b && a.instant = b.instant
  | zoned a, zoned b => a.same b
  | zoned a, moment b => sameInstant a b
  | moment a, zoned b => sameInstant b a
  | uuid a, uuid b => a = b
  | list as, list bs => sameItems as bs
  | tuple as, tuple bs => sameItems as bs
  | dict as, dict bs => as.length = bs.length && entriesIn as bs
  | a, b => numbersEqual a b

def sameItems : List Value → List Value → Bool
  | [], [] => true
  | a :: as, b :: bs => same a b && sameItems as bs
  | _, _ => false

def entriesIn : List (Value × Value) → List (Value × Value) → Bool
  | [], _ => true
  | (k, v) :: rest, bs => bs.any (fun (k', v') ↦ same k k' && same v v') && entriesIn rest bs

end

/-- Puts an entry under a key; a key that is there already keeps its place. -/
def putEntry {α : Type} (key : Value) (a : α) : List (Value × α) → List (Value × α)
  | [] => [(key, a)]
  | (k, b) :: rest => if same k key then (k, a) :: rest else (k, b) :: putEntry key a rest

/-- Entries of which those that come later replace those with the same key. -/
def mergeEntries {α : Type} (entries : List (Value × α)) : List (Value × α) :=
  entries.foldl (fun merged (k, a) ↦ putEntry k a merged) []

def dictOf (entries : List (Value × Value)) : Value := dict (mergeEntries entries)

def relateNumbers (a b : Value) : Outcome Relation :=
  match a.number?, b.number? with
  | some x, some y =>
    match x.relate y with
    | .unordered => if a.isDecimal || b.isDecimal then .error .notANumber else .ok .unordered
    | r => .ok r
  | _, _ => .error .incomparable

def relateMoments (a b : Moment) : Outcome Relation :=
  if sameAwareness a b then .ok (.ofOrdering (Moment.order a b)) else .error .incomparable

mutual

def relate : Value → Value → Outcome Relation
  | int a, int b => .ok (.ofOrdering (compare a b))
  | text a, text b => .ok (.ofOrdering (Text.order a b))
  | date a, date b => .ok (.ofOrdering (Date.order a b))
  | moment a, moment b => relateMoments a b
  | zoned a, zoned b => .ok (.ofOrdering (a.order b))
  | zoned a, moment b => relateMoments a.moment b
  | moment a, zoned b => relateMoments a b.moment
  | uuid a, uuid b => .ok (.ofOrdering (Uuid.order a b))
  | list as, list bs => relateItems as bs
  | tuple as, tuple bs => relateItems as bs
  | a, b => relateNumbers a b

def relateItems : List Value → List Value → Outcome Relation
  | [], [] => .ok .equal
  | [], _ :: _ => .ok .less
  | _ :: _, [] => .ok .greater
  | a :: as, b :: bs => if same a b then relateItems as bs else relate a b

end

/-- Moments without an offset count as UTC next to moments with one. -/
def aligned : Value → Value → Value × Value
  | moment a, moment b =>
    if sameAwareness a b then (moment a, moment b) else (moment a.inUtc, moment b.inUtc)
  | moment a, zoned b => (moment a.inUtc, zoned b)
  | zoned a, moment b => (zoned a, moment b.inUtc)
  | a, b => (a, b)

def equals (a b : Value) : Bool :=
  let (a, b) := aligned a b
  same a b

def compareTo (a b : Value) : Outcome Relation :=
  let (a, b) := aligned a b
  relate a b

end Value

end RecordQuery
