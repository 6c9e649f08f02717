import RecordQuery.Number.Significant
import RecordQuery.Value.Order

namespace RecordQuery

/-!
# Cells

How the database sees values. Truth values are numbers, decimals are
floating-point numbers and whole numbers if they are whole, and days,
moments and identifiers are texts. A moment is stored by its wall clock,
so its offset is lost, and its zone too.
-/

inductive Cell where
  | null
  | integer (n : Int)
  | real (x : Binary64)
  | text (t : Text)
  deriving DecidableEq, Repr

namespace Cell

/-- A whole number of 64 bits, the two outermost ones excepted, is stored as such. -/
def ofDecimal (d : Decimal) : Cell :=
  let x := Binary64.ofDecimal d
  match x.toInt? with
  | some n => if -2 ^ 63 < n ∧ n < 2 ^ 63 - 1 then integer n else real x
  | none => real x

/-- Floating-point numbers have one zero, and what is no number is missing. -/
def ofBinary64 : Binary64 → Cell
  | .nan => null
  | .finite _ 0 _ => real (Binary64.ofInt 0)
  | x => real x

/-- Date and time of day on the wall clock, with six digits after the second. -/
def momentText (t : Moment) : Text := t.date.text ++ ' ' :: t.clock.text true

def ofValue : Value → Cell
  | .bool b => integer (if b then 1 else 0)
  | .int n => integer n
  | .float x => ofBinary64 x
  | .decimal d => ofDecimal d
  | .infinite negative => real (.infinite negative)
  | .text t => text t
  | .date d => text d.text
  | .moment t => text (momentText t)
  | .zoned t => text (momentText t.wall)
  | .uuid u => text u.hex
  | .null | .undefined | .list _ | .tuple _ | .dict _ => null

/-- The text that a cell is cast to; a missing value stays missing. -/
def toText? : Cell → Option Text
  | null => none
  | integer n => some (Text.ofInt n)
  | real x => some x.significantText
  | text t => some t

def number? : Cell → Option Number
  | integer n => some (.finite (Decimal.ofInt n))
  | real x => some (.ofBinary64 x)
  | _ => none

/-- Missing values come first, then numbers, then texts by code points. -/
def order (a b : Cell) : Ordering :=
  match a, b with
  | null, null => .eq
  | null, _ => .lt
  | _, null => .gt
  | text s, text t => Text.order s t
  | text _, _ => .gt
  | _, text _ => .lt
  | integer m, integer n => compare m n
  | a, b =>
    match a.number?, b.number? with
    | some x, some y =>
      match x.relate y with
      | .less => .lt
      | .greater => .gt
      | _ => .eq
    | _, _ => .eq

@[simp] theorem order_null : order null null = .eq := rfl

end Cell

namespace Value

/-- Decimals are given back with two places. -/
def storedPlaces : Nat := 2

def storedDecimal : Binary64 → Value
  | .nan => .null
  | .infinite negative => .infinite negative
  | x => ((x.roundTo storedPlaces).map .decimal).getD .null

def stored : Value → Value
  | .decimal d =>
    match Cell.ofDecimal d with
    | .integer n => .decimal ⟨n < 0, n.natAbs * 10 ^ storedPlaces, -(storedPlaces : Int)⟩
    | .real x => storedDecimal x
    | _ => .null
  | .float x =>
    match Cell.ofBinary64 x with
    | .real y => .float y
    | _ => .null
  | .moment t => .moment { t with offset := none }
  | .zoned t => .moment t.wall
  | v => v

end Value

end RecordQuery
