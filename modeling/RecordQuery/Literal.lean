import RecordQuery.Calendar.Iso
import RecordQuery.Number.Numeral
import RecordQuery.Schema
import RecordQuery.Uuid
import RecordQuery.Value.Order

namespace RecordQuery

/-!
# Literals

A filter value is a text; before it is compared it is read as a value of
the type of the field. Blanks around it do not count, and in numbers a
comma is as good as a point.
-/

/-- The digits that a 64-bit number can have. -/
def int64Digits : Nat := 19

def int64Max : Int := 2 ^ 63 - 1

def int64Min : Int := -2 ^ 63

def fitsInt64 (n : Int) : Bool := int64Min ≤ n && n ≤ int64Max

theorem fitsInt64_iff {n : Int} : fitsInt64 n = true ↔ int64Min ≤ n ∧ n ≤ int64Max := by
  simp [fitsInt64]

theorem fitsInt64_natCast {n : Nat} (h : (n : Int) ≤ int64Max) : fitsInt64 n = true := by
  have hmin : int64Min ≤ n := by
    rw [int64Min]
    omega
  exact fitsInt64_iff.mpr ⟨hmin, h⟩

def digitsIn (t : Text) : Nat := (t.filter Text.isDigit).length

/-- The characters after the signs and the zeros at the start. -/
def significant (t : Text) : Text :=
  Text.stripLeft (· = '0') (Text.stripLeft (fun c ↦ c = '+' || c = '-') t)

namespace Literal

def bool? (t : Text) : Option Bool :=
  let t := normalName t
  if t ∈ ["1".toList, "true".toList, "yes".toList, "y".toList] then some true
  else if t ∈ ["0".toList, "false".toList, "no".toList, "n".toList] then some false
  else none

def withPoints (t : Text) : Text := t.map fun c ↦ if c = ',' then '.' else c

def int (t : Text) : Except LiteralKind Int :=
  if int64Digits < (significant t).length then .error .integerOutOfRange
  else
    match readInt? t with
    | none => .error .number
    | some n =>
      if digitLimit < digitsIn t then .error .number
      else if fitsInt64 n then .ok n
      else .error .integerOutOfRange

/-- A date, or the date of a moment. A moment has a blank or a `T` in it. -/
def date? (t : Text) : Option Date :=
  let t := Text.trim t
  if 'T' ∈ t ∨ ' ' ∈ t then (Iso.moment? (zulu t)).map Moment.date
  else Iso.date? t
where
  zulu (t : Text) : Text := t.flatMap fun c ↦ if c = 'Z' then "+00:00".toList else [c]

def dateOnly? (t : Text) : Option Date :=
  let t := Text.trim t
  if 'T' ∈ t ∨ ' ' ∈ t then none else Iso.date? t

def isDateOnly (t : Text) : Bool := (dateOnly? t).isSome

/-- A moment, in UTC if it has no offset; a date stands for its midnight. -/
def moment? (t : Text) : Option Moment :=
  match dateOnly? t with
  | some d => some (Moment.midnightOf d)
  | none => (Iso.moment? (date?.zulu (Text.trim t))).map Moment.inUtc

def ofOption {α : Type} (kind : LiteralKind) : Option α → Except LiteralKind α
  | some a => .ok a
  | none => .error kind

def read (type : FieldType) (t : Text) : Except LiteralKind Value :=
  match type with
  | .text | .bytes | .any | .other => .ok (.text t)
  | .uuid => (ofOption .uuid (Uuid.read? (Text.trim t))).map .uuid
  | .bool => (ofOption .boolean (bool? t)).map .bool
  | .int => (int (withPoints (Text.trim t))).map .int
  | .float => (ofOption .number (readBinary64? (withPoints (Text.trim t)))).map .float
  | .decimal => (ofOption .number (readDecimal? (withPoints (Text.trim t)))).map .decimal
  | .datetime => (ofOption .datetime (moment? t)).map .moment
  | .date => (ofOption .date (date? t)).map .date

end Literal

def Field.read (f : Field) (t : Text) : Outcome Value :=
  match Literal.read f.type t with
  | .ok v => .ok v
  | .error kind => reject (.badLiteral f.name kind)

end RecordQuery
