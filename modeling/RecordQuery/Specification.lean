import RecordQuery.Literal
import RecordQuery.Operator

namespace RecordQuery

/-!
# Specifications

What a request asks of a collection of records: filters, a quick search,
an order and a page. A specification is made from the arguments of a
query, or drafted field by field and checked.
-/

/-- A page of a positive size. Page 0 is served as page 1. -/
structure Pagination where
  number : Nat
  size : Nat
  size_pos : 0 < size
  deriving DecidableEq, Repr

namespace Pagination

def firstNumber : Nat := 1

def standardSize : Nat := 25

theorem standardSize_pos : 0 < standardSize := by decide

def standard : Pagination := ⟨firstNumber, standardSize, standardSize_pos⟩

def offset (p : Pagination) : Nat := (p.number - 1) * p.size

def limit (p : Pagination) : Nat := p.size

def ofInts? (number size : Int) : Option Pagination :=
  if h : 0 ≤ number ∧ 0 < size then some ⟨number.toNat, size.toNat, by omega⟩ else none

@[simp] theorem offset_zero (size : Nat) (h : 0 < size) : offset ⟨0, size, h⟩ = 0 := by
  simp [offset]

@[simp] theorem offset_one (size : Nat) (h : 0 < size) : offset ⟨1, size, h⟩ = 0 := by
  simp [offset]

end Pagination

inductive Direction where
  | ascending | descending
  deriving DecidableEq, Repr

namespace Direction

def name : Direction → Text
  | ascending => "asc".toList
  | descending => "desc".toList

def ofName? (t : Text) : Option Direction :=
  if t = name ascending then some ascending
  else if t = name descending then some descending
  else none

theorem ofName?_name (d : Direction) : ofName? d.name = some d := by cases d <;> decide

end Direction

structure Sorting where
  field : Text
  direction : Direction
  deriving DecidableEq, Repr

structure Search where
  value : Text
  fields : List Text
  deriving DecidableEq, Repr

structure Filter where
  field : Text
  values : List Text
  operator : Operator
  deriving DecidableEq, Repr

structure Specification where
  pagination : Pagination
  sort : Sorting
  search : Option Search
  filters : List Filter
  deriving DecidableEq, Repr

def pageCount (total size : Int) : Outcome Int :=
  if total ≤ 0 then .ok 0
  else if size = 0 then .error .emptyPage
  else .ok ((total + size - 1).fdiv size)

/-- A part of a draft: left out, handed in as something that it cannot be, or given. -/
inductive Part (α : Type) where
  | absent
  | unfit
  | given (a : α)
  deriving DecidableEq, Repr

namespace Part

variable {α : Type}

/-- What has to be there. -/
def required : Part α → Outcome α
  | given a => .ok a
  | absent | unfit => .error .invalidSpecification

/-- What may be left out, and what then stands for it. -/
def withDefault (standard : α) : Part α → Outcome α
  | given a => .ok a
  | absent => .ok standard
  | unfit => .error .invalidSpecification

/-- A part that is there is checked. -/
def optional {β : Type} (check : α → Outcome β) : Part α → Outcome (Option β)
  | given a => (check a).map some
  | absent => .ok none
  | unfit => .error .invalidSpecification

end Part

def found {α : Type} : Option α → Outcome α
  | some a => .ok a
  | none => .error .invalidSpecification

/-- A whole number may also be handed in as a truth value or as a text. -/
def wholeNumber? : Value → Option Int
  | .int n => some n
  | .bool b => some (if b then 1 else 0)
  | .text t => readInt? t
  | _ => none

structure PageDraft where
  number : Part Int
  size : Part Int
  deriving DecidableEq, Repr

namespace PageDraft

def check (d : PageDraft) : Outcome Pagination := do
  let number ← d.number.withDefault (Pagination.firstNumber : Int)
  let size ← d.size.withDefault (Pagination.standardSize : Int)
  found (Pagination.ofInts? number size)

end PageDraft

structure SortDraft where
  field : Part Text
  direction : Part Text
  deriving DecidableEq, Repr

namespace SortDraft

def check (d : SortDraft) : Outcome Sorting := do
  let field ← d.field.required
  let direction ← d.direction.withDefault Direction.ascending.name
  return ⟨field, ← found (Direction.ofName? direction)⟩

end SortDraft

structure SearchDraft where
  value : Part Text
  fields : Part (List Text)
  deriving DecidableEq, Repr

namespace SearchDraft

def check (d : SearchDraft) : Outcome Search := do
  let value ← d.value.required
  return ⟨value, ← d.fields.withDefault []⟩

end SearchDraft

structure FilterDraft where
  field : Part Text
  values : Part (List Text)
  operator : Part Text
  deriving DecidableEq, Repr

namespace FilterDraft

/-- A filter has a field, an operator that there is, and at least one value. -/
def check (d : FilterDraft) : Outcome Filter := do
  let field ← d.field.required
  let values ← d.values.required
  let operator ← d.operator.required
  if values.isEmpty then .error .invalidSpecification
  else return ⟨field, values, ← found (Operator.ofName? operator)⟩

end FilterDraft

structure Draft where
  pagination : Part PageDraft
  sort : Part SortDraft
  search : Part SearchDraft
  filters : Part (List FilterDraft)
  deriving DecidableEq, Repr

namespace Draft

/-- The specification of a draft that has what it needs. Its fields are not looked up yet. -/
def check (d : Draft) : Outcome Specification := do
  let pagination ← d.pagination.optional PageDraft.check
  let sort ← (← d.sort.required).check
  let search ← d.search.optional SearchDraft.check
  let filters ← (← d.filters.withDefault []).mapM FilterDraft.check
  return ⟨pagination.getD Pagination.standard, sort, search, filters⟩

end Draft

end RecordQuery
