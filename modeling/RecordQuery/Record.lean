import RecordQuery.Keyed
import RecordQuery.Runs.Lemmas
import RecordQuery.Specification
import RecordQuery.Value.Order

namespace RecordQuery

/-!
# Records and their order

A record holds values under the names of its fields. Records are put in
order by one field; a missing value stands before every other, values of
equal rank keep their places, and the descending order is the ascending
one with both sides exchanged.
-/

abbrev Record := Keyed Value

namespace Record

/-- The value of a field; a field that the record has not is missing like any other. -/
def value (r : Record) (name : Text) : Value := (r.get? name).getD .null

def ofRow (s : Schema) (row : List Value) : Record := (s.fields.map Field.name).zip row

def toRow (s : Schema) (r : Record) : List Value := s.fields.map fun f ↦ r.value f.name

end Record

namespace Relation

/-- Values that stand in no order to each other are of equal rank. -/
def rank : Relation → Ordering
  | less => .lt
  | greater => .gt
  | equal | unordered => .eq

end Relation

namespace Value

/-- How two field values stand to each other; a missing value is less than any other. -/
def naturalRelation : Value → Value → Outcome Relation
  | null, null => .ok .equal
  | null, _ => .ok .less
  | _, null => .ok .greater
  | a, b => compareTo a b

def naturalOrder (a b : Value) : Outcome Ordering := (naturalRelation a b).map Relation.rank

@[simp] theorem naturalOrder_null : naturalOrder null null = .ok .eq := rfl

/-- The order of a value to itself. A sequence is taken to equal itself
without a look at what it holds. -/
def selfOrder : Value → Outcome Ordering
  | list _ | tuple _ => .ok .eq
  | v => naturalOrder v v

/-- Whether two values stand to each other as in an order of all values of
their kind. Sequences are not looked into. -/
def keepOrder : Value → Value → Bool
  | zoned a, zoned b => a.keepTime b
  | list _, _ | tuple _, _ => false
  | _, _ => true

/-- Whether two field values are one less than the other or equal. -/
def areOrdered (a b : Value) : Bool :=
  match naturalRelation a b with
  | .ok .unordered | .error _ => false
  | .ok _ => keepOrder a b

/-- Whether every two values of a list stand in an order. -/
def allOrdered : List Value → Bool
  | [] => true
  | v :: vs => vs.all (areOrdered v) && allOrdered vs

end Value

namespace Direction

def apply : Direction → Ordering → Ordering
  | ascending, o => o
  | descending, o => o.swap

def order (d : Direction) (a b : Value) : Outcome Ordering := (Value.naturalOrder a b).map d.apply

/-- Not after; values without an order are taken to be in place. -/
def inPlace (d : Direction) (a b : Value) : Bool :=
  match d.order a b with
  | .ok o => o.isLE
  | .error _ => true

/-- Whether the first of two values has to stand before the second. -/
def before (d : Direction) (a b : Value) : Outcome Bool := (d.order a b).map (· == .lt)

/-- The order of each of some values to each of them. -/
def table (d : Direction) (vs : List Value) : List (List (Outcome Ordering)) :=
  vs.zipIdx.map fun (a, i) ↦
    vs.zipIdx.map fun (b, j) ↦ if i = j then a.selfOrder.map d.apply else d.order a b

end Direction

/-- Sorts by a key, stably. Keys that all stand in an order to each other
allow one result only; with other keys it depends on the comparisons of
the sort, which also may fail. -/
def sortOn {α : Type} (key : α → Value) (d : Direction) (items : List α) : Outcome (List α) :=
  if Value.allOrdered (items.map key) then
    .ok (items.mergeSort fun a b ↦ d.inPlace (key a) (key b))
  else Runs.sort (fun a b ↦ d.before (key a) (key b)) items

theorem sortOn_of_allOrdered {α : Type} {key : α → Value} {items : List α}
    (h : Value.allOrdered (items.map key) = true) (d : Direction) :
    sortOn key d items = .ok (items.mergeSort fun a b ↦ d.inPlace (key a) (key b)) := by
  simp [sortOn, h]

/-- A sort that succeeds permutes its items, whatever their keys are. -/
theorem sortOn_perm {α : Type} {key : α → Value} {d : Direction} {items sorted : List α}
    (h : sortOn key d items = .ok sorted) : sorted.Perm items := by
  unfold sortOn at h
  split at h
  · cases h
    exact List.mergeSort_perm _ _
  · exact Runs.sort_perm h

namespace Schema

/-- A field that a specification names; the code is that of the complaint if there is none. -/
def require (s : Schema) (code : ErrorCode) (name : Text) : Outcome Field :=
  match s.resolve? name with
  | some f => .ok f
  | none => reject (.unresolved code name)

end Schema

namespace Sorting

/-- Sorts what has records in it. -/
def apply {α : Type} (schema : Schema) (s : Sorting) (record : α → Record) (items : List α) :
    Outcome (List α) := do
  let f ← schema.require .invalidSortField s.field
  sortOn (fun a ↦ (record a).value f.name) s.direction items

end Sorting

end RecordQuery
