import RecordQuery.Condition
import RecordQuery.Source

namespace RecordQuery

/-!
# Lists of records as sources

Records in memory, in the order in which they were handed in or into which
they were put.
-/

structure RecordList where
  schema : Schema
  records : List Record

/-- A bound of a slice: what is negative counts from the end. -/
def sliceBound (length : Nat) (i : Int) : Nat :=
  if i < 0 then (i + length).toNat else min i.toNat length

def slice {α : Type} (items : List α) (start stop : Int) : List α :=
  (items.take (sliceBound items.length stop)).drop (sliceBound items.length start)

theorem slice_ofNat {α : Type} (items : List α) (offset limit : Nat) :
    slice items offset ((offset : Int) + limit) = (items.drop offset).take limit := by
  have h₁ : ¬ (offset : Int) < 0 := by omega
  have h₂ : ¬ (offset : Int) + limit < 0 := by omega
  have h₃ : ((offset : Int) + limit).toNat = offset + limit := by omega
  simp only [slice, sliceBound, h₁, h₂, if_false, h₃, Int.toNat_natCast]
  rw [← List.take_eq_take_min, List.drop_take, ← List.drop_eq_drop_min, List.take_eq_take_iff,
    List.length_drop]
  omega

namespace RecordList

/-- Records without a schema make no source. -/
def of? (schema : Option Schema) (records : List Record) : Outcome RecordList :=
  match schema with
  | some s => .ok ⟨s, records⟩
  | none => .error .untypedRecords

def restrict (l : RecordList) (s : Specification) : Outcome RecordList := do
  let c ← s.condition l.schema
  let kept ← keepWhere c.holds l.records
  return { l with records := kept }

def orderBy (l : RecordList) (s : Sorting) : Outcome RecordList :=
  (s.apply l.schema id l.records).map fun sorted ↦ { l with records := sorted }

def page (l : RecordList) (offset limit : Int) : List Record :=
  slice l.records offset (offset + limit)

instance : Source RecordList Record where
  restrict := restrict
  orderBy := orderBy
  count l := .ok l.records.length
  page l offset limit := .ok (l.page offset limit)

def matchingPlaces (l : RecordList) (c : Condition) : Outcome (List Nat) :=
  (keepWhere (fun p ↦ c.holds p.1) l.records.zipIdx).map fun kept ↦ kept.map Prod.snd

end RecordList

end RecordQuery
