import RecordQuery.Proofs.Runs.Faults
import RecordQuery.Proofs.Schema
import RecordQuery.Proofs.Value.Order

namespace RecordQuery

/-!
# The order of records by a field

Records with values of one type in a field, or with none, are compared as
their values stand in the linear order, in which a missing value is first.
Sorting by the field gives the one list in this order in which records of
one rank follow one another as they came. Moments of one zone are compared
by its clocks, so that all this fails where the clocks were put back.
-/

open Outcome

theorem succeeds_sortOn {α : Type} {key : α → Value} {d : Direction} {items : List α}
    (h : ∀ a ∈ items, ∀ b ∈ items, Succeeds (d.order (key a) (key b))) :
    Succeeds (sortOn key d items) := by
  unfold sortOn
  split
  · exact succeeds_ok _
  · rw [succeeds_iff_faultsIn]
    apply Runs.faultsIn_sort
    intro a ha b hb
    exact (succeeds_iff_faultsIn.mp (h a ha b hb)).map _

/-- What is first in ascending order and what comes after it. -/
def Direction.concat {α : Type} (d : Direction) (first rest : List α) : List α :=
  match d with
  | ascending => first ++ rest
  | descending => rest ++ first

namespace Record

def fieldOrder (name : Text) (d : Direction) (a b : Record) : Ordering :=
  d.apply (Value.linearOrder (a.value name) (b.value name))

instance (name : Text) (d : Direction) : Std.TransCmp (fieldOrder name d) := by
  have hascending : Std.TransCmp (fieldOrder name .ascending) :=
    Sorted.transCmp_comap Value.linearOrder fun r : Record ↦ r.value name
  cases d with
  | ascending => exact hascending
  | descending => exact Sorted.transCmp_swap (fieldOrder name .ascending)

/-- A record with a value of some type in a field, or with none. -/
def HasOptional (name : Text) (type : FieldType) (r : Record) : Prop :=
  r.value name = .null ∨ (r.value name).HasType type

instance (name : Text) (type : FieldType) (r : Record) : Decidable (r.HasOptional name type) :=
  inferInstanceAs (Decidable (_ ∨ _))

def lacks (name : Text) (r : Record) : Bool := (r.value name).isNull

variable {name : Text} {type : FieldType} {a b : Record}

theorem lacks_eq_true_iff : a.lacks name = true ↔ a.value name = .null := by
  unfold lacks
  cases a.value name <;> simp [Value.isNull]

/-- Records with values of one type in a field, or with none, of which every two stand to each
other as in the linear order: the clocks of no zone were put back between two of them. -/
structure KeepOrder (name : Text) (type : FieldType) (records : List Record) : Prop where
  hasOptional : ∀ r ∈ records, r.HasOptional name type
  keepOrder : ∀ a ∈ records, ∀ b ∈ records, Value.keepOrder (a.value name) (b.value name) = true

instance (name : Text) (type : FieldType) (records : List Record) :
    Decidable (KeepOrder name type records) :=
  decidable_of_iff ((∀ r ∈ records, r.HasOptional name type) ∧
      ∀ a ∈ records, ∀ b ∈ records, Value.keepOrder (a.value name) (b.value name) = true)
    ⟨fun h ↦ ⟨h.1, h.2⟩, fun h ↦ ⟨h.hasOptional, h.keepOrder⟩⟩

namespace KeepOrder

variable {records : List Record}

theorem of_subset {others : List Record} (h : KeepOrder name type records)
    (hothers : others ⊆ records) : KeepOrder name type others :=
  ⟨fun r hr ↦ h.hasOptional r (hothers hr),
    fun a ha b hb ↦ h.keepOrder a (hothers ha) b (hothers hb)⟩

theorem naturalRelation_eq (h : KeepOrder name type records) (ha : a ∈ records)
    (hb : b ∈ records) : Value.naturalRelation (a.value name) (b.value name) =
      .ok (.ofOrdering (fieldOrder name .ascending a b)) :=
  Value.naturalRelation_eq_linearOrder (h.hasOptional a ha) (h.hasOptional b hb)
    (h.keepOrder a ha b hb)

theorem order_eq (h : KeepOrder name type records) (ha : a ∈ records) (hb : b ∈ records)
    (d : Direction) : d.order (a.value name) (b.value name) = .ok (fieldOrder name d a b) := by
  rw [Direction.order, Value.naturalOrder_of_naturalRelation (h.naturalRelation_eq ha hb)]
  rfl

end KeepOrder

namespace HasOptional

/-- Whatever the clocks show, records with values of one type can be compared. -/
theorem order_eq_clockOrder (ha : a.HasOptional name type) (hb : b.HasOptional name type)
    (d : Direction) : d.order (a.value name) (b.value name) =
      .ok (d.apply (Value.clockOrder (a.value name) (b.value name))) := by
  rw [Direction.order,
    Value.naturalOrder_of_naturalRelation (Value.naturalRelation_eq_clockOrder ha hb)]
  rfl

/-- In ascending order nothing with a value stands before a record without one. -/
theorem lacks_of_isLE (ha : a.HasOptional name type)
    (hle : (fieldOrder name .ascending a b).isLE = true) (hb : b.lacks name = true) :
    a.lacks name = true := by
  rcases ha with ha | ha
  · exact lacks_eq_true_iff.mpr ha
  · rw [fieldOrder, lacks_eq_true_iff.mp hb, ha.linearOrder_null_right] at hle
    cases hle

end HasOptional

theorem fieldOrder_of_lacks (d : Direction) (ha : a.lacks name = true) (hb : b.lacks name = true) :
    fieldOrder name d a b = .eq := by
  rw [fieldOrder, lacks_eq_true_iff.mp ha, lacks_eq_true_iff.mp hb]
  cases d <;> rfl

end Record

namespace Sorting

/-- How a sort compares two records. -/
def order (schema : Schema) (s : Sorting) (a b : Record) : Outcome Ordering := do
  let f ← schema.require .invalidSortField s.field
  s.direction.order (a.value f.name) (b.value f.name)

variable {schema : Schema} {s : Sorting} {f : Field}

theorem order_eq (hf : schema.resolve? s.field = some f) (d : Direction) (a b : Record) :
    order schema ⟨s.field, d⟩ a b = d.order (a.value f.name) (b.value f.name) := by
  rw [order, Schema.require_eq_ok_iff.mpr hf]
  rfl

section

variable {type : FieldType} {α : Type} {record : α → Record} {items : List α}

theorem apply_eq_mergeSort (hf : schema.resolve? s.field = some f)
    (h : Record.KeepOrder f.name type (items.map record)) :
    s.apply schema record items = .ok (items.mergeSort fun a b ↦
      (Record.fieldOrder f.name s.direction (record a) (record b)).isLE) := by
  have hnatural : ∀ a ∈ items, ∀ b ∈ items,
      Value.naturalRelation ((record a).value f.name) ((record b).value f.name) =
        .ok (.ofOrdering (Record.fieldOrder f.name .ascending (record a) (record b))) :=
    fun a ha b hb ↦ h.naturalRelation_eq (List.mem_map_of_mem ha) (List.mem_map_of_mem hb)
  have hkeep : ∀ a ∈ items, ∀ b ∈ items,
      Value.keepOrder ((record a).value f.name) ((record b).value f.name) = true :=
    fun a ha b hb ↦ h.keepOrder _ (List.mem_map_of_mem ha) _ (List.mem_map_of_mem hb)
  rw [apply, Schema.require_eq_ok_iff.mpr hf]
  exact sortOn_eq_mergeSort hnatural hkeep s.direction

/-- Records with values of one type can be sorted. -/
theorem exists_apply_perm (hf : schema.resolve? s.field = some f)
    (h : ∀ a ∈ items, (record a).HasOptional f.name type) :
    ∃ sorted, s.apply schema record items = .ok sorted ∧ sorted.Perm items := by
  have hsort : Succeeds (sortOn (fun a ↦ (record a).value f.name) s.direction items) :=
    succeeds_sortOn fun a ha b hb ↦ ⟨_, (h a ha).order_eq_clockOrder (h b hb) s.direction⟩
  obtain ⟨sorted, hsorted⟩ := hsort
  refine ⟨sorted, ?_, sortOn_perm hsorted⟩
  rw [apply, Schema.require_eq_ok_iff.mpr hf]
  exact hsorted

/-- Records without a value keep their order, and stand together at one end. -/
theorem lacking_at_end {name : Text} {d : Direction}
    (h : ∀ a ∈ items, (record a).HasOptional name type) {sorted : List α}
    (hsorted : sorted =
      items.mergeSort fun a b ↦ (Record.fieldOrder name d (record a) (record b)).isLE) :
    sorted = d.concat (items.filter fun a ↦ (record a).lacks name)
      (sorted.filter fun a ↦ !(record a).lacks name) := by
  have htrans : Std.TransCmp fun a b ↦ Record.fieldOrder name d (record a) (record b) :=
    Sorted.transCmp_comap (Record.fieldOrder name d) record
  have hpairwise := Sorted.pairwise_mergeSort
    (fun a b ↦ Record.fieldOrder name d (record a) (record b)) items
  have hmem : ∀ a ∈ sorted, (record a).HasOptional name type :=
    fun a ha ↦ h a (List.mem_mergeSort.mp (hsorted ▸ ha))
  have hlacking : sorted.filter (fun a ↦ (record a).lacks name) =
      items.filter fun a ↦ (record a).lacks name := by
    rw [hsorted]
    apply Sorted.filter_mergeSort
    intro a _ b _ ha hb
    exact Ordering.isLE_of_eq_eq (Record.fieldOrder_of_lacks d ha hb)
  rw [← hsorted] at hpairwise
  rw [← hlacking]
  cases d with
  | ascending =>
      refine (Sorted.filter_append_filter_not (hpairwise.imp_of_mem ?_)).symm
      intro a b ha _ hle hb
      exact (hmem a ha).lacks_of_isLE hle hb
  | descending =>
      have hothers := Sorted.filter_append_filter_not
        (p := fun a ↦ !(record a).lacks name) (hpairwise.imp_of_mem ?_)
      · simp only [Bool.not_not] at hothers
        exact hothers.symm
      · intro a b _ hb hle hpb
        cases ha : (record a).lacks name with
        | false => rfl
        | true =>
            have hswap : Record.fieldOrder name .ascending (record b) (record a) =
                (Record.fieldOrder name .ascending (record a) (record b)).swap :=
              Std.OrientedCmp.eq_swap
            rw [(hmem b hb).lacks_of_isLE (hswap ▸ hle) ha] at hpb
            cases hpb

end

end Sorting

end RecordQuery
