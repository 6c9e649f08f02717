import RecordQuery.Proofs.Database.Cell
import RecordQuery.Proofs.Database.Ties
import RecordQuery.Proofs.StableSort

namespace RecordQuery

/-!
# The order of rows

Rows with values of one type in a field are put in order by the cells of
the field, and by those of the identifier where they are equal in it. If
no two rows have one identifier, this is a strict order: there is one way
to sort the rows, in whatever order they are found.
-/

namespace Record

/-- The order of records by the cell of a field. -/
def cellOrder (name : Text) (d : Direction) (a b : Record) : Ordering :=
  d.apply (Cell.linearOrder (Cell.ofValue (a.value name)) (Cell.ofValue (b.value name)))

instance (name : Text) (d : Direction) : Std.TransCmp (cellOrder name d) := by
  have hascending : Std.TransCmp (cellOrder name .ascending) :=
    Sorted.transCmp_comap Cell.linearOrder fun r : Record ↦ Cell.ofValue (r.value name)
  cases d with
  | ascending => exact hascending
  | descending => exact Sorted.transCmp_swap (cellOrder name .ascending)

/-- The order by one field, and by another one among records that are equal in it. -/
def keyedOrder (name : Text) (d : Direction) (key : Text) : Record → Record → Ordering :=
  compareLex (cellOrder name d) (cellOrder key .ascending)

variable (name : Text) (d : Direction) (key : Text)

instance : Std.TransCmp (keyedOrder name d key) :=
  inferInstanceAs (Std.TransCmp (compareLex _ _))

theorem keyedOrder_eq (a b : Record) :
    keyedOrder name d key a b = (cellOrder name d a b).then (cellOrder key .ascending a b) := rfl

/-- Records that are equal in a field are not told apart by looking at it again. -/
theorem keyedOrder_self (a b : Record) : keyedOrder name d name a b = cellOrder name d a b := by
  rw [keyedOrder_eq, cellOrder, cellOrder]
  cases d <;> cases Cell.linearOrder _ _ <;> rfl

end Record

/-- Records that have values of one type in a field, if any. -/
def HaveType (type : FieldType) (name : Text) (records : List Record) : Prop :=
  ∀ r ∈ records, r.value name = .null ∨ (r.value name).IsOf type

namespace HaveType

variable {type : FieldType} {name : Text} {records : List Record} {a b : Record}

theorem order_eq (h : HaveType type name records) (ha : a ∈ records) (hb : b ∈ records) :
    (Cell.ofValue (a.value name)).order (Cell.ofValue (b.value name)) =
      Record.cellOrder name .ascending a b :=
  Cell.order_eq_linearOrder (Value.isReal_ofValue (h a ha)) (Value.isReal_ofValue (h b hb))

theorem naturalRelation_eq (h : HaveType type name records) (ha : a ∈ records)
    (hb : b ∈ records) : Value.naturalRelation (a.value name) (b.value name) =
      .ok (.ofOrdering (Record.cellOrder name .ascending a b)) := by
  rw [Value.naturalRelation_eq (h a ha) (h b hb), h.order_eq ha hb]

theorem naturalOrder_eq (h : HaveType type name records) (ha : a ∈ records) (hb : b ∈ records) :
    Value.naturalOrder (a.value name) (b.value name) =
      .ok (Record.cellOrder name .ascending a b) :=
  Value.naturalOrder_of_naturalRelation (h.naturalRelation_eq ha hb)

theorem orderTerm_eq {t : OrderTerm} (h : HaveType type t.column.field.name records)
    (ha : a ∈ records) (hb : b ∈ records) :
    t.order a b = Record.cellOrder t.column.field.name t.direction a b := by
  rw [OrderTerm.order, Column.cell, Column.cell, h.order_eq ha hb]
  rfl

theorem pairwise_cellOrder (h : HaveType type name records)
    (hrecords : records.Pairwise fun a b ↦
      Value.naturalOrder (a.value name) (b.value name) = .ok .lt) :
    records.Pairwise fun a b ↦ Record.cellOrder name .ascending a b = .lt := by
  apply hrecords.imp_of_mem
  intro a b ha hb hlt
  rw [h.naturalOrder_eq ha hb] at hlt
  exact Except.ok.inj hlt

end HaveType

/-! ## Sorting by terms -/

/-- A sort of a table by one of its fields; ties are broken by the identifier. -/
structure Sorting.IsKeyed (table : Table) (s : Sorting) (f key : Field) : Prop where
  declares : table.schema.Declares s.field f
  key_eq : table.schema.identifier? = some key

namespace Sorting.IsKeyed

variable {table : Table} {s : Sorting} {f key : Field} {terms : List OrderTerm}
  {type keyType : FieldType} {rows : List Record}

theorem key_mem (h : s.IsKeyed table f key) : key ∈ table.schema.fields :=
  List.mem_of_find?_eq_some h.key_eq

theorem terms_eq (h : s.IsKeyed table f key) : s.terms table =
    .ok (⟨⟨table.name, f⟩, s.direction, true⟩ ::
      if key.name = f.name then [] else [⟨⟨table.name, key⟩, .ascending, false⟩]) := by
  rw [terms_eq_cons h.declares.resolve?_eq, tieBreak, h.key_eq]

theorem rowOrder_eq (h : s.IsKeyed table f key) (hterms : s.terms table = .ok terms)
    (hf : HaveType type f.name rows) (hkey : HaveType keyType key.name rows) {a b : Record}
    (ha : a ∈ rows) (hb : b ∈ rows) :
    rowOrder terms a b = Record.keyedOrder f.name s.direction key.name a b := by
  let first : OrderTerm := ⟨⟨table.name, f⟩, s.direction, true⟩
  let second : OrderTerm := ⟨⟨table.name, key⟩, .ascending, false⟩
  have hfirst : first.order a b = Record.cellOrder f.name s.direction a b :=
    HaveType.orderTerm_eq (t := first) hf ha hb
  have hsecond : second.order a b = Record.cellOrder key.name .ascending a b :=
    HaveType.orderTerm_eq (t := second) hkey ha hb
  rw [h.terms_eq, Except.ok.injEq] at hterms
  rw [← hterms]
  by_cases hname : key.name = f.name
  · rw [if_pos hname, rowOrder, rowOrder, Ordering.then_eq, hfirst, hname,
      Record.keyedOrder_self]
  · rw [if_neg hname, rowOrder, rowOrder, rowOrder, Ordering.then_eq, hfirst, hsecond,
      Record.keyedOrder_eq]

theorem sortRows_eq (h : s.IsKeyed table f key) (hterms : s.terms table = .ok terms)
    (hf : HaveType type f.name rows) (hkey : HaveType keyType key.name rows) :
    sortRows terms rows =
      rows.mergeSort fun a b ↦ (Record.keyedOrder f.name s.direction key.name a b).isLE :=
  Sorted.mergeSort_congr fun a ha b hb ↦ by rw [h.rowOrder_eq hterms hf hkey ha hb]

end Sorting.IsKeyed

/-! ## Rows with different identifiers -/

/-- Rows with values of one type in a field and in the identifier, which is different in any two
of them. -/
structure HaveKeys (f key : Field) (rows : List Record) : Prop where
  haveType : HaveType f.type f.name rows
  key_haveType : HaveType key.type key.name rows
  pairwise : rows.Pairwise fun a b ↦ Record.cellOrder key.name .ascending a b ≠ .eq

namespace HaveKeys

variable {f key : Field} {rows rows' : List Record}

theorem perm (h : HaveKeys f key rows) (hperm : rows.Perm rows') : HaveKeys f key rows' where
  haveType r hr := h.haveType r (hperm.mem_iff.mpr hr)
  key_haveType r hr := h.key_haveType r (hperm.mem_iff.mpr hr)
  pairwise := hperm.pairwise h.pairwise fun h heq ↦ h (Std.OrientedCmp.eq_symm heq)

theorem pairwise_keyedOrder (h : HaveKeys f key rows) (d : Direction) :
    rows.Pairwise fun a b ↦ Record.keyedOrder f.name d key.name a b ≠ .eq := by
  apply h.pairwise.imp
  intro a b hne heq
  rw [Record.keyedOrder_eq, Ordering.then_eq_eq] at heq
  exact hne heq.2

variable {table : Table} {s : Sorting} {terms : List OrderTerm}

/-- Sorted rows are in a strict order, so none of them could stand in another place. -/
theorem pairwise_sortRows (h : HaveKeys f key rows) (hs : s.IsKeyed table f key)
    (hterms : s.terms table = .ok terms) : (sortRows terms rows).Pairwise fun a b ↦
      Record.keyedOrder f.name s.direction key.name a b = .lt := by
  rw [hs.sortRows_eq hterms h.haveType h.key_haveType]
  exact Sorted.pairwise_mergeSort_lt (h.pairwise_keyedOrder s.direction)

theorem sortRows_perm_eq (h : HaveKeys f key rows) (hs : s.IsKeyed table f key)
    (hterms : s.terms table = .ok terms) (hperm : rows'.Perm rows) :
    sortRows terms rows' = sortRows terms rows := by
  have h' := h.perm hperm.symm
  rw [hs.sortRows_eq hterms h.haveType h.key_haveType,
    hs.sortRows_eq hterms h'.haveType h'.key_haveType]
  exact Sorted.mergeSort_perm_eq hperm (h.pairwise_keyedOrder s.direction)

end HaveKeys

end RecordQuery
