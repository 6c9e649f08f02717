import Mathlib.Data.List.Perm.Subperm
import RecordQuery.Proofs.Database.RowOrder

namespace RecordQuery

/-!
# What is given back of a row

A database does not give back every value as it was put in, but what it
gives back of most types has the cells that it had before.
-/

theorem Record.value_stored (r : Record) (name : Text) :
    r.stored.value name = (r.value name).stored := by
  rw [value, value, stored]
  induction r with
  | nil => rfl
  | cons entry r ih =>
      obtain ⟨key, v⟩ := entry
      by_cases hkey : key = name
      · simp [Keyed.get?, hkey]
      · simpa [Keyed.get?, hkey] using ih

/-- The types with values that are given back as they are, but for the offsets of moments. -/
def FieldType.isExact : FieldType → Bool
  | .text | .int | .bool | .date | .datetime => true
  | _ => false

namespace Value

variable {type : FieldType} {v : Value}

theorem HasType.isOf_stored (h : HasType type v) (htype : type.isExact = true) :
    v.stored.IsOf type := by
  cases h with
  | text t => exact .text t
  | int n => exact .int n
  | bool b => exact .bool b
  | date d => exact .date d
  | moment t | zoned t => exact .moment rfl
  | float | decimal | uuid => cases htype

theorem HasType.ofValue_stored (h : HasType type v) (htype : type.isExact = true) :
    Cell.ofValue v.stored = Cell.ofValue v := by
  cases h with
  | text | int | bool | date | moment | zoned => rfl
  | float | decimal | uuid => cases htype

end Value

namespace Record

/-- A record with values of the types of its fields; some may be missing. -/
def IsTyped (schema : Schema) (r : Record) : Prop :=
  ∀ f ∈ schema.fields, r.value f.name = .null ∨ (r.value f.name).HasType f.type

instance {schema : Schema} {r : Record} : Decidable (r.IsTyped schema) :=
  inferInstanceAs (Decidable (∀ f ∈ schema.fields, _))

variable {schema : Schema} {f : Field}

theorem IsTyped.cell_stored {r : Record} (h : r.IsTyped schema) (hf : f ∈ schema.fields)
    (htype : f.type.isExact = true) :
    Cell.ofValue (r.stored.value f.name) = Cell.ofValue (r.value f.name) := by
  rw [value_stored]
  rcases h f hf with hnull | hv
  · rw [hnull]
    rfl
  · exact hv.ofValue_stored htype

theorem IsTyped.haveType_stored {rows : List Record} (h : ∀ r ∈ rows, r.IsTyped schema)
    (hf : f ∈ schema.fields) (htype : f.type.isExact = true) :
    HaveType f.type f.name (rows.map stored) := by
  rw [HaveType, List.forall_mem_map]
  intro r hr
  rw [value_stored]
  rcases h r hr f hf with hnull | hv
  · rw [hnull]
    exact Or.inl rfl
  · exact Or.inr (hv.isOf_stored htype)

end Record

/-! ## Sorting -/

/-- Rows whose terms do not change when they are given back are given back in order. -/
theorem sortRows_map_stored {terms : List OrderTerm} {rows : List Record}
    (h : ∀ t ∈ terms, ∀ r ∈ rows, t.column.cell r.stored = t.column.cell r) :
    (sortRows terms rows).map Record.stored = sortRows terms (rows.map Record.stored) := by
  apply List.map_mergeSort
  intro a ha b hb
  have horder : rowOrder terms a.stored b.stored = rowOrder terms a b := by
    induction terms with
    | nil => rfl
    | cons t terms ih =>
        obtain ⟨ht, h⟩ := List.forall_mem_cons.mp h
        rw [rowOrder, rowOrder, ih h, OrderTerm.order, OrderTerm.order, ht a ha, ht b hb]
  rw [horder]

/-- A table of rows with values of the right types and with different identifiers, and a sort of
it by a field that is given back exactly. -/
structure Sorting.IsStrictOn (table : Table) (rows : List Record) (s : Sorting) (f key : Field) :
    Prop extends s.IsKeyed table f key where
  isExact : f.type.isExact = true
  key_isExact : key.type.isExact = true
  isTyped : ∀ r ∈ rows, r.IsTyped table.schema
  distinct : rows.Pairwise fun a b ↦ Record.cellOrder key.name .ascending a b ≠ .eq

namespace Sorting.IsStrictOn

variable {table : Table} {rows kept : List Record} {s : Sorting} {f key : Field}

/-- Some of the rows, in any order. -/
theorem mono (h : s.IsStrictOn table rows f key) (hkept : kept.Subperm rows) :
    s.IsStrictOn table kept f key where
  toIsKeyed := h.toIsKeyed
  isExact := h.isExact
  key_isExact := h.key_isExact
  isTyped r hr := h.isTyped r (hkept.subset hr)
  distinct := by
    obtain ⟨rows', hperm, hsublist⟩ := hkept
    have hrows' := h.distinct.sublist hsublist
    exact hperm.pairwise hrows' fun h heq ↦ h (Std.OrientedCmp.eq_symm heq)

theorem haveKeys_stored (h : s.IsStrictOn table rows f key) :
    HaveKeys f key (rows.map Record.stored) where
  haveType := Record.IsTyped.haveType_stored h.isTyped h.declares.mem h.isExact
  key_haveType := Record.IsTyped.haveType_stored h.isTyped h.key_mem h.key_isExact
  pairwise := by
    rw [List.pairwise_map]
    apply h.distinct.imp_of_mem
    intro a b ha hb hne
    rwa [Record.cellOrder, (h.isTyped a ha).cell_stored h.key_mem h.key_isExact,
      (h.isTyped b hb).cell_stored h.key_mem h.key_isExact]

/-- However the rows are found, they are given back in the one order that there is. -/
theorem map_stored_sortRows (h : s.IsStrictOn table rows f key) {terms : List OrderTerm}
    (hterms : s.terms table = .ok terms) {found : List Record} (hfound : found.Perm rows) :
    (sortRows terms found).map Record.stored =
      sortRows terms (rows.map Record.stored) := by
  have hcells : ∀ t ∈ terms, ∀ r ∈ found, t.column.cell r.stored = t.column.cell r := by
    intro t ht r hr
    have hr := h.isTyped r (hfound.mem_iff.mp hr)
    have hfield : t.column.field = f ∨ t.column.field = key := by
      rw [h.terms_eq, Except.ok.injEq] at hterms
      subst hterms
      split at ht
      · exact Or.inl (by rw [List.mem_singleton.mp ht])
      · rcases List.mem_cons.mp ht with rfl | ht
        · exact Or.inl rfl
        · exact Or.inr (by rw [List.mem_singleton.mp ht])
    rcases hfield with hfield | hfield
    · rw [Column.cell, Column.cell, hfield, hr.cell_stored h.declares.mem h.isExact]
    · rw [Column.cell, Column.cell, hfield, hr.cell_stored h.key_mem h.key_isExact]
  rw [sortRows_map_stored hcells]
  exact h.haveKeys_stored.sortRows_perm_eq h.toIsKeyed hterms (hfound.map _)

end Sorting.IsStrictOn

end RecordQuery
