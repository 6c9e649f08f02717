import RecordQuery.Proofs.Database.Clause
import RecordQuery.Proofs.Database.Statement
import RecordQuery.Proofs.Database.Stored
import RecordQuery.Proofs.RecordList

namespace RecordQuery

/-!
# Listings of records and of rows

A listing of a table and a listing of the same records in memory, put in
the order of their identifier, have the same records on the same page, in
the same order.
-/

open Outcome

/-! ## Sorting in memory -/

theorem HaveType.sortOn_eq {type : FieldType} {name : Text} {records : List Record}
    (h : HaveType type name records) (d : Direction) :
    sortOn (fun r ↦ r.value name) d records =
      .ok (records.mergeSort fun a b ↦ (Record.cellOrder name d a b).isLE) :=
  sortOn_eq_mergeSort (fun _ ha _ hb ↦ h.naturalRelation_eq ha hb)
    (fun a ha _ _ ↦ Value.keepOrder_of_isOf (h a ha) _) d

/-- The terms of an order sort rows like the sort of records in memory, which is stable. -/
theorem Sorting.IsKeyed.apply_eq_sortRows {table : Table} {s : Sorting} {f key : Field}
    (h : s.IsKeyed table f key) {type keyType : FieldType} {records : List Record}
    (hkeyType : HaveType keyType key.name records)
    (hsorted : records.Pairwise fun a b ↦ Record.cellOrder key.name .ascending a b = .lt)
    (htype : HaveType type f.name records) {terms : List OrderTerm}
    (hterms : s.terms table = .ok terms) :
    s.apply table.schema id records = .ok (sortRows terms records) := by
  have happly : s.apply table.schema id records =
      sortOn (fun r ↦ r.value f.name) s.direction records := by
    rw [apply, h.declares.require_eq]
    rfl
  rw [happly, htype.sortOn_eq, h.sortRows_eq hterms htype hkeyType]
  exact congrArg _ (Sorted.mergeSort_then_eq hsorted).symm

/-! ## Listings -/

/-- A listing of the rows of a table whose statements are not refused. -/
theorem Specification.list_eq_of_fault? {engine : Engine} {table : Table} {rows : List Record}
    {s : Specification} {d : Clause} (hd : s.clause table = .ok d) {terms : List OrderTerm}
    (hterms : s.sort.terms table = .ok terms)
    (hcount : engine.fault? (.counting table d) rows = none)
    (hpage : engine.fault? (.paging table d terms s.pagination) rows = none) :
    s.list (Selection.all engine table rows) =
      .ok ⟨(s.pagination.cut (Selection.ordered ⟨engine, table, rows, d, terms⟩
          (.window s.pagination.offset s.pagination.limit))).map Record.stored,
        (rows.filter d.selects).length, s.pagination, s.sort⟩ := by
  rw [list_eq_bind hd hterms, Selection.count_eq_ok ⟨engine, table, rows, d, []⟩ hcount]
  change (Selection.page ⟨engine, table, rows, d, terms⟩ _ _).map _ = _
  rw [Selection.page_eq_ok ⟨engine, table, rows, d, terms⟩ hpage]
  rfl

theorem Record.IsStorable.haveType {schema : Schema} {records : List Record}
    (h : ∀ r ∈ records, r.IsStorable schema) {f : Field} (hf : f ∈ schema.fields)
    (htype : f.type ≠ .decimal) : HaveType f.type f.name records :=
  fun r hr ↦ (h r hr f hf).imp_right fun hv ↦ hv.isOf htype

/-- The records of a table, put in the order of their identifier, are listed like its rows,
however the database finds these. -/
theorem Specification.alike_list {engine : Engine} {table : Table} {key : Field}
    (hkey : table.schema.identifier? = some key) (hkeyType : key.type ≠ .decimal)
    {rows records : List Record} (hperm : rows.Perm records)
    (hrecords : records.Pairwise fun a b ↦
      Value.naturalOrder (a.value key.name) (b.value key.name) = .ok .lt)
    (hstorable : ∀ r ∈ records, r.IsStorable table.schema)
    {s : Specification} (hs : s.IsWellFormed table.schema) (hportable : s.IsPortable table.schema)
    (hsort : ∀ f, table.schema.Declares s.sort.field f → f.type ≠ .decimal)
    (htaken : ∀ d terms, s.clause table = .ok d → s.sort.terms table = .ok terms →
      engine.fault? (.counting table d) rows = none ∧
        engine.fault? (.paging table d terms s.pagination) rows = none) :
    Alike (fun a b ↦ a.items ⊆ records ∧ b = a.map Record.stored)
      (s.list (⟨table.schema, records⟩ : RecordList))
      (s.list (Selection.all engine table rows)) := by
  have hclause := s.alike_clause (hportable.isShared hs)
  generalize hc : s.condition table.schema = x at hclause
  generalize hd : s.clause table = y at hclause
  cases hclause with
  | error e =>
      rw [RecordList.list_eq_error (l := ⟨table.schema, records⟩) hc, list_eq_error hd]
      exact .error e
  | @ok c d hagrees =>
      obtain ⟨f, hf⟩ := hs.sort
      have hkeyed : s.sort.IsKeyed table f key := ⟨hf, hkey⟩
      obtain ⟨terms, hterms⟩ : ∃ terms, s.sort.terms table = .ok terms := ⟨_, hkeyed.terms_eq⟩
      have hkept : ∀ r ∈ records.filter d.selects, r.IsStorable table.schema :=
        fun r hr ↦ hstorable r (List.mem_of_mem_filter hr)
      have hkeys := Record.IsStorable.haveType hkept (List.mem_of_find?_eq_some hkey) hkeyType
      have hfields := Record.IsStorable.haveType hkept hf.mem (hsort f hf)
      have hsorted := hkeys.pairwise_cellOrder (hrecords.filter _)
      have hdistinct : HaveKeys f key (records.filter d.selects) :=
        ⟨hfields, hkeys, hsorted.imp fun hlt heq ↦ nomatch hlt.symm.trans heq⟩
      have hmemory := RecordList.list_eq (l := ⟨table.schema, records⟩) hc
        (fun r hr ↦ hagrees r (hstorable r hr))
        (hkeyed.apply_eq_sortRows hkeys hsorted hfields hterms)
      obtain ⟨hcount, hpage⟩ := htaken d terms hd hterms
      have hdatabase := list_eq_of_fault? hd hterms hcount hpage
      have hperm : (rows.filter d.selects).Perm (records.filter d.selects) := hperm.filter _
      rw [Selection.ordered, hdistinct.sortRows_perm_eq hkeyed hterms
        ((engine.find_perm _ _).trans hperm), hperm.length_eq] at hdatabase
      rw [hmemory, hdatabase]
      refine .ok ⟨?_, rfl⟩
      intro r hr
      have hr : r ∈ records.filter d.selects :=
        List.mem_mergeSort.mp (List.mem_of_mem_drop (List.mem_of_mem_take hr))
      exact List.mem_of_mem_filter hr

/-! ## Customers -/

/-- Everything but a decimal comes back from the database as it was. -/
theorem Value.IsStorable.stored_eq {type : FieldType} {v : Value} (h : v.IsStorable type)
    (htype : type ≠ .decimal) : v.stored = v := by
  cases h with
  | decimal d => exact absurd rfl htype
  | @moment t h =>
      rw [stored, ← h]
  | text | int | bool | date => rfl

theorem Record.map_value_stored {schema : Schema} {records : List Record}
    (h : ∀ r ∈ records, r.IsStorable schema) {f : Field} (hf : f ∈ schema.fields)
    (htype : f.type ≠ .decimal) :
    (records.map stored).map (fun r ↦ r.value f.name) = records.map fun r ↦ r.value f.name := by
  rw [List.map_map]
  apply List.map_congr_left
  intro r hr
  rw [Function.comp_apply, value_stored]
  rcases h r hr f hf with hnull | hv
  · rw [hnull]
    rfl
  · exact hv.stored_eq htype

/-- A customer who signed on, and was put into the table, on a leap day. -/
def Catalog.customer (id : Int) (name code : String) (email : Value) : Record :=
  let day : Date := ⟨2024, 2, 29, by decide⟩
  let midnight : Value := .moment ⟨day, Clock.midnight, none⟩
  Record.ofRow customers.schema [.text name.toList, .text code.toList, email,
    .text "Active".toList, .int 7, .decimal (Decimal.ofInt 100), .bool true, .date day, .int id,
    midnight, midnight]

namespace Specification

/-- The customers of a query are the same in memory and in the database, on every page and in
the same order, or both complain of the same, if the database does not refuse what it is asked.
Neither codes nor missing values matter, nor how the database finds the rows. -/
theorem alike_list_customers {defaultSort : Text} {registry : Registry} {query : Text}
    {s : Specification}
    (hquery : ofQuery Catalog.customers.schema defaultSort registry query = .ok s)
    (hportable : s.IsPortable Catalog.customers.schema)
    (hsort : s.sort.field ≠ "credit_limit".toList) {rows records : List Record}
    (hstorable : ∀ r ∈ rows, r.IsStorable Catalog.customers.schema) (hperm : rows.Perm records)
    (hids : records.Pairwise fun a b ↦
      Value.naturalOrder (a.value "id".toList) (b.value "id".toList) = .ok .lt)
    {engine : Engine} (htaken : ∀ d terms, s.clause Catalog.customers = .ok d →
      s.sort.terms Catalog.customers = .ok terms →
      engine.fault? (.counting Catalog.customers d) rows = none ∧
        engine.fault? (.paging Catalog.customers d terms s.pagination) rows = none) :
    Alike (fun a b ↦ a.totalCount = b.totalCount ∧
        a.items.map (fun r ↦ r.value "id".toList) = b.items.map (fun r ↦ r.value "id".toList) ∧
        a.pageCount = b.pageCount)
      (s.list (⟨Catalog.customers.schema, records⟩ : RecordList))
      (s.list (Selection.all engine Catalog.customers rows)) := by
  have hstorable' : ∀ r ∈ records, r.IsStorable Catalog.customers.schema :=
    fun r hr ↦ hstorable r (hperm.mem_iff.mpr hr)
  have hkey : Catalog.customers.schema.identifier? = some (Catalog.key "id") := by
    decide +kernel
  have hdecimal : ∀ f ∈ Catalog.customers.schema.fields,
      f.name ≠ "credit_limit".toList → f.type ≠ .decimal := by decide +kernel
  refine (alike_list hkey nofun hperm hids hstorable'
    (isWellFormed_ofQuery Catalog.hasDistinctNames_customers hquery) hportable ?_ htaken).mono ?_
  · intro f hf
    exact hdecimal f hf.mem (hf.name_eq ▸ hsort)
  · rintro a b ⟨hitems, rfl⟩
    refine ⟨rfl, ?_, rfl⟩
    exact (Record.map_value_stored (fun r hr ↦ hstorable' r (hitems hr))
      (List.mem_of_find?_eq_some hkey) nofun).symm

theorem alike_list_customers_leapDay :
    let ada := Catalog.customer 3 "Ada" "C-3" .null
    let bo := Catalog.customer 1 "Bo" "C-1" (.text "a".toList)
    let ann := Catalog.customer 2 "Ann" "C-2" .null
    ∃ s, ofQuery Catalog.customers.schema "name".toList Registry.standard
        "status=active||eq&createdAt=2024-02-29||eq&query=A||name|email&sortBy=email".toList =
          .ok s ∧
      (∃ l, s.list (Selection.all .standard Catalog.customers [ada, bo, ann]) = .ok l ∧
        l.totalCount = 3) ∧
      Alike (fun a b ↦ a.totalCount = b.totalCount ∧
          a.items.map (fun r ↦ r.value "id".toList) = b.items.map (fun r ↦ r.value "id".toList) ∧
          a.pageCount = b.pageCount)
        (s.list (⟨Catalog.customers.schema, [bo, ann, ada]⟩ : RecordList))
        (s.list (Selection.all .standard Catalog.customers [ada, bo, ann])) := by
  intro ada bo ann
  have hquery : ofQuery Catalog.customers.schema "name".toList Registry.standard
      "status=active||eq&createdAt=2024-02-29||eq&query=A||name|email&sortBy=email".toList =
        .ok ⟨Pagination.standard, ⟨"email".toList, .ascending⟩,
          some ⟨"a".toList, ["name".toList, "email".toList]⟩,
          [⟨"status".toList, ["active".toList], .equals⟩,
            ⟨"created_at".toList, ["2024-02-29".toList], .equals⟩]⟩ := by
    decide +kernel
  refine ⟨_, hquery, ⟨_, list_eq_of_fault? rfl rfl ?_ ?_, ?_⟩,
    alike_list_customers hquery ?_ ?_ ?_ ?_ ?_ ?_⟩
  · decide +kernel
  · decide +kernel
  · decide +kernel
  · decide +kernel
  · decide +kernel
  · decide +kernel
  · exact (List.perm_append_comm : ([ada] ++ [bo, ann]).Perm _)
  · decide +kernel
  · intro d terms hd hterms
    cases hd
    cases hterms
    decide +kernel

end Specification

end RecordQuery
