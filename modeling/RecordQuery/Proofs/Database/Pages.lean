import RecordQuery.Proofs.Database.Listing
import RecordQuery.Proofs.PageArgument
import RecordQuery.Repository

namespace RecordQuery

/-!
# Pages of a table

The pages of a request to a table cut one list of rows into pieces, in
which every row that the clause selects has one place. The list depends
neither on the order in which the rows were inserted nor on how the
database finds them; what does is only whether it gives up a statement with
a pattern that is too long.
-/

open Outcome

/-- What is given back of the rows that a clause selects. -/
def Clause.select (d : Clause) (rows : List Record) : List Record :=
  (rows.filter d.selects).map Record.stored

theorem Sorting.IsStrictOn.filter {table : Table} {rows : List Record} {s : Sorting}
    {f key : Field} (h : s.IsStrictOn table rows f key) (d : Clause) :
    s.IsStrictOn table (rows.filter d.selects) f key :=
  h.mono (List.filter_sublist (p := d.selects)).subperm

theorem Sorting.IsStrictOn.haveKeys_select {table : Table} {rows : List Record} {s : Sorting}
    {f key : Field} (h : s.IsStrictOn table rows f key) (d : Clause) :
    HaveKeys f key (d.select rows) := (h.filter d).haveKeys_stored

theorem Pagination.map_cut {α β : Type} (p : Pagination) (f : α → β) (items : List α) :
    (p.cut items).map f = p.cut (items.map f) := by
  rw [cut, cut, List.map_take, List.map_drop]

namespace Sorting.IsStrictOn

variable {table : Table} {rows inserted : List Record} {f key : Field} {d : Clause}
  {terms : List OrderTerm}

/-- However the rows were inserted and are found, they are given back in one order. -/
theorem map_stored_ordered {sort : Sorting} (h : sort.IsStrictOn table rows f key)
    (hterms : sort.terms table = .ok terms) (hperm : rows.Perm inserted) (engine : Engine)
    (reading : Reading) :
    (Selection.ordered ⟨engine, table, inserted, d, terms⟩ reading).map Record.stored =
      sortRows terms (d.select rows) := by
  have hfound := engine.find_perm ⟨table, d, terms, reading⟩ inserted
  exact (h.filter d).map_stored_sortRows hterms (hfound.trans (hperm.symm.filter _))

/-- What a listing of the rows ends in. -/
theorem list_ends {s : Specification} (h : s.sort.IsStrictOn table rows f key)
    (hd : s.clause table = .ok d) (hterms : s.sort.terms table = .ok terms)
    (hperm : rows.Perm inserted) (engine : Engine) : ∃ counted paged,
      (Statement.counting table d).Ends engine.limits (d.select rows).length counted ∧
      (Statement.paging table d terms s.pagination).Ends engine.limits
        ⟨s.pagination.cut (sortRows terms (d.select rows)), (d.select rows).length, s.pagination,
          s.sort⟩ paged ∧
      s.list (Selection.all engine table inserted) = counted >>= fun _ ↦ paged := by
  have hlength : (inserted.filter d.selects).length = (d.select rows).length := by
    rw [Clause.select, List.length_map, (hperm.filter _).length_eq]
  have hcount := Selection.count_ends ⟨engine, table, inserted, d, []⟩
  have hpage := Selection.page_ends ⟨engine, table, inserted, d, terms⟩ s.pagination.offset
    s.pagination.limit
  change Statement.Ends _ _ (inserted.filter d.selects).length _ at hcount
  rw [hlength] at hcount
  rw [← Pagination.cut, Pagination.map_cut, h.map_stored_ordered hterms hperm] at hpage
  let listing (items : List Record) : Listing Record :=
    ⟨items, (d.select rows).length, s.pagination, s.sort⟩
  refine ⟨_, _, hcount, hpage.map listing, ?_⟩
  rw [Specification.list_eq_bind hd hterms]
  cases htotal : Selection.count ⟨engine, table, inserted, d, []⟩ with
  | error e => rfl
  | ok total =>
      obtain rfl : total = (d.select rows).length := (htotal ▸ hcount).eq_of_ok
      rfl

end Sorting.IsStrictOn

/-! ## Pages one after another -/

/-- A record goes before another by the field of a sort, or by a key if they are equal in it. -/
def Sorting.Precedes (s : Sorting) (key : Text) (a b : Record) : Prop :=
  s.direction.order (a.value s.field) (b.value s.field) = .ok .lt ∨
    s.direction.order (a.value s.field) (b.value s.field) = .ok .eq ∧
      Value.naturalOrder (a.value key) (b.value key) = .ok .lt

theorem HaveKeys.precedes {f key : Field} {rows : List Record} (h : HaveKeys f key rows)
    {s : Sorting} (hf : f.name = s.field) {a b : Record} (ha : a ∈ rows) (hb : b ∈ rows)
    (hlt : Record.keyedOrder f.name s.direction key.name a b = .lt) :
    s.Precedes key.name a b := by
  have hfield : s.direction.order (a.value s.field) (b.value s.field) =
      .ok (Record.cellOrder f.name s.direction a b) := by
    rw [← hf, Direction.order, h.haveType.naturalOrder_eq ha hb]
    rfl
  rw [Record.keyedOrder_eq, Ordering.then_eq_lt] at hlt
  rw [Sorting.Precedes, hfield, h.key_haveType.naturalOrder_eq ha hb]
  simpa using hlt

namespace Repository

variable {r : Repository} {defaultSort query : Text} {s : Specification}

theorem getMany_eq (h : Specification.ofQuery r.table.schema defaultSort r.registry query = .ok s) :
    r.getMany query defaultSort = s.list (Selection.all r.engine r.table r.rows) := by
  rw [getMany, h]
  rfl

theorem getWhere_ends (d : Clause) : ∃ found, found.Perm (d.select r.rows) ∧
    Statement.Ends ⟨r.table, d, [], .rows⟩ r.engine.limits found (r.getWhere [d]) := by
  have hrestricted : r.restricted [d] = ⟨r.engine, r.table, r.rows, d, []⟩ := by
    rw [restricted, List.flatten_singleton]
    rfl
  have hfetch := Selection.fetch_ends (r.restricted [d])
  have hperm := Selection.ordered_perm (r.restricted [d]) .rows
  rw [← getWhere, hrestricted] at hfetch
  rw [hrestricted] at hperm
  exact ⟨_, hperm.map Record.stored, hfetch⟩

end Repository

/-- One list of rows, and the pages that it is cut into. -/
theorem Sorting.IsStrictOn.exists_pages {table : Table} {rows : List Record} {s : Specification}
    {f key : Field} (h : s.sort.IsStrictOn table rows f key) {d : Clause}
    (hd : s.clause table = .ok d) {terms : List OrderTerm}
    (hterms : s.sort.terms table = .ok terms) :
    ∃ (ordered : List Record) (page : Nat → Listing Record),
      ordered.Perm (d.select rows) ∧ ordered.Pairwise (s.sort.Precedes key.name) ∧
      (∀ n, (page n).totalCount = (d.select rows).length ∧
        (page n).pageCount = .ok (((d.select rows).length ⌈/⌉ s.pagination.size : Nat) : Int)) ∧
      ((List.range' 1 ((d.select rows).length ⌈/⌉ s.pagination.size)).flatMap
        fun n ↦ (page n).items) = ordered ∧
      ∀ (engine : Engine) (inserted : List Record) (n : Nat), rows.Perm inserted →
        ∃ counted paged,
          (Statement.counting table d).Ends engine.limits (d.select rows).length counted ∧
          (Statement.paging table d terms (s.atPage n).pagination).Ends engine.limits
            (page n) paged ∧
          (s.atPage n).list (Selection.all engine table inserted) =
            counted >>= fun _ ↦ paged := by
  have hkeys := h.haveKeys_select d
  let ordered : List Record := sortRows terms (d.select rows)
  have hperm : ordered.Perm (d.select rows) := List.mergeSort_perm _ _
  let page (n : Nat) : Listing Record :=
    ⟨(s.atPage n).pagination.cut ordered, (d.select rows).length, (s.atPage n).pagination, s.sort⟩
  refine ⟨ordered, page, hperm, ?_, ?_, ?_, ?_⟩
  · apply (hkeys.pairwise_sortRows h.toIsKeyed hterms).imp_of_mem
    intro a b ha hb hlt
    exact hkeys.precedes h.declares.name_eq (hperm.mem_iff.mp ha) (hperm.mem_iff.mp hb) hlt
  · intro n
    exact ⟨rfl, pageCount_eq _ s.pagination.size_pos⟩
  · have hlength : (d.select rows).length = ordered.length := hperm.length_eq.symm
    rw [hlength]
    exact Pagination.flatMap_cut_all s.pagination.size_pos ordered
  · intro engine inserted n hinserted
    exact list_ends (s := s.atPage n) h hd hterms hinserted engine

/-! ## Customers -/

theorem Value.eq_of_cellOrder_eq {v w : Value} (hv : v = .null ∨ v.HasType .int)
    (hw : w = .null ∨ w.HasType .int)
    (h : Cell.linearOrder (Cell.ofValue v) (Cell.ofValue w) = .eq) : v = w := by
  rcases hv with rfl | hv
  · rcases hw with rfl | hw
    · rfl
    · cases hw
      cases h
  · rcases hw with rfl | hw
    · cases hv
      cases h
    · cases hv with
      | int m =>
          cases hw with
          | int n =>
              rw [← Cell.order_eq_linearOrder rfl rfl] at h
              have hcompare : compare m n = .eq := h
              rw [compare_eq_iff_eq.mp hcompare]

theorem Catalog.isStrictOn_customers {rows : List Record}
    (htyped : ∀ r ∈ rows, r.IsTyped customers.schema)
    (hids : rows.Pairwise fun a b ↦ a.value "id".toList ≠ b.value "id".toList) {s : Sorting}
    {f : Field} (hf : customers.schema.Declares s.field f)
    (hsort : s.field ≠ "credit_limit".toList) :
    s.IsStrictOn customers rows f (key "id") where
  declares := hf
  isExact := by
    have hexact : ∀ f ∈ customers.schema.fields, f.name ≠ "credit_limit".toList →
        f.type.isExact = true := by decide +kernel
    exact hexact f hf.mem (hf.name_eq ▸ hsort)
  key_eq := by decide +kernel
  key_isExact := rfl
  isTyped := htyped
  distinct := by
    have hkey : key "id" ∈ customers.schema.fields := by decide +kernel
    apply hids.imp_of_mem
    intro a b ha hb hne heq
    exact hne (Value.eq_of_cellOrder_eq (htyped a ha _ hkey) (htyped b hb _ hkey) heq)

namespace Repository

/-- However the database finds the customers, and in whatever order these were inserted, a page of
a request is the same if it is given back: it counts what the clause selects, and the pages one
after another show each of these rows once, in a strict order. A page is not given back only if one
of its statements is refused or given up. -/
theorem getMany_pages_customers {rows : List Record} {registry : Registry}
    {query defaultSort : Text} {s : Specification} {d : Clause}
    (htyped : ∀ r ∈ rows, r.IsTyped Catalog.customers.schema)
    (hids : rows.Pairwise fun a b ↦ a.value "id".toList ≠ b.value "id".toList)
    (hquery : Specification.ofQuery Catalog.customers.schema defaultSort registry query = .ok s)
    (hclause : s.clause Catalog.customers = .ok d) (hsort : s.sort.field ≠ "credit_limit".toList) :
    let asks (q : Text) (n : Nat) : Prop :=
      Specification.ofQuery Catalog.customers.schema defaultSort registry q = .ok (s.atPage n)
    let matching := (rows.filter d.selects).map Record.stored
    (∀ n : Nat, (n : Int) ≤ int64Max → ((s.atPage n).pagination.offset : Int) ≤ int64Max →
      asks (Arguments.withPage query n) n) ∧
    ∃ (terms : List OrderTerm) (ordered : List Record) (page : Nat → Listing Record),
      s.sort.terms Catalog.customers = .ok terms ∧
      ordered.Perm matching ∧ ordered.Pairwise (s.sort.Precedes "id".toList) ∧
      (∀ n, (page n).totalCount = matching.length ∧
        (page n).pageCount = .ok ((matching.length ⌈/⌉ s.pagination.size : Nat) : Int)) ∧
      ((List.range' 1 (matching.length ⌈/⌉ s.pagination.size)).flatMap
        fun n ↦ (page n).items) = ordered ∧
      ∀ (engine : Engine) (inserted : List Record), rows.Perm inserted →
        let r : Repository := ⟨engine, Catalog.customers, inserted, registry⟩
        (∃ found, found.Perm matching ∧
          Statement.Ends ⟨Catalog.customers, d, [], .rows⟩ engine.limits found
            (r.getWhere [d])) ∧
        ∀ q n, asks q n → ∃ counted paged,
          (Statement.counting Catalog.customers d).Ends engine.limits matching.length counted ∧
          (Statement.paging Catalog.customers d terms (s.atPage n).pagination).Ends engine.limits
            (page n) paged ∧
          r.getMany q defaultSort = counted >>= fun _ ↦ paged := by
  intro asks matching
  have hwell := Specification.isWellFormed_ofQuery Catalog.hasDistinctNames_customers hquery
  obtain ⟨f, hf⟩ := hwell.sort
  have hstrict := Catalog.isStrictOn_customers htyped hids hf hsort
  obtain ⟨ordered, page, hordered, hsorted, htotal, hall, hends⟩ :=
    hstrict.exists_pages hclause hstrict.terms_eq
  refine ⟨fun n ↦ Specification.ofQuery_withPage hquery, _, ordered, page, hstrict.terms_eq,
    hordered, hsorted, htotal, hall, ?_⟩
  intro engine inserted hinserted r
  constructor
  · obtain ⟨found, hfound, hgiven⟩ := getWhere_ends (r := r) d
    exact ⟨found, hfound.trans ((hinserted.symm.filter _).map _), hgiven⟩
  · intro q n h
    obtain ⟨counted, paged, hcounted, hpaged, hlist⟩ := hends engine inserted n hinserted
    exact ⟨counted, paged, hcounted, hpaged, (getMany_eq (r := r) h).trans hlist⟩

/-- Three customers on pages of two, inserted in two orders, of whom two have no address. -/
theorem getMany_pages_leapDay :
    let ada := Catalog.customer 3 "Ada" "C-3" .null
    let bo := Catalog.customer 1 "Bo" "C-1" (.text "a".toList)
    let ann := Catalog.customer 2 "Ann" "C-2" .null
    let r (engine : Engine) (rows : List Record) : Repository :=
      ⟨engine, Catalog.customers, rows, Registry.standard⟩
    let query (n : Nat) := Arguments.withPage
      "status=active||eq&sortBy=email&sortDirection=desc&pageSize=2&pageNumber=7".toList n
    ∃ ordered, ordered.Perm ([ada, bo, ann].map Record.stored) ∧
      ordered.Pairwise (Sorting.Precedes ⟨"email".toList, .descending⟩ "id".toList) ∧
      ∃ page : Nat → Listing Record, (page 1).totalCount = 3 ∧
        (page 1).items ++ (page 2).items = ordered ∧
        ∀ engine : Engine, engine.limits = .standard →
          ∀ rows ∈ [[ada, bo, ann], [bo, ann, ada]], ∀ n < 9,
            (r engine rows).getMany (query n) [] = .ok (page n) := by
  intro ada bo ann r query
  let s : Specification := ⟨⟨7, 2, by decide⟩, ⟨"email".toList, .descending⟩, none,
    [⟨"status".toList, ["active".toList], .equals⟩]⟩
  have hquery : Specification.ofQuery Catalog.customers.schema [] Registry.standard
      "status=active||eq&sortBy=email&sortDirection=desc&pageSize=2&pageNumber=7".toList =
        .ok s := by
    decide +kernel
  have hvalues : ([.int 3, .int 1, .int 2] : List Value).Pairwise (· ≠ ·) := by simp
  have hids : [ada, bo, ann].Pairwise fun a b ↦ a.value "id".toList ≠ b.value "id".toList :=
    List.pairwise_map.mp hvalues
  obtain ⟨d, hclause, hselects, hshort, hcount, hpages⟩ : ∃ d, s.clause Catalog.customers = .ok d ∧
      (∀ r ∈ [ada, bo, ann], d.selects r = true) ∧ d.isLong .standard = false ∧
      (Statement.counting Catalog.customers d).fault? .standard = none ∧
      ∀ terms, s.sort.terms Catalog.customers = .ok terms → ∀ n < 9,
        (Statement.paging Catalog.customers d terms (s.atPage n).pagination).fault? .standard =
          none := by
    refine ⟨_, rfl, by decide +kernel, by decide +kernel, by decide +kernel, ?_⟩
    rintro _ ⟨⟩
    decide +kernel
  obtain ⟨hasks, terms, ordered, page, hterms, hperm, hsorted, htotal, hall, hends⟩ :=
    getMany_pages_customers
      (by decide +kernel : ∀ r ∈ [ada, bo, ann], r.IsTyped Catalog.customers.schema) hids hquery
      hclause (by decide)
  have hmatching : [ada, bo, ann].filter d.selects = [ada, bo, ann] :=
    List.filter_eq_self.mpr hselects
  rw [hmatching] at hperm htotal hall
  refine ⟨ordered, hperm, hsorted, page, (htotal 1).1, ?_, ?_⟩
  · rw [← hall]
    simp [s, Nat.ceilDiv_eq_add_pred_div, List.range']
  · intro engine hlimits rows hrows n hn
    have hinserted : [ada, bo, ann].Perm rows := by
      rcases List.mem_cons.mp hrows with rfl | hrows
      · exact .refl _
      · rw [List.mem_singleton.mp hrows]
        exact (List.perm_append_comm : ([ada] ++ [bo, ann]).Perm ([bo, ann] ++ [ada]))
    have hasked := hasks n (by rw [int64Max]; omega)
      (by simp only [Specification.atPage, Pagination.offset, s, int64Max]; omega)
    obtain ⟨counted, paged, hcounted, hpaged, hget⟩ := (hends engine rows hinserted).2 _ n hasked
    rw [hlimits] at hcounted hpaged
    rw [hget, hcounted.eq_ok hcount hshort]
    exact hpaged.eq_ok (hpages terms hterms n hn) hshort

/-- One customer, and more alternatives than the database takes in one clause. -/
theorem getMany_refused :
    let r : Repository :=
      ⟨.standard, Catalog.customers, [Catalog.customer 1 "Ada" "C-1" .null], Registry.standard⟩
    let query := "id=".toList ++ Text.joinWith ['|'] (List.replicate 501 ['0']) ++ "||neq".toList
    (∀ a ∈ r.rows, a.IsTyped Catalog.customers.schema) ∧
      (∃ s d, Specification.ofQuery Catalog.customers.schema "id".toList r.registry query = .ok s ∧
        s.clause Catalog.customers = .ok d ∧ s.sort.field = "id".toList) ∧
      r.getMany query "id".toList = .error .statementRefused := by
  intro r query
  refine ⟨by decide +kernel, ?_, ?_⟩
  · have h : (Specification.ofQuery Catalog.customers.schema "id".toList r.registry query >>=
        fun s ↦ (s.clause Catalog.customers).map fun _ ↦ s.sort.field) = .ok "id".toList := by
      decide +kernel
    obtain ⟨s, hs, h⟩ := bind_eq_ok_iff.mp h
    obtain ⟨d, hd, hfield⟩ := map_eq_ok_iff.mp h
    exact ⟨s, d, hs, hd, hfield⟩
  · have h : (r.getMany query "id".toList).map Listing.totalCount = .error .statementRefused := by
      decide +kernel
    exact map_eq_error_iff.mp h

end Repository

end RecordQuery
