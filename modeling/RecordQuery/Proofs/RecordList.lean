import RecordQuery.Catalog
import RecordQuery.Proofs.Outcome
import RecordQuery.Proofs.Pages
import RecordQuery.Proofs.SortOrder
import RecordQuery.RecordList

namespace RecordQuery

/-!
# Listings of records in memory

The condition of a request and its sort make one list out of some records,
and every page of the request is cut out of this list.
-/

open Outcome

/-- Where a selection of items succeeds, the check of every item does. -/
theorem exists_of_keepWhere_eq_ok {α : Type} {p : α → Outcome Bool} {items kept : List α}
    (h : keepWhere p items = .ok kept) :
    ∃ q : α → Bool, (∀ a ∈ items, p a = .ok (q a)) ∧ kept = items.filter q := by
  have hchecked : ∀ a ∈ items, ∃ b, p a = .ok b := by
    induction items generalizing kept with
    | nil => simp
    | cons a as ih =>
        obtain ⟨b, hb, h⟩ := bind_eq_ok_iff.mp h
        obtain ⟨rest, hrest, -⟩ := bind_eq_ok_iff.mp h
        exact List.forall_mem_cons.mpr ⟨⟨b, hb⟩, ih hrest⟩
  have hq : ∀ a ∈ items, p a = .ok ((p a).toOption.getD false) := by
    intro a ha
    obtain ⟨b, hb⟩ := hchecked a ha
    rw [hb]
    rfl
  refine ⟨_, hq, ?_⟩
  rw [keepWhere_eq_filter hq] at h
  exact (Except.ok.inj h).symm

namespace RecordList

/-- A listing of records in memory, if its condition can be decided and they can be sorted. -/
theorem list_eq {l : RecordList} {s : Specification} {c : Condition}
    (hc : s.condition l.schema = .ok c) {p : Record → Bool}
    (hp : ∀ r ∈ l.records, c.holds r = .ok (p r)) {ordered : List Record}
    (hordered : s.sort.apply l.schema id (l.records.filter p) = .ok ordered) :
    s.list l = .ok ⟨s.pagination.cut ordered, (l.records.filter p).length, s.pagination,
      s.sort⟩ := by
  have hrestrict : l.restrict s = .ok ⟨l.schema, l.records.filter p⟩ := by
    rw [restrict, hc]
    change keepWhere c.holds l.records >>= _ = _
    rw [keepWhere_eq_filter hp]
    rfl
  have horder : orderBy ⟨l.schema, l.records.filter p⟩ s.sort = .ok ⟨l.schema, ordered⟩ := by
    rw [orderBy, hordered]
    rfl
  rw [Specification.list]
  change (l.restrict s >>= _) = _
  rw [hrestrict]
  change (orderBy ⟨l.schema, l.records.filter p⟩ s.sort >>= _) = _
  rw [horder, Pagination.cut, ← slice_ofNat]
  rfl

theorem list_eq_error {l : RecordList} {s : Specification} {e : Fault}
    (hc : s.condition l.schema = .error e) : s.list l = .error e := by
  change ((s.condition l.schema >>= _) >>= _) = _
  rw [hc]
  rfl

/-- A listing that succeeds decides the condition on every record and sorts what is kept. -/
theorem exists_of_list_eq_ok {l : RecordList} {s : Specification} {a : Listing Record}
    (h : s.list l = .ok a) : ∃ c, s.condition l.schema = .ok c ∧
      ∃ p : Record → Bool, (∀ r ∈ l.records, c.holds r = .ok (p r)) ∧
        ∃ ordered, s.sort.apply l.schema id (l.records.filter p) = .ok ordered := by
  obtain ⟨matching, hmatching, h⟩ := bind_eq_ok_iff.mp h
  obtain ⟨total, htotal, h⟩ := bind_eq_ok_iff.mp h
  obtain ⟨sorted, hsorted, -⟩ := bind_eq_ok_iff.mp h
  obtain ⟨c, hc, hmatching⟩ := bind_eq_ok_iff.mp hmatching
  obtain ⟨kept, hkept, hmatching⟩ := bind_eq_ok_iff.mp hmatching
  obtain ⟨p, hp, rfl⟩ := exists_of_keepWhere_eq_ok hkept
  cases hmatching
  obtain ⟨ordered, hordered, -⟩ := map_eq_ok_iff.mp hsorted
  exact ⟨c, hc, p, hp, ordered, hordered⟩

/-- The total of a listing is the number of the records that the condition accepts. -/
theorem totalCount_eq {l : RecordList} {s : Specification} {a : Listing Record}
    (h : s.list l = .ok a) {c : Condition} (hc : s.condition l.schema = .ok c)
    {p : Record → Bool} (hp : ∀ r ∈ l.records, c.holds r = .ok (p r)) :
    a.totalCount = l.records.countP p := by
  obtain ⟨c', hc', q, hq, ordered, hordered⟩ := exists_of_list_eq_ok h
  rw [hc, Except.ok.injEq] at hc'
  subst hc'
  have hsame : ∀ r ∈ l.records, q r = p r := fun r hr ↦
    Except.ok.inj ((hq r hr).symm.trans (hp r hr))
  rw [list_eq hc hq hordered, Except.ok.injEq] at h
  rw [← h, List.countP_eq_length_filter, List.filter_congr hsame]

end RecordList

namespace Sorting

theorem apply_perm {schema : Schema} {s : Sorting} {records ordered : List Record}
    (h : s.apply schema id records = .ok ordered) : ordered.Perm records := by
  obtain ⟨f, -, h⟩ := bind_eq_ok_iff.mp h
  exact sortOn_perm h

/-- Sorting records with values of one type, or none, leaves no record before one that goes
before it, if no clocks were put back between two of them. -/
theorem pairwise_apply {schema : Schema} {s : Sorting} {records ordered : List Record}
    (h : s.apply schema id records = .ok ordered) {f : Field}
    (hf : schema.resolve? s.field = some f) {type : FieldType}
    (hkeep : Record.KeepOrder f.name type records) :
    ordered.Pairwise fun a b ↦
      ∃ o, s.direction.order (a.value f.name) (b.value f.name) = .ok o ∧ o ≠ .gt := by
  have hordered := (apply_eq_mergeSort hf (List.map_id records ▸ hkeep)).symm.trans h
  rw [Except.ok.injEq] at hordered
  subst hordered
  apply (Sorted.pairwise_mergeSort (Record.fieldOrder f.name s.direction) records).imp_of_mem
  intro a b ha hb hle
  exact ⟨_, hkeep.order_eq (List.mem_mergeSort.mp ha) (List.mem_mergeSort.mp hb) _,
    Ordering.isLE_iff_ne_gt.mp hle⟩

end Sorting

namespace Specification

theorem condition_congr {schema : Schema} {s t : Specification} (hfilters : t.filters = s.filters)
    (hsearch : t.search = s.search) : t.condition schema = s.condition schema := by
  rw [condition, condition, hfilters, hsearch]

/-- The pages of a request cut one list into pieces, in which every record that the condition
accepts has a place of its own, and the list is in the order of the request. The total does not
depend on the page, its size or the order. -/
theorem pages_partition {l : RecordList} {s : Specification} {a : Listing Record}
    (h : s.list l = .ok a) :
    ∃ (c : Condition) (accepts : Record → Bool) (total : Nat) (ordered : List Record)
        (page : Nat → Listing Record),
      s.condition l.schema = .ok c ∧ (∀ r ∈ l.records, c.holds r = .ok (accepts r)) ∧
      total = l.records.countP accepts ∧
      s.sort.apply l.schema id (l.records.filter accepts) = .ok ordered ∧
      ordered.Perm (l.records.filter accepts) ∧
      (∀ f type, l.schema.resolve? s.sort.field = some f →
        Record.KeepOrder f.name type l.records →
        ordered.Pairwise fun a b ↦
          ∃ o, s.sort.direction.order (a.value f.name) (b.value f.name) = .ok o ∧ o ≠ .gt) ∧
      (∀ (t : Specification) (b : Listing Record), t.filters = s.filters → t.search = s.search →
        t.list l = .ok b → b.totalCount = total) ∧
      (∀ n, (s.atPage n).list l = .ok (page n) ∧
        (page n).items.length =
          min s.pagination.size (total - (n - 1) * s.pagination.size) ∧
        (page n).pageCount = .ok ((total ⌈/⌉ s.pagination.size : Nat) : Int) ∧
        (total ⌈/⌉ s.pagination.size < n → (page n).items = [])) ∧
      (page 0).items = (page 1).items ∧
      ((List.range' 1 (total ⌈/⌉ s.pagination.size)).flatMap fun n ↦ (page n).items) =
        ordered := by
  obtain ⟨c, hc, accepts, haccepts, ordered, hordered⟩ := RecordList.exists_of_list_eq_ok h
  have hperm := Sorting.apply_perm hordered
  have hlength : ordered.length = l.records.countP accepts := by
    rw [hperm.length_eq, List.countP_eq_length_filter]
  let page (n : Nat) : Listing Record :=
    ⟨(s.atPage n).pagination.cut ordered, ordered.length, (s.atPage n).pagination, s.sort⟩
  have hpage : ∀ n, (s.atPage n).list l = .ok (page n) := by
    intro n
    have hlist := RecordList.list_eq (s := s.atPage n) hc haccepts hordered
    rwa [← hperm.length_eq] at hlist
  refine ⟨c, accepts, ordered.length, ordered, page, hc, haccepts, hlength, hordered, hperm, ?_,
    ?_, ?_, Pagination.cut_zero s.pagination.size_pos ordered, ?_⟩
  · intro f type hf hkeep
    exact Sorting.pairwise_apply hordered hf (hkeep.of_subset (List.filter_subset_self _))
  · intro t b hfilters hsearch hb
    rw [hlength, RecordList.totalCount_eq hb (condition_congr hfilters hsearch ▸ hc) haccepts]
  · intro n
    exact ⟨hpage n, Pagination.length_cut _ ordered, pageCount_eq _ s.pagination.size_pos,
      Pagination.cut_eq_nil (p := (s.atPage n).pagination)⟩
  · exact Pagination.flatMap_cut_all s.pagination.size_pos ordered

theorem pages_partition_names :
    let schema := Schema.ofFields [("id".toList, .int), ("name".toList, .text)]
    let l : RecordList := ⟨schema, [[.int 1, .text ['b']], [.int 2, .text ['b']], [.int 3, .null],
      [.int 4, .text ['a']], [.int 5, .text ['b']]].map (Record.ofRow schema)⟩
    let s : Specification := ⟨⟨1, 3, by decide⟩, ⟨"name".toList, .descending⟩, none,
      [⟨"id".toList, ["2".toList], .notEquals⟩]⟩
    (∃ a, s.list l = .ok a) ∧ ∃ (ordered : List Record) (page : Nat → Listing Record),
      (∀ n, (s.atPage n).list l = .ok (page n)) ∧ (page 1).totalCount = 4 ∧
      (page 1).items.length = 3 ∧ (page 2).items.length = 1 ∧ (page 3).items = [] ∧
      (page 0).items = (page 1).items ∧ (page 1).items ++ (page 2).items = ordered ∧
      ordered.Pairwise fun a b ↦ ∃ o,
        Direction.descending.order (a.value "name".toList) (b.value "name".toList) = .ok o ∧
          o ≠ .gt := by
  intro schema l s
  obtain ⟨a, ha⟩ : ∃ a, s.list l = .ok a := ⟨_, rfl⟩
  obtain ⟨c, accepts, total, ordered, page, -, -, -, -, -, hsorted, htotal, hpage, hfirst, hall⟩ :=
    pages_partition ha
  have hfour : (page 1).totalCount = 4 := by
    rw [Except.ok.inj ((hpage 1).1.symm.trans rfl)]
    rfl
  obtain rfl : 4 = total := hfour.symm.trans (htotal _ _ rfl rfl (hpage 1).1)
  refine ⟨⟨a, ha⟩, ordered, page, fun n ↦ (hpage n).1, hfour, (hpage 1).2.1, (hpage 2).2.1,
    (hpage 3).2.2.2 (by decide), hfirst, ?_, ?_⟩
  · rw [← hall]
    simp [s, Nat.ceilDiv_eq_add_pred_div, List.range']
  · exact hsorted ⟨"name".toList, .text, false, "name".toList⟩ .text rfl (by decide +kernel)

end Specification

end RecordQuery
