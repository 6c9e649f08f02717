import RecordQuery.Proofs.Compilable
import RecordQuery.Proofs.FilterOrder
import RecordQuery.Proofs.PageArgument
import RecordQuery.Proofs.Rejection

namespace RecordQuery

/-!
# The order of arguments

The segments of a query may come in any order, if each of them is cut and
decoded by itself and no key is repeated. Then the order of the arguments
is that of the filters and nothing else, and a record passes filters in
any order, as long as none of them fails on it.
-/

open Outcome

/-! ## Arguments in any order -/

namespace Arguments

variable {segments others : List Text}

theorem ofSegments_perm (h : segments.Perm others) :
    (ofSegments segments).Perm (ofSegments others) := h.filterMap _

theorem AreSeparate.of_perm (hsegments : AreSeparate segments) (h : segments.Perm others) :
    AreSeparate others where
  ampersand_notMem t ht := hsegments.ampersand_notMem t (h.mem_iff.mpr ht)
  head_ne t ht := hsegments.head_ne t (h.mem_iff.mpr ht)
  nodup := ((ofSegments_perm h).map Prod.fst).nodup_iff.mp hsegments.nodup

end Arguments

/-! ## Specifications of arguments in any order -/

theorem Filter.exists_ofArguments_of_perm {schema : Schema} {registry : Registry}
    {args others : Arguments} (hperm : args.Perm others) {filters : List Filter}
    (h : ofArguments schema registry args = .ok filters) :
    ∃ filters', ofArguments schema registry others = .ok filters' ∧ filters.Perm filters' :=
  exists_mapM_of_perm (hperm.filter _) h

namespace Specification

variable {schema : Schema} {defaultSort : Text} {registry : Registry} {args others : Arguments}

section

variable (hperm : args.Perm others) (hnodup : args.keys.Nodup)

include hperm hnodup

theorem exists_ofArguments_of_perm {s : Specification}
    (h : ofArguments schema defaultSort registry args = .ok s) :
    ∃ filters, ofArguments schema defaultSort registry others = .ok { s with filters := filters } ∧
      s.filters.Perm filters := by
  have hget := Keyed.get?_eq_of_perm hnodup hperm
  obtain ⟨hpagination, hsort, hsearch, hfilters⟩ := ofArguments_eq_ok_iff.mp h
  obtain ⟨filters, hothers, hfiltersPerm⟩ := Filter.exists_ofArguments_of_perm hperm hfilters
  refine ⟨filters, ofArguments_eq_ok_iff.mpr ⟨?_, ?_, ?_, hothers⟩, hfiltersPerm⟩
  · exact (Pagination.ofArguments_congr (hget _) (hget _)).trans hpagination
  · exact (Sorting.ofArguments_congr (hget _) (hget _) _ _).trans hsort
  · exact (Search.ofArguments_congr (hget _) _).trans hsearch

/-- A fault that is none of a filter comes before all filters are read. -/
theorem ofArguments_eq_error_of_perm {e : Fault} (he : ¬ e.IsOfFilter)
    (h : ofArguments schema defaultSort registry args = .error e) :
    ofArguments schema defaultSort registry others = .error e := by
  have hget := Keyed.get?_eq_of_perm hnodup hperm
  rw [ofArguments, Pagination.ofArguments_congr (hget _) (hget _),
    Sorting.ofArguments_congr (hget _) (hget _), Search.ofArguments_congr (hget _)]
  refine bind_eq_error_iff.mpr ((bind_eq_error_iff.mp h).imp_right ?_)
  rintro ⟨pagination, hpagination, h⟩
  refine ⟨pagination, hpagination, bind_eq_error_iff.mpr ((bind_eq_error_iff.mp h).imp_right ?_)⟩
  rintro ⟨sort, hsort, h⟩
  refine ⟨sort, hsort, bind_eq_error_iff.mpr ((bind_eq_error_iff.mp h).imp_right ?_)⟩
  rintro ⟨search, hsearch, h⟩
  rcases bind_eq_error_iff.mp h with hfilters | ⟨filters, -, h⟩
  · exact absurd (Filter.faultsIn_ofArguments schema registry args e hfilters) he
  · cases h

end

/-- A specification that was read from a query lists records on which nothing fails. -/
theorem succeeds_list_of_ofQuery (hnames : ∀ f ∈ schema.fields, normalName f.name ≠ [])
    {query : Text} {s : Specification} (h : ofQuery schema defaultSort registry query = .ok s)
    {records : List Record} (hfilters : ∀ f ∈ s.filters, f.IsDecided schema records)
    (hsearch : ∀ q ∈ s.search, q.IsDecided schema records)
    (hsort : s.sort.IsDecided schema records) :
    Succeeds (s.list (⟨schema, records⟩ : RecordList)) := by
  obtain ⟨⟨f, hf⟩, hfields, -⟩ := names_ofQuery (P := fun name ↦ ∃ g, schema.resolve? name = some g)
    (Schema.exists_resolve?_name hnames) h
  have hcompiled : Succeeds (s.condition schema) := by
    rw [succeeds_condition_iff fun q hq ↦ Search.succeeds_alternative (hfields q hq)]
    intro f hf
    obtain ⟨a, ha, -⟩ := hfilters f hf
    exact ⟨a, ha⟩
  obtain ⟨c, hc⟩ := hcompiled
  exact RecordList.succeeds_list hc (isDecided_condition hfilters hsearch hc) hf hsort

/-- Queries of the same segments in two orders are accepted alike, ask for the same page, order and
quick search, and have the same filters in two orders. They list the same records, if no filter
fails on one of these, and there is a listing if neither the quick search nor a comparison of the
sort fails. A fault that is not one of a filter is the same for both. -/
theorem ofQuery_perm {segments others : List Text} (hperm : segments.Perm others)
    (hsegments : Arguments.AreSeparate segments) (schema : Schema) (defaultSort : Text)
    (registry : Registry) :
    let outcome (segments : List Text) : Outcome Specification :=
      ofQuery schema defaultSort registry (Text.joinWith ['&'] segments)
    (Succeeds (outcome segments) ↔ Succeeds (outcome others)) ∧
      (∀ s t, outcome segments = .ok s → outcome others = .ok t →
        t.pagination = s.pagination ∧ t.sort = s.sort ∧ t.search = s.search ∧
          s.filters.Perm t.filters ∧
          ∀ records, (∀ f ∈ s.filters, f.IsDecided schema records) →
            t.list (⟨schema, records⟩ : RecordList) = s.list (⟨schema, records⟩ : RecordList) ∧
            ((∀ f ∈ schema.fields, normalName f.name ≠ []) →
              (∀ q ∈ s.search, q.IsDecided schema records) → s.sort.IsDecided schema records →
              Succeeds (s.list (⟨schema, records⟩ : RecordList)))) ∧
      ∀ e, ¬ e.IsOfFilter → (outcome segments = .error e ↔ outcome others = .error e) := by
  intro outcome
  have hothers := hsegments.of_perm hperm
  have hargs := Arguments.ofSegments_perm hperm
  have houtcome : ∀ {ts : List Text}, Arguments.AreSeparate ts → outcome ts =
      ofArguments schema defaultSort registry (Arguments.ofSegments ts) := by
    intro ts hts
    simp only [outcome, ofQuery, hts.ofQuery_eq]
  refine ⟨?_, ?_, ?_⟩
  · rw [houtcome hsegments, houtcome hothers]
    constructor
    · rintro ⟨s, hs⟩
      obtain ⟨filters, hfilters, -⟩ := exists_ofArguments_of_perm hargs hsegments.nodup hs
      exact ⟨_, hfilters⟩
    · rintro ⟨s, hs⟩
      obtain ⟨filters, hfilters, -⟩ := exists_ofArguments_of_perm hargs.symm hothers.nodup hs
      exact ⟨_, hfilters⟩
  · intro s t hs ht
    have hs' := houtcome hsegments ▸ hs
    obtain ⟨filters, hfilters, hfiltersPerm⟩ :=
      exists_ofArguments_of_perm hargs hsegments.nodup hs'
    cases (houtcome hothers ▸ ht).symm.trans hfilters
    refine ⟨rfl, rfl, rfl, hfiltersPerm, fun records hdecided ↦ ⟨?_, ?_⟩⟩
    · exact RecordList.list_eq_of_perm hfiltersPerm hdecided
    · intro hnames hsearch hsort
      exact succeeds_list_of_ofQuery hnames hs hdecided hsearch hsort
  · intro e he
    rw [houtcome hsegments, houtcome hothers]
    exact ⟨ofArguments_eq_error_of_perm hargs hsegments.nodup he,
      ofArguments_eq_error_of_perm hargs.symm hothers.nodup he⟩

/-- Segments in two orders, one of them no argument, and a page size that is rejected before and
behind a filter that is rejected too. -/
theorem ofQuery_perm_customers :
    let read (segments : List Text) : Outcome Specification :=
      ofQuery Catalog.customers.schema "id".toList Registry.standard (Text.joinWith ['&'] segments)
    let segments := ["status=Active%7CNew||eq".toList, "pageSize=1".toList, "%".toList,
      "query=a".toList, "sortBy=employees".toList, "employees=5||gte".toList]
    let active : Filter := ⟨"status".toList, ["Active".toList, "New".toList], .equals⟩
    let large : Filter := ⟨"employees".toList, ["5".toList], .greaterOrEqual⟩
    let asked (filters : List Filter) : Specification := ⟨⟨1, 1, by decide⟩,
      ⟨"employees".toList, .ascending⟩, some ⟨"a".toList, Catalog.customers.schema.searchable⟩,
      filters⟩
    let customer (status : String) (employees : Int) : Record :=
      [("name".toList, .text "Ada".toList), ("status".toList, .text status.toList),
        ("employees".toList, .int employees)]
    let l : RecordList := ⟨Catalog.customers.schema,
      [customer "new" 9, customer "old" 7, customer "Active" 5]⟩
    read segments = .ok (asked [active, large]) ∧
      read segments.reverse = .ok (asked [large, active]) ∧
      (asked [large, active]).list l = (asked [active, large]).list l ∧
      Succeeds ((asked [active, large]).list l) ∧
      read ["pageSize=0".toList, "status=A".toList] = reject .invalidPageSize ∧
      read ["status=A".toList, "pageSize=0".toList] = reject .invalidPageSize := by
  intro read segments active large asked customer l
  have hsegments : Arguments.AreSeparate segments := by decide +kernel
  have hread : read segments = .ok (asked [active, large]) := by decide +kernel
  have hreverse : read segments.reverse = .ok (asked [large, active]) := by decide +kernel
  obtain ⟨-, haccepted, -⟩ := ofQuery_perm (List.reverse_perm segments).symm hsegments
    Catalog.customers.schema "id".toList Registry.standard
  obtain ⟨-, -, -, -, hlist⟩ := haccepted _ _ hread hreverse
  obtain ⟨hsame, hsucceeds⟩ := hlist l.records (by decide +kernel)
  have hlisting := hsucceeds Catalog.hasDistinctNames_customers.normalName_ne_nil
    (by decide +kernel) (by decide +kernel)
  have hpage : Arguments.AreSeparate ["pageSize=0".toList, "status=A".toList] := by decide +kernel
  have hreject : read ["pageSize=0".toList, "status=A".toList] = reject .invalidPageSize := by
    decide +kernel
  have hother : ¬ Fault.IsOfFilter (.rejected .invalidPageSize) := by
    rintro ⟨q, hq, hcode⟩
    cases hq
    exact hcode.elim nofun nofun
  obtain ⟨-, -, hfaults⟩ := ofQuery_perm (List.Perm.swap _ _ []) hpage
    Catalog.customers.schema "id".toList Registry.standard
  exact ⟨hread, hreverse, hsame, hlisting, hreject, (hfaults _ hother).mp hreject⟩

end Specification

end RecordQuery
