import RecordQuery.Proofs.Database.Listing

namespace RecordQuery

/-!
# Steps of sources

A source is narrowed and put in order step by step. A list of records and
a selection of the same rows, taken through the same steps, keep the same
records. A list is in the order that was asked for last, and a selection in
the one that was asked for first, so that they have the same pages as long
as all steps that put them in order ask for the same one.
-/

open Outcome

namespace Source

/-- A step that narrows a source or puts it in order. -/
inductive Step where
  | restrict (s : Specification)
  | orderBy (s : Sorting)

section

variable {σ ρ : Type} [Source σ ρ]

def Step.run (source : σ) : Step → Outcome σ
  | restrict s => Source.restrict source s
  | orderBy s => Source.orderBy source s

/-- The source after some steps; the first one that fails ends them. -/
def run (source : σ) (steps : List Step) : Outcome σ := steps.foldlM Step.run source

theorem run_cons (source : σ) (step : Step) (steps : List Step) :
    run source (step :: steps) = step.run source >>= fun next ↦ run next steps :=
  List.foldlM_cons

end

namespace Step

def sorting? : Step → Option Sorting
  | restrict _ => none
  | orderBy s => some s

/-- A step that means the same to records in memory and to a database. -/
def IsShared (schema : Schema) : Step → Prop
  | restrict s => s.IsShared schema
  | orderBy s => ∀ f ∈ schema.resolve? s.field, f.type ≠ .decimal

instance {schema : Schema} : DecidablePred (IsShared schema)
  | restrict s => inferInstanceAs (Decidable (s.IsShared schema))
  | orderBy s => inferInstanceAs (Decidable (∀ f ∈ schema.resolve? s.field, f.type ≠ .decimal))

end Step

/-- The orders that steps ask for. -/
def sortings (steps : List Step) : List Sorting := steps.filterMap Step.sorting?

@[simp] theorem sortings_nil : sortings [] = [] := rfl

@[simp] theorem sortings_restrict (s : Specification) (steps : List Step) :
    sortings (.restrict s :: steps) = sortings steps := rfl

@[simp] theorem sortings_orderBy (s : Sorting) (steps : List Step) :
    sortings (.orderBy s :: steps) = s :: sortings steps := rfl

end Source

/-- Orders that are all by one field and in one direction. -/
def Sorting.AreBy (schema : Schema) (sorts : List Sorting) (f : Field) (d : Direction) : Prop :=
  ∀ s ∈ sorts, schema.resolve? s.field = some f ∧ s.direction = d

/-- The rows of a table, and the same records in the order of their identifier. -/
structure Table.Keeps (table : Table) (key : Field) (rows records : List Record) : Prop where
  distinctNames : table.schema.HasDistinctNames
  key_eq : table.schema.identifier? = some key
  key_type : key.type ≠ .decimal
  perm : rows.Perm records
  isStorable : ∀ r ∈ records, r.IsStorable table.schema
  pairwise : records.Pairwise fun a b ↦
    Value.naturalOrder (a.value key.name) (b.value key.name) = .ok .lt

namespace Table.Keeps

variable {table : Table} {key : Field} {rows records : List Record}

theorem haveType (h : table.Keeps key rows records) {f : Field} (hf : f ∈ table.schema.fields)
    (htype : f.type ≠ .decimal) : HaveType f.type f.name records :=
  Record.IsStorable.haveType h.isStorable hf htype

theorem key_haveType (h : table.Keeps key rows records) : HaveType key.type key.name records :=
  h.haveType (List.mem_of_find?_eq_some h.key_eq) h.key_type

theorem pairwise_cellOrder (h : table.Keeps key rows records) :
    records.Pairwise fun a b ↦ Record.cellOrder key.name .ascending a b = .lt :=
  h.key_haveType.pairwise_cellOrder h.pairwise

/-- What comes behind an order by the identifier does not matter. -/
theorem keyedOrder_then_eq (h : table.Keeps key rows records) {name : Text} {d : Direction}
    {a b : Record} (ha : a ∈ records) (hb : b ∈ records) (other : Text) (e : Direction) :
    (Record.keyedOrder name d key.name a b).then (Record.keyedOrder other e key.name a b) =
      Record.keyedOrder name d key.name a b := by
  cases horder : Record.keyedOrder name d key.name a b with
  | lt | gt => rfl
  | eq =>
      rw [Record.keyedOrder_eq, Ordering.then_eq_eq] at horder
      rw [Sorted.eq_of_pairwise_lt h.pairwise_cellOrder ha hb horder.2]
      have hrefl : Std.ReflCmp (Record.keyedOrder other e key.name) := inferInstance
      exact hrefl.compare_self

end Table.Keeps

/-- A list of records and a selection of rows that the same steps have led to. While no step has
put them in order the list is in that of the identifier. Later the selection is in the order that
was asked for first, and the list, too, if all steps asked for one order. -/
structure Tracks (engine : Engine) (table : Table) (key : Field) (rows records : List Record)
    (sorts : List Sorting) (l : RecordList) (s : Selection) : Prop where
  schema_eq : l.schema = table.schema
  engine_eq : s.engine = engine
  table_eq : s.table = table
  rows_eq : s.rows = rows
  perm : (records.filter s.clause.selects).Perm l.records
  unordered : sorts = [] → s.terms = [] ∧
    l.records.Pairwise fun a b ↦ Record.cellOrder key.name .ascending a b = .lt
  ordered : ∀ sort ∈ sorts.head?, ∃ f, table.schema.resolve? sort.field = some f ∧
    (∀ a ∈ records, ∀ b ∈ records,
      rowOrder s.terms a b = Record.keyedOrder f.name sort.direction key.name a b) ∧
    (Sorting.AreBy table.schema sorts f sort.direction →
      l.records.Pairwise fun a b ↦ Record.keyedOrder f.name sort.direction key.name a b = .lt)

theorem rowOrder_append (ts us : List OrderTerm) (a b : Record) :
    rowOrder (ts ++ us) a b = (rowOrder ts a b).then (rowOrder us a b) := by
  induction ts with
  | nil => rfl
  | cons t ts ih => rw [List.cons_append, rowOrder, rowOrder, ih, Ordering.then_assoc]

theorem Clause.selects_append (c d : Clause) (r : Record) :
    selects (c ++ d) r = (c.selects r && d.selects r) := by
  rw [Bool.eq_iff_iff]
  simp only [selects, holds, decide_eq_true_eq, Bool.and_eq_true, Truth.all_eq_true_iff,
    List.map_append, List.forall_mem_append]

namespace Tracks

variable {engine : Engine} {table : Table} {key : Field} {rows records : List Record}
  {sorts : List Sorting} {l : RecordList} {s : Selection}

theorem mem_records (h : Tracks engine table key rows records sorts l s) {r : Record}
    (hr : r ∈ l.records) : r ∈ records :=
  List.mem_of_mem_filter (h.perm.mem_iff.mpr hr)

theorem start (h : table.Keeps key rows records) : Tracks engine table key rows records []
    ⟨table.schema, records⟩ (Selection.all engine table rows) where
  schema_eq := rfl
  engine_eq := rfl
  table_eq := rfl
  rows_eq := rfl
  perm := by
    have hall : records.filter (Clause.selects []) = records :=
      List.filter_eq_self.mpr fun _ _ ↦ rfl
    change (records.filter (Clause.selects [])).Perm records
    rw [hall]
  unordered _ := ⟨rfl, h.pairwise_cellOrder⟩
  ordered := nofun

/-! ## One step -/

theorem restrict (hkeeps : table.Keeps key rows records)
    (h : Tracks engine table key rows records sorts l s) {spec : Specification}
    (hspec : spec.IsShared table.schema) :
    Alike (Tracks engine table key rows records sorts) (Source.restrict l spec)
      (Source.restrict s spec) := by
  change Alike _ (spec.condition l.schema >>= _) ((spec.clause s.table).map _)
  rw [h.schema_eq, h.table_eq]
  have hclause := spec.alike_clause hspec
  generalize spec.condition table.schema = x, spec.clause table = y at hclause
  cases hclause with
  | error e => exact .error e
  | @ok c d hagrees =>
      have hkept : keepWhere c.holds l.records = .ok (l.records.filter d.selects) :=
        keepWhere_eq_filter fun r hr ↦ hagrees r (hkeeps.isStorable r (h.mem_records hr))
      have hselects : records.filter (s.restrictTo d).clause.selects =
          (records.filter s.clause.selects).filter d.selects := by
        rw [List.filter_filter]
        apply List.filter_congr
        intro r _
        rw [Selection.restrictTo, Clause.selects_append, Bool.and_comm]
      change Alike _ (keepWhere c.holds l.records >>= _) (.ok _)
      rw [hkept]
      refine .ok { h with
        schema_eq := rfl
        perm := hselects ▸ h.perm.filter d.selects
        unordered := fun hnil ↦ ⟨(h.unordered hnil).1, (h.unordered hnil).2.filter _⟩
        ordered := ?_ }
      intro sort hsort
      obtain ⟨f, hf, hterms, hpairwise⟩ := h.ordered sort hsort
      exact ⟨f, hf, hterms, fun hby ↦ (hpairwise hby).filter _⟩

theorem orderBy (hkeeps : table.Keeps key rows records)
    (h : Tracks engine table key rows records sorts l s) {sort : Sorting}
    (hsort : ∀ f ∈ table.schema.resolve? sort.field, f.type ≠ .decimal) :
    Alike (Tracks engine table key rows records (sorts ++ [sort])) (Source.orderBy l sort)
      (Source.orderBy s sort) := by
  change Alike _ ((sort.apply l.schema id l.records).map _) ((sort.terms s.table).map _)
  rw [h.schema_eq, h.table_eq]
  cases hfield : table.schema.resolve? sort.field with
  | none =>
      have hrequire : table.schema.require .invalidSortField sort.field =
          reject (.unresolved .invalidSortField sort.field) := by
        rw [Schema.require, hfield]
      rw [Sorting.apply, Sorting.terms, hrequire]
      exact .error _
  | some f =>
      have hmem := Schema.mem_of_resolve?_eq hfield
      have hf := hkeeps.haveType hmem (hsort f hfield)
      have hkept : ∀ r ∈ l.records, r ∈ records := fun r ↦ h.mem_records
      have happly : sort.apply table.schema id l.records = .ok
          (l.records.mergeSort fun a b ↦ (Record.cellOrder f.name sort.direction a b).isLE) := by
        have hl : HaveType f.type f.name l.records := fun r hr ↦ hf r (hkept r hr)
        rw [Sorting.apply, Schema.require_eq_ok_iff.mpr hfield]
        exact hl.sortOn_eq sort.direction
      -- the field may have been asked for in another spelling
      have hkeyed : Sorting.IsKeyed table ⟨f.name, sort.direction⟩ f key :=
        ⟨Schema.declares_of_mem hkeeps.distinctNames hmem, hkeeps.key_eq⟩
      have hrows : ∀ a ∈ records, ∀ b ∈ records, rowOrder
          ((⟨⟨table.name, f⟩, sort.direction, true⟩ : OrderTerm) :: Sorting.tieBreak table f) a b =
            Record.keyedOrder f.name sort.direction key.name a b :=
        fun a ha b hb ↦ hkeyed.rowOrder_eq
          (Sorting.terms_eq_cons hkeyed.declares.resolve?_eq) hf hkeeps.key_haveType ha hb
      rw [happly, Sorting.terms_eq_cons (s := sort) hfield]
      refine .ok { h with
        schema_eq := rfl
        table_eq := rfl
        perm := h.perm.trans (List.mergeSort_perm _ _).symm
        unordered := fun hnil ↦ absurd hnil (by simp)
        ordered := ?_ }
      cases sorts with
      | nil =>
          obtain ⟨hterms, hpairwise⟩ := h.unordered rfl
          rintro _ ⟨⟩
          refine ⟨f, hfield, ?_, fun _ ↦ Sorted.pairwise_mergeSort_then hpairwise⟩
          intro a ha b hb
          rw [rowOrder_append, hterms, hrows a ha b hb]
          rfl
      | cons first rest =>
          obtain ⟨g, hg, hterms, hpairwise⟩ := h.ordered first rfl
          rintro _ ⟨⟩
          refine ⟨g, hg, ?_, ?_⟩
          · intro a ha b hb
            rw [rowOrder_append, hterms a ha b hb, hrows a ha b hb,
              hkeeps.keyedOrder_then_eq ha hb]
          · intro hby
            obtain ⟨hf', hdirection⟩ := hby sort (List.mem_append_right _ List.mem_cons_self)
            cases hfield.symm.trans hf'
            -- a list that is in an order already stays as it is
            have hlast := hpairwise fun t ht ↦ hby t (List.mem_append_left _ ht)
            refine (Sorted.pairwise_mergeSort_then hlast).imp fun hlt ↦ ?_
            rw [← hlt, Record.keyedOrder_eq, hdirection]
            cases Record.cellOrder f.name first.direction _ _ <;> rfl

/-! ## All steps -/

theorem run (hkeeps : table.Keeps key rows records) {steps : List Source.Step}
    (hsteps : ∀ step ∈ steps, step.IsShared table.schema)
    (h : Tracks engine table key rows records sorts l s) :
    Alike (Tracks engine table key rows records (sorts ++ Source.sortings steps))
      (Source.run l steps) (Source.run s steps) := by
  induction steps generalizing sorts l s with
  | nil =>
      rw [Source.sortings, List.filterMap_nil, List.append_nil]
      exact .ok h
  | cons step steps ih =>
      obtain ⟨hstep, hrest⟩ := List.forall_mem_cons.mp hsteps
      rw [Source.run_cons, Source.run_cons]
      cases step with
      | restrict spec => exact (h.restrict hkeeps hstep).bind fun _ _ hnext ↦ ih hrest hnext
      | orderBy sort =>
          have happend : sorts ++ Source.sortings (.orderBy sort :: steps) =
              sorts ++ [sort] ++ Source.sortings steps := by
            rw [List.append_assoc]
            rfl
          rw [happend]
          exact (h.orderBy hkeeps hstep).bind fun _ _ hnext ↦ ih hrest hnext

/-! ## What is read -/

theorem filter_perm (hkeeps : table.Keeps key rows records)
    (h : Tracks engine table key rows records sorts l s) :
    (s.rows.filter s.clause.selects).Perm l.records :=
  (h.rows_eq ▸ hkeeps.perm.filter s.clause.selects).trans h.perm

theorem ordered_perm (hkeeps : table.Keeps key rows records)
    (h : Tracks engine table key rows records sorts l s) (reading : Reading) :
    (s.ordered reading).Perm l.records :=
  (s.ordered_perm reading).trans (h.filter_perm hkeeps)

/-- The first order that was asked for is the one in which rows are given back. -/
theorem pairwise_ordered (hkeeps : table.Keeps key rows records)
    (h : Tracks engine table key rows records sorts l s) {sort : Sorting}
    (hsort : sort ∈ sorts.head?) (reading : Reading) :
    ∃ f, table.schema.resolve? sort.field = some f ∧ (s.ordered reading).Pairwise fun a b ↦
      Record.keyedOrder f.name sort.direction key.name a b = .lt := by
  obtain ⟨f, hf, hterms, -⟩ := h.ordered sort hsort
  refine ⟨f, hf, ?_⟩
  have hfound : (s.engine.find (s.statement reading) s.rows).Perm
      (records.filter s.clause.selects) :=
    (s.engine.find_perm _ _).trans (h.rows_eq ▸ hkeeps.perm.filter s.clause.selects)
  have hdiffer : (records.filter s.clause.selects).Pairwise fun a b ↦
      Record.keyedOrder f.name sort.direction key.name a b ≠ .eq := by
    apply (hkeeps.pairwise_cellOrder.filter _).imp
    intro a b hlt heq
    rw [Record.keyedOrder_eq, Ordering.then_eq_eq, hlt] at heq
    cases heq.2
  have hcongr : s.ordered reading = (s.engine.find (s.statement reading) s.rows).mergeSort
      fun a b ↦ (Record.keyedOrder f.name sort.direction key.name a b).isLE :=
    Sorted.mergeSort_congr fun a ha b hb ↦ by
      rw [hterms a (List.mem_of_mem_filter (hfound.mem_iff.mp ha)) b
        (List.mem_of_mem_filter (hfound.mem_iff.mp hb))]
  rw [hcongr]
  apply Sorted.pairwise_mergeSort_lt
  exact hfound.symm.pairwise hdiffer fun hne heq ↦ hne (Std.OrientedCmp.eq_symm heq)

theorem ordered_eq (hkeeps : table.Keeps key rows records)
    (h : Tracks engine table key rows records sorts l s) {f : Field} {d : Direction}
    (hby : Sorting.AreBy table.schema sorts f d) {reading : Reading}
    (hfound : sorts = [] → (engine.find (s.statement reading) rows).Pairwise fun a b ↦
      Record.cellOrder key.name .ascending a b = .lt) : s.ordered reading = l.records := by
  have hperm := h.ordered_perm hkeeps reading
  cases sorts with
  | nil =>
      obtain ⟨hterms, hpairwise⟩ := h.unordered rfl
      have hfound : (s.engine.find (s.statement reading) s.rows).Pairwise fun a b ↦
          Record.cellOrder key.name .ascending a b = .lt := by
        rw [h.engine_eq, h.rows_eq]
        exact hfound rfl
      have hgiven : s.ordered reading = s.engine.find (s.statement reading) s.rows := by
        rw [Selection.ordered, hterms]
        exact List.mergeSort_of_pairwise (hfound.imp fun _ ↦ rfl)
      rw [hgiven] at hperm ⊢
      exact Sorted.eq_of_perm_of_pairwise_lt hperm hfound hpairwise
  | cons first rest =>
      obtain ⟨hf, rfl⟩ := hby first List.mem_cons_self
      obtain ⟨g, hg, -, hpairwise⟩ := h.ordered first rfl
      obtain ⟨g', hg', hordered⟩ := h.pairwise_ordered hkeeps rfl reading
      cases hf.symm.trans hg
      cases hf.symm.trans hg'
      exact Sorted.eq_of_perm_of_pairwise_lt hperm hordered (hpairwise hby)

end Tracks

/-- Two records that can be compared stay where they are, or change their places. -/
theorem RecordList.orderBy_pair {schema : Schema} {s : Sorting} {f : Field}
    (hf : schema.resolve? s.field = some f) {a b : Record}
    (h : Value.allOrdered ([a, b].map fun r ↦ r.value f.name) = true) :
    Source.orderBy (⟨schema, [a, b]⟩ : RecordList) s = .ok ⟨schema,
      if s.direction.inPlace (a.value f.name) (b.value f.name) then [a, b] else [b, a]⟩ := by
  have happly : s.apply schema id [a, b] = sortOn (fun r ↦ r.value f.name) s.direction [a, b] := by
    rw [Sorting.apply, Schema.require_eq_ok_iff.mpr hf]
    rfl
  change (s.apply schema id [a, b]).map _ = _
  rw [happly, sortOn_of_allOrdered h, Sorted.mergeSort_pair]
  rfl

/-! ## Customers -/

namespace Source

/-- The same steps lead a list of customers, in the order of their identifier, and a selection of
them to the same count, and to pages of the same records. Those of the selection are in the order
that was asked for first. So they are the same pages if all orders that are asked for are one, and
without any if the database finds the rows in the order of their identifier. Statements may be
refused or given up, whatever the list holds. -/
theorem alike_run_customers {steps : List Step}
    (hsteps : ∀ step ∈ steps, step.IsShared Catalog.customers.schema) {rows records : List Record}
    (hstorable : ∀ r ∈ rows, r.IsStorable Catalog.customers.schema) (hperm : rows.Perm records)
    (hids : records.Pairwise fun a b ↦
      Value.naturalOrder (a.value "id".toList) (b.value "id".toList) = .ok .lt)
    (engine : Engine) :
    Alike (fun (l : RecordList) (s : Selection) ↦
        (∃ n, Source.count l = .ok n ∧ (s.statement .count).Ends engine.limits n (Source.count s)) ∧
        ∀ offset limit : Nat,
          let st := s.statement (.window offset limit)
          ∃ ordered : List Record, ordered.Perm l.records ∧
            st.Ends engine.limits (((ordered.drop offset).take limit).map Record.stored)
              (Source.page s offset limit) ∧
            (∀ sort ∈ (sortings steps).head?, ∃ f,
              Catalog.customers.schema.resolve? sort.field = some f ∧ ordered.Pairwise fun a b ↦
                Record.keyedOrder f.name sort.direction "id".toList a b = .lt) ∧
            ∀ f d, Sorting.AreBy Catalog.customers.schema (sortings steps) f d →
              (sortings steps = [] → (engine.find st rows).Pairwise fun a b ↦
                Record.cellOrder "id".toList .ascending a b = .lt) →
              Source.page l offset limit = .ok ((ordered.drop offset).take limit))
      (run (⟨Catalog.customers.schema, records⟩ : RecordList) steps)
      (run (Selection.all engine Catalog.customers rows) steps) := by
  have hkeeps : Catalog.customers.Keeps (Catalog.key "id") rows records := {
    distinctNames := Catalog.hasDistinctNames_customers
    key_eq := by decide +kernel
    key_type := nofun
    perm := hperm
    isStorable := fun r hr ↦ hstorable r (hperm.mem_iff.mpr hr)
    pairwise := hids }
  refine (Tracks.run hkeeps hsteps (Tracks.start hkeeps)).mono fun l s h ↦ ⟨?_, ?_⟩
  · refine ⟨l.records.length, rfl, ?_⟩
    rw [← (h.filter_perm hkeeps).length_eq, ← h.engine_eq]
    exact s.count_ends
  · intro offset limit st
    refine ⟨_, h.ordered_perm hkeeps _, h.engine_eq ▸ s.page_ends offset limit,
      fun sort hsort ↦ h.pairwise_ordered hkeeps hsort _, ?_⟩
    intro f d hby hfound
    rw [h.ordered_eq hkeeps hby hfound, ← slice_ofNat]
    rfl

/-- Customers with addresses are asked for between two steps that put the customers in order, the
first of them by another spelling of the field. -/
theorem alike_run_customers_twice :
    let ada := Catalog.customer 3 "Ada" "C-3" (.text "a".toList)
    let bo := Catalog.customer 1 "Bo" "C-1" .null
    let ann := Catalog.customer 2 "Ann" "C-2" (.text "b".toList)
    let steps : List Step := [.orderBy ⟨"NAME".toList, .descending⟩,
      .restrict ⟨Pagination.standard, ⟨"id".toList, .ascending⟩, none,
        [⟨"name".toList, ["a".toList], .startsWith⟩, ⟨"e_mail".toList, [[]], .greaterThan⟩]⟩,
      .orderBy ⟨"name".toList, .descending⟩]
    ∀ engine : Engine, engine.limits = .standard → ∃ l s,
      run (⟨Catalog.customers.schema, [bo, ann, ada]⟩ : RecordList) steps = .ok l ∧
      run (Selection.all engine Catalog.customers [ada, bo, ann]) steps = .ok s ∧
      Source.count s = Source.count l ∧
      ∀ offset limit : Nat, (offset : Int) ≤ int64Max → (limit : Int) ≤ int64Max →
        Source.page s offset limit = (Source.page l offset limit).map (List.map Record.stored) := by
  intro ada bo ann steps engine hlimits
  have hsteps : ∀ step ∈ steps, step.IsShared Catalog.customers.schema := by decide +kernel
  have hperm : ([ada] ++ [bo, ann]).Perm [bo, ann, ada] := List.perm_append_comm
  have hrun := alike_run_customers hsteps (by decide +kernel) hperm (by decide +kernel) engine
  obtain ⟨s, hs, hcount, hwindow, hshort⟩ : ∃ s,
      run (Selection.all engine Catalog.customers [ada, bo, ann]) steps = .ok s ∧
        (s.statement .count).fault? .standard = none ∧
        (s.statement (.window 0 0)).fault? .standard = none ∧
        s.clause.isLong .standard = false :=
    ⟨_, rfl, rfl, rfl, rfl⟩
  have hby : Sorting.AreBy Catalog.customers.schema (sortings steps) (Catalog.field "name" .text)
      .descending := by
    intro sort hsort
    rcases List.mem_cons.mp hsort with rfl | hsort
    · exact ⟨by decide +kernel, rfl⟩
    · rw [List.mem_singleton.mp hsort]
      exact ⟨by decide +kernel, rfl⟩
  change Alike _ _ (run (Selection.all engine Catalog.customers [ada, bo, ann]) steps) at hrun
  rw [hs, hlimits] at hrun
  generalize run (⟨Catalog.customers.schema, [bo, ann, ada]⟩ : RecordList) steps = x at hrun ⊢
  cases hrun with
  | @ok l _ h =>
      obtain ⟨⟨n, hn, hcounted⟩, hpages⟩ := h
      refine ⟨l, s, rfl, hs, ?_, ?_⟩
      · rw [hcounted.eq_ok hcount hshort, hn]
      · intro offset limit hoffset hlimit
        obtain ⟨ordered, -, hpage, -, hsame⟩ := hpages offset limit
        rw [hpage.eq_ok (Statement.fault?_window hwindow hoffset hlimit) hshort,
          hsame _ _ hby (nofun)]
        rfl

/-- Two customers, and steps and pages on which a list and a selection differ: an offset of more
than 64 bits, a clause that is too large, a needle that is cut off at its NUL character, and two
different orders. -/
theorem run_customers_differs :
    let ada := Catalog.customer 1 "Ada" "C-1" .null
    let bo := Catalog.customer 2 "Bo" "C-2" .null
    let memory (steps : List Step) : Outcome RecordList :=
      run ⟨Catalog.customers.schema, [ada, bo]⟩ steps
    let database (steps : List Step) : Outcome Selection :=
      run (Selection.all .standard Catalog.customers [ada, bo]) steps
    let wanting (f : Filter) : List Step :=
      [.restrict ⟨Pagination.standard, ⟨"id".toList, .ascending⟩, none, [f]⟩]
    let noneOfMany : List Step :=
      wanting ⟨"id".toList, List.replicate 501 ['0'], .notEquals⟩
    let withNul : List Step := wanting ⟨"name".toList, [['\x00']], .contains⟩
    let byNameThenCode : List Step :=
      [.orderBy ⟨"name".toList, .descending⟩, .orderBy ⟨"code".toList, .ascending⟩]
    let names (page : List Record) : List Value := page.map fun r ↦ r.value "name".toList
    (∀ r ∈ [ada, bo], r.IsStorable Catalog.customers.schema) ∧
      ((memory [] >>= fun l ↦ page l (2 ^ 63) 1).map names = .ok [] ∧
        (database [] >>= fun s ↦ page s (2 ^ 63) 1).map names = .error .integerOverflow) ∧
      ((memory noneOfMany >>= count) = .ok 2 ∧
        (database noneOfMany >>= count) = .error .statementRefused) ∧
      ((memory withNul >>= count) = .ok 0 ∧ (database withNul >>= count) = .ok 2) ∧
      (memory byNameThenCode >>= fun l ↦ page l 0 1).map names = .ok [.text "Ada".toList] ∧
        (database byNameThenCode >>= fun s ↦ page s 0 1).map names =
          .ok [.text "Bo".toList] := by
  intro ada bo memory database wanting noneOfMany withNul byNameThenCode names
  have hname : orderBy (⟨Catalog.customers.schema, [ada, bo]⟩ : RecordList)
      ⟨"name".toList, .descending⟩ = .ok ⟨Catalog.customers.schema, [bo, ada]⟩ :=
    RecordList.orderBy_pair (f := Catalog.field "name" .text) (by decide +kernel) rfl
  have hcode : orderBy (⟨Catalog.customers.schema, [bo, ada]⟩ : RecordList)
      ⟨"code".toList, .ascending⟩ = .ok ⟨Catalog.customers.schema, [ada, bo]⟩ :=
    RecordList.orderBy_pair (f := Catalog.field "code" .text) (by decide +kernel) rfl
  have hmemory : memory byNameThenCode = .ok ⟨Catalog.customers.schema, [ada, bo]⟩ := by
    change (orderBy (⟨Catalog.customers.schema, [ada, bo]⟩ : RecordList) _ >>= fun l ↦
      orderBy l ⟨"code".toList, .ascending⟩ >>= Except.ok) = _
    rw [hname]
    change (orderBy (⟨Catalog.customers.schema, [bo, ada]⟩ : RecordList)
      ⟨"code".toList, .ascending⟩ >>= Except.ok) = _
    rw [hcode]
    rfl
  have hdatabase : ∃ terms, database byNameThenCode =
        .ok ⟨.standard, Catalog.customers, [ada, bo], [], terms⟩ ∧
      Statement.fault? ⟨Catalog.customers, [], terms, .window 0 1⟩ .standard = none ∧
      ∀ reading, Selection.ordered ⟨.standard, Catalog.customers, [ada, bo], [], terms⟩ reading =
        [bo, ada] := by
    refine ⟨_, rfl, by decide +kernel, fun reading ↦ ?_⟩
    change sortRows _ (sortRows _ [ada, bo]) = _
    rw [sortRows, sortRows, Sorted.mergeSort_pair]
    change List.mergeSort [ada, bo] _ = _
    rw [Sorted.mergeSort_pair]
    rfl
  obtain ⟨terms, hdatabase, hfault, hordered⟩ := hdatabase
  have hpage := (Selection.page_ends ⟨.standard, Catalog.customers, [ada, bo], [], terms⟩ 0 1).eq_ok
    hfault rfl
  refine ⟨by decide +kernel, ⟨rfl, rfl⟩, by decide +kernel, ⟨by decide +kernel, ?_⟩, ?_, ?_⟩
  · obtain ⟨d, hd, hfault, hlength⟩ : ∃ d,
        database withNul = .ok ⟨.standard, Catalog.customers, [ada, bo], d, []⟩ ∧
        Engine.standard.fault? (.counting Catalog.customers d) [ada, bo] = none ∧
        ([ada, bo].filter d.selects).length = 2 :=
      ⟨_, rfl, by decide +kernel, by decide +kernel⟩
    rw [hd, ← hlength]
    exact Selection.count_eq_ok ⟨.standard, Catalog.customers, [ada, bo], d, []⟩ hfault
  · rw [hmemory]
    rfl
  · rw [hdatabase]
    change (Selection.page ⟨.standard, Catalog.customers, [ada, bo], [], terms⟩ 0 1).map names = _
    rw [hordered] at hpage
    change Selection.page _ 0 1 = _ at hpage
    rw [hpage]
    rfl

end Source

end RecordQuery
