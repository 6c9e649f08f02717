import RecordQuery.Proofs.Outcome
import RecordQuery.Proofs.Schema
import RecordQuery.Specification.OfArguments

namespace RecordQuery

/-!
# Well-formed specifications

What every specification has that was read from a query: its numbers fit
into 64 bits, its fields are fields of the schema under their own names,
and its literals can be read as values of them.
-/

namespace Pagination

structure IsWellFormed (p : Pagination) : Prop where
  number_le : (p.number : Int) ≤ int64Max
  size_pos : 0 < p.size
  size_le : (p.size : Int) ≤ int64Max
  offset_le : (p.offset : Int) ≤ int64Max

end Pagination

namespace Search

structure IsWellFormed (schema : Schema) (q : Search) : Prop where
  declared : ∀ name ∈ q.fields, ∃ f, schema.Declares name f
  nodup : q.fields.Nodup

end Search

namespace Filter

structure IsWellFormed (schema : Schema) (f : Filter) : Prop where
  values_ne_nil : f.values ≠ []
  bar_notMem : ∀ t ∈ f.values, '|' ∉ t
  declared : ∃ field, schema.Declares f.field field ∧
    (f.operator.isTextual = false → ∀ t ∈ f.values, ∃ v, field.read t = .ok v)

end Filter

namespace Specification

structure IsWellFormed (schema : Schema) (s : Specification) : Prop where
  pagination : s.pagination.IsWellFormed
  sort : ∃ f, schema.Declares s.sort.field f
  search : ∀ q, s.search = some q → q.IsWellFormed schema
  filters : ∀ f ∈ s.filters, f.IsWellFormed schema

end Specification

/-! ## Pages -/

theorem lt_of_fitsInt64 {negative : Bool} {n : Nat}
    (h : fitsInt64 (if negative then -(n : Int) else n) = true) : n < 10 ^ int64Digits := by
  obtain ⟨hmin, hmax⟩ := fitsInt64_iff.mp h
  simp only [int64Min, int64Max, int64Digits] at *
  cases negative <;> simp at hmin hmax <;> omega

theorem fitsInt64_of_readPageInt {t : Text} {n : Int} (h : readPageInt t = .ok (some n)) :
    fitsInt64 n = true := by
  unfold readPageInt at h
  dsimp only at h
  split at h
  · split at h
    · cases h
    · split at h
      · cases h
      · obtain ⟨hfits, hn⟩ := Option.ite_none_right_eq_some.mp (Except.ok.inj h)
        exact Option.some.inj hn ▸ hfits
  · cases h

namespace Pagination

theorem le_of_numberOf {args : Arguments} {n : Nat} (h : numberOf args = .ok n) :
    (n : Int) ≤ int64Max := by
  unfold numberOf at h
  split at h
  · cases h
    decide
  · next t _ =>
      obtain ⟨m, hm, h⟩ := Outcome.bind_eq_ok_iff.mp h
      cases m with
      | none => cases h
      | some m =>
          dsimp only at h
          split at h
          · next hpos =>
              cases h
              have hle := (fitsInt64_iff.mp (fitsInt64_of_readPageInt hm)).2
              omega
          · cases h

theorem le_of_sizeOf {args : Arguments} {n : {n : Nat // 0 < n}} (h : sizeOf args = .ok n) :
    (n.1 : Int) ≤ int64Max := by
  unfold sizeOf at h
  split at h
  · cases h
    decide
  · next t _ =>
      obtain ⟨m, hm, h⟩ := Outcome.bind_eq_ok_iff.mp h
      cases m with
      | none => cases h
      | some m =>
          dsimp only at h
          split at h
          · next hpos =>
              cases h
              have hle := (fitsInt64_iff.mp (fitsInt64_of_readPageInt hm)).2
              dsimp only
              omega
          · cases h

theorem isWellFormed_ofArguments {args : Arguments} {p : Pagination}
    (h : ofArguments args = .ok p) : p.IsWellFormed := by
  obtain ⟨number, hnumber, h⟩ := Outcome.bind_eq_ok_iff.mp h
  obtain ⟨⟨size, hpos⟩, hsize, h⟩ := Outcome.bind_eq_ok_iff.mp h
  dsimp only at h
  split at h
  · cases h
  · next hoffset =>
      cases h
      exact ⟨le_of_numberOf hnumber, hpos, le_of_sizeOf hsize, by omega⟩

end Pagination

/-! ## Order and quick search -/

section

/-! Names that are read from a query are replaced by names of fields. -/

variable {schema : Schema} {P : Text → Prop}

theorem Sorting.name_ofArguments (hP : ∀ f ∈ schema.fields, P f.name) {defaultField : Text}
    {args : Arguments} {s : Sorting} (h : ofArguments schema defaultField args = .ok s) :
    P s.field := by
  unfold ofArguments at h
  dsimp only at h
  split at h
  · cases h
  · next f hf =>
      obtain ⟨d, -, rfl⟩ := Outcome.map_eq_ok_iff.mp h
      exact hP f (Schema.mem_of_resolve?_eq hf)

namespace Search

theorem names_columns (hP : ∀ f ∈ schema.fields, P f.name) {columnNames found names : List Text}
    (hfound : ∀ name ∈ found, P name) (h : columns schema found columnNames = .ok names) :
    ∀ name ∈ names, P name := by
  induction columnNames generalizing found with
  | nil =>
      cases h
      exact hfound
  | cons column rest ih =>
      rw [columns] at h
      split at h
      · cases h
      · next f hf =>
          apply ih _ h
          split
          · exact hfound
          · exact List.forall_mem_append.mpr
              ⟨hfound, List.forall_mem_singleton.mpr (hP f (Schema.mem_of_resolve?_eq hf))⟩

/-- A name that was found before is not added again. -/
theorem nodup_columns {columnNames found names : List Text} (hnodup : found.Nodup)
    (h : columns schema found columnNames = .ok names) : names.Nodup := by
  induction columnNames generalizing found with
  | nil =>
      cases h
      exact hnodup
  | cons column rest ih =>
      rw [columns] at h
      split at h
      · cases h
      · next f hf =>
          apply ih _ h
          split
          · exact hnodup
          · next hmem =>
              exact List.nodup_append.mpr ⟨hnodup, List.nodup_singleton _, by
                rintro a ha b hb rfl
                exact hmem (List.mem_singleton.mp hb ▸ ha)⟩

theorem names_ofText (hP : ∀ f ∈ schema.fields, P f.name) {t : Text} {q : Search}
    (h : ofText schema t = .ok q) : ∀ name ∈ q.fields, P name := by
  unfold ofText at h
  split at h
  · split at h
    · cases h
    · cases h
      intro name hname
      obtain ⟨f, hf, rfl⟩ := List.mem_map.mp hname
      exact hP f (List.mem_of_mem_filter hf)
  · split at h
    · cases h
    · split at h
      · cases h
      · obtain ⟨names, hnames, rfl⟩ := Outcome.map_eq_ok_iff.mp h
        exact names_columns hP (by simp) hnames

theorem nodup_ofText (hsearchable : schema.searchable.Nodup) {t : Text} {q : Search}
    (h : ofText schema t = .ok q) : q.fields.Nodup := by
  unfold ofText at h
  split at h
  · split at h
    · cases h
    · cases h
      exact hsearchable
  · split at h
    · cases h
    · split at h
      · cases h
      · obtain ⟨names, hnames, rfl⟩ := Outcome.map_eq_ok_iff.mp h
        exact nodup_columns List.nodup_nil hnames

theorem ofText_of_ofArguments {args : Arguments} {q : Search}
    (h : ofArguments schema args = .ok (some q)) : ∃ t, ofText schema t = .ok q := by
  unfold ofArguments at h
  split at h
  · cases h
  · next t _ =>
      obtain ⟨q', hq, hsome⟩ := Outcome.map_eq_ok_iff.mp h
      cases hsome
      exact ⟨t, hq⟩

end Search

end

theorem Search.isWellFormed_ofArguments {schema : Schema} (hs : schema.HasDistinctNames)
    {args : Arguments} {q : Search} (h : ofArguments schema args = .ok (some q)) :
    q.IsWellFormed schema := by
  obtain ⟨t, ht⟩ := ofText_of_ofArguments h
  exact ⟨names_ofText (fun f hf ↦ ⟨f, Schema.declares_of_mem hs hf⟩) ht,
    nodup_ofText (Schema.nodup_searchable hs) ht⟩

/-! ## Filters -/

namespace Filter

theorem readAll_eq_ok_iff {f : Field} {ts : List Text} :
    (∃ vs, readAll f ts = .ok vs) ↔ ∀ t ∈ ts, ∃ v, f.read t = .ok v := by
  induction ts with
  | nil => simp [readAll]
  | cons t ts ih =>
      rw [List.forall_mem_cons, ← ih]
      constructor
      · rintro ⟨vs, h⟩
        obtain ⟨v, hv, h⟩ := Outcome.bind_eq_ok_iff.mp h
        obtain ⟨rest, hrest, -⟩ := Outcome.bind_eq_ok_iff.mp h
        exact ⟨⟨v, hv⟩, rest, hrest⟩
      · rintro ⟨⟨v, hv⟩, rest, hrest⟩
        refine ⟨v :: rest, ?_⟩
        rw [readAll, hv, hrest]
        rfl

/-- An argument is read as a filter if its texts before the first double bar are values of a field
and the text behind it is the code of an operator. -/
theorem ofArgument_eq_ok_iff {schema : Schema} {registry : Registry} {name t : Text} {f : Filter} :
    ofArgument schema registry name t = .ok f ↔
      ∃ segment code operator field, Text.cutAtBars t = some (segment, code) ∧
        registry.resolve? code = some operator ∧ segment ≠ [] ∧
        schema.resolve? name = some field ∧
        (operator.isTextual = false →
          ∀ t ∈ Text.splitOn '|' segment, ∃ v, field.read t = .ok v) ∧
        f = ⟨field.name, Text.splitOn '|' segment, operator⟩ := by
  constructor
  · intro h
    unfold ofArgument at h
    split at h
    · cases h
    · next segment code hcut =>
        split at h
        · cases h
        · next operator hoperator =>
            split at h
            · cases h
            · next hsegment =>
                rw [List.isEmpty_iff] at hsegment
                split at h
                · cases h
                · next field hfield =>
                    refine ⟨segment, code, operator, field, hcut, hoperator, hsegment, hfield, ?_⟩
                    dsimp only at h
                    split at h
                    · next htextual =>
                        cases h
                        exact ⟨by simp [htextual], rfl⟩
                    · obtain ⟨vs, hvs, rfl⟩ := Outcome.map_eq_ok_iff.mp h
                      exact ⟨fun _ ↦ readAll_eq_ok_iff.mp ⟨vs, hvs⟩, rfl⟩
  · rintro ⟨segment, code, operator, field, hcut, hoperator, hsegment, hfield, hread, rfl⟩
    simp only [ofArgument, hcut, hoperator, List.isEmpty_iff, if_neg hsegment, hfield]
    cases htextual : operator.isTextual with
    | true => rfl
    | false =>
        obtain ⟨vs, hvs⟩ := readAll_eq_ok_iff.mpr (hread htextual)
        rw [hvs]
        rfl

/-- A filter that was read has the name of a field, and this field reads its literals. -/
theorem exists_of_ofArgument_eq_ok {schema : Schema} {registry : Registry} {name t : Text}
    {f : Filter} (h : ofArgument schema registry name t = .ok f) :
    ∃ field, schema.resolve? name = some field ∧ f.field = field.name ∧ f.values ≠ [] ∧
      (∀ t ∈ f.values, '|' ∉ t) ∧
      (f.operator.isTextual = false → ∀ t ∈ f.values, ∃ v, field.read t = .ok v) := by
  obtain ⟨segment, code, operator, field, -, -, -, hfield, hread, rfl⟩ := ofArgument_eq_ok_iff.mp h
  exact ⟨field, hfield, rfl, Text.splitOn_ne_nil _ _, fun _ ht ↦ Text.not_mem_of_mem_splitOn ht,
    hread⟩

theorem isWellFormed_ofArgument {schema : Schema} (hs : schema.HasDistinctNames)
    {registry : Registry} {name t : Text} {f : Filter}
    (h : ofArgument schema registry name t = .ok f) : f.IsWellFormed schema := by
  obtain ⟨field, hfield, hname, hvalues, hbars, hread⟩ := exists_of_ofArgument_eq_ok h
  exact ⟨hvalues, hbars, field, hname ▸ Schema.declares_of_resolve?_eq hs hfield, hread⟩

end Filter

namespace Specification

/-- A request is accepted if each of its parts is. -/
theorem ofArguments_eq_ok_iff {schema : Schema} {defaultSort : Text} {registry : Registry}
    {args : Arguments} {s : Specification} :
    ofArguments schema defaultSort registry args = .ok s ↔
      Pagination.ofArguments args = .ok s.pagination ∧
      Sorting.ofArguments schema defaultSort args = .ok s.sort ∧
      Search.ofArguments schema args = .ok s.search ∧
      Filter.ofArguments schema registry args = .ok s.filters := by
  constructor
  · intro h
    obtain ⟨pagination, hpagination, h⟩ := Outcome.bind_eq_ok_iff.mp h
    obtain ⟨sort, hsort, h⟩ := Outcome.bind_eq_ok_iff.mp h
    obtain ⟨search, hsearch, h⟩ := Outcome.bind_eq_ok_iff.mp h
    obtain ⟨filters, hfilters, h⟩ := Outcome.bind_eq_ok_iff.mp h
    cases h
    exact ⟨hpagination, hsort, hsearch, hfilters⟩
  · rintro ⟨hpagination, hsort, hsearch, hfilters⟩
    rw [ofArguments, hpagination, hsort, hsearch, hfilters]
    rfl

theorem isWellFormed_ofArguments {schema : Schema} (hs : schema.HasDistinctNames)
    {defaultSort : Text} {registry : Registry} {args : Arguments} {s : Specification}
    (h : ofArguments schema defaultSort registry args = .ok s) : s.IsWellFormed schema := by
  obtain ⟨hpagination, hsort, hsearch, hfilters⟩ := ofArguments_eq_ok_iff.mp h
  have hnames : ∀ f ∈ schema.fields, ∃ g, schema.Declares f.name g :=
    fun f hf ↦ ⟨f, Schema.declares_of_mem hs hf⟩
  refine ⟨Pagination.isWellFormed_ofArguments hpagination,
    Sorting.name_ofArguments (P := fun name ↦ ∃ g, schema.Declares name g) hnames hsort, ?_, ?_⟩
  · intro q hq
    exact Search.isWellFormed_ofArguments hs (hq ▸ hsearch)
  · intro f hf
    obtain ⟨a, -, ha⟩ := Outcome.exists_of_mem_mapM hfilters hf
    exact Filter.isWellFormed_ofArgument hs ha

/-- What is known of the name of every field is known of all names in what was read, and every
filter has values. -/
theorem names_ofQuery {schema : Schema} {P : Text → Prop} (hP : ∀ f ∈ schema.fields, P f.name)
    {defaultSort : Text} {registry : Registry} {query : Text} {s : Specification}
    (h : ofQuery schema defaultSort registry query = .ok s) :
    P s.sort.field ∧ (∀ q, s.search = some q → ∀ name ∈ q.fields, P name) ∧
      ∀ f ∈ s.filters, P f.field ∧ f.values ≠ [] := by
  obtain ⟨-, hsort, hsearch, hfilters⟩ := ofArguments_eq_ok_iff.mp h
  refine ⟨Sorting.name_ofArguments hP hsort, ?_, ?_⟩
  · intro q hq
    obtain ⟨t, ht⟩ := Search.ofText_of_ofArguments (hq ▸ hsearch)
    exact Search.names_ofText hP ht
  · intro f hf
    obtain ⟨a, -, ha⟩ := Outcome.exists_of_mem_mapM hfilters hf
    obtain ⟨field, hfield, hname, hvalues, -⟩ := Filter.exists_of_ofArgument_eq_ok ha
    exact ⟨hname ▸ hP field (Schema.mem_of_resolve?_eq hfield), hvalues⟩

theorem isWellFormed_ofQuery {schema : Schema} (hs : schema.HasDistinctNames)
    {defaultSort : Text} {registry : Registry} {query : Text} {s : Specification}
    (h : ofQuery schema defaultSort registry query = .ok s) : s.IsWellFormed schema :=
  isWellFormed_ofArguments hs h

end Specification

end RecordQuery
