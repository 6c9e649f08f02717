import RecordQuery.Catalog
import RecordQuery.Proofs.PageArgument

namespace RecordQuery

/-!
# Specifications as queries

A specification can be put into a query string, with the code of every
text between the signs that divide the query. Reading that query gives the
specification back, unless one of its texts would be cut or changed.
-/

/-- What follows the key of a quick search, every text of it encoded. -/
def Search.argument (encode : Text → Text) (q : Search) : Text :=
  encode q.value ++ '|' :: '|' :: Text.joinWith ['|'] (q.fields.map encode)

def Filter.argument (encode : Text → Text) (code : Text) (f : Filter) : Text :=
  Text.joinWith ['|'] (f.values.map encode) ++ '|' :: '|' :: encode code

namespace Specification

/-- The arguments of a query for a specification, where every filter has a code for its operator. -/
def toArguments (encode : Text → Text) (code : Filter → Text) (s : Specification) :
    List (Text × Text) :=
  [(pageNumberKey, encode (Text.ofNat s.pagination.number)),
      (pageSizeKey, encode (Text.ofNat s.pagination.size)), (sortByKey, encode s.sort.field),
      (sortDirectionKey, encode s.sort.direction.name)] ++
    s.search.toList.map (fun q ↦ (searchKey, q.argument encode)) ++
    s.filters.map fun f ↦ (f.field, f.argument encode (code f))

def toQuery (code : Filter → Text) (s : Specification) : Text :=
  Text.joinWith ['&'] ((s.toArguments Text.percentEncode code).map fun a ↦
    Text.percentEncode a.1 ++ '=' :: a.2)

end Specification

/-! ## What can be put into a query -/

/-- Fields whose names can be keys of filters. -/
structure Schema.IsAddressable (s : Schema) : Prop where
  isWord : ∀ f ∈ s.fields, f.name.IsWord
  notMem : ∀ f ∈ s.fields, f.name ∉ reservedKeys
  nodup : (s.fields.map fun f ↦ Text.lower f.name).Nodup

structure Search.IsRepresentable (schema : Schema) (q : Search) : Prop where
  not_allBlank : Text.allBlank q.value = false
  lower_eq : Text.lower q.value = q.value
  value_isUndivided : q.value.IsUndivided
  fields_ne_nil : q.fields ≠ []
  nodup : q.fields.Nodup
  fields_mem : ∀ name ∈ q.fields, name ∈ schema.fields.map Field.name

structure Filter.IsRepresentable (schema : Schema) (f : Filter) : Prop where
  values_ne_nil : f.values ≠ []
  value_ne_nil : ∀ t ∈ f.values, t ≠ []
  value_isUndivided : ∀ t ∈ f.values, t.IsUndivided
  exists_field : ∃ field ∈ schema.fields, field.name = f.field ∧
    (f.operator.isTextual = false → ∀ t ∈ f.values, ∃ v, field.read t = .ok v)

structure Specification.IsRepresentable (schema : Schema) (s : Specification) : Prop where
  pagination : s.pagination.IsWellFormed
  sort_mem : s.sort.field ∈ schema.fields.map Field.name
  search : ∀ q, s.search = some q → q.IsRepresentable schema
  filters : ∀ f ∈ s.filters, f.IsRepresentable schema
  nodup : (s.filters.map Filter.field).Nodup

namespace Schema.IsAddressable

variable {schema : Schema}

theorem hasDistinctNames (h : schema.IsAddressable) : schema.HasDistinctNames where
  normalName_ne_nil f hf := (h.isWord f hf).normalName_ne_nil
  nodup := by
    have hnames : (schema.fields.map fun f ↦ normalName f.name) =
        schema.fields.map fun f ↦ Text.lower f.name :=
      List.map_congr_left fun f hf ↦ (h.isWord f hf).normalName_eq
    exact hnames ▸ h.nodup

theorem declares (h : schema.IsAddressable) {name : Text}
    (hname : name ∈ schema.fields.map Field.name) : ∃ f, schema.Declares name f := by
  obtain ⟨f, hf, rfl⟩ := List.mem_map.mp hname
  exact ⟨f, Schema.declares_of_mem h.hasDistinctNames hf⟩

theorem isWord_of_mem (h : schema.IsAddressable) {name : Text}
    (hname : name ∈ schema.fields.map Field.name) : name.IsWord := by
  obtain ⟨f, hf, rfl⟩ := List.mem_map.mp hname
  exact h.isWord f hf

theorem notMem_of_mem (h : schema.IsAddressable) {name : Text}
    (hname : name ∈ schema.fields.map Field.name) : name ∉ reservedKeys := by
  obtain ⟨f, hf, rfl⟩ := List.mem_map.mp hname
  exact h.notMem f hf

end Schema.IsAddressable

theorem Filter.IsRepresentable.field_mem {schema : Schema} {f : Filter}
    (h : f.IsRepresentable schema) : f.field ∈ schema.fields.map Field.name := by
  obtain ⟨field, hfield, hname, -⟩ := h.exists_field
  exact List.mem_map.mpr ⟨field, hfield, hname⟩

/-! ## Decoding -/

theorem Text.percentDecode_joinWith_bars (ps : List Text) (t : Text) :
    percentDecode (joinWith ['|'] (ps.map percentEncode) ++ t) =
      joinWith ['|'] ps ++ percentDecode t := by
  induction ps with
  | nil => rfl
  | cons p ps ih =>
      by_cases hps : ps = []
      · subst hps
        exact percentDecode_percentEncode_append p t
      · rw [List.map_cons, joinWith_cons (by simpa using hps), joinWith_cons hps]
        simp only [List.append_assoc, List.cons_append, List.nil_append]
        rw [percentDecode_percentEncode_append, percentDecode_cons (by decide), ih]

theorem Search.percentDecode_argument (q : Search) :
    Text.percentDecode (q.argument Text.percentEncode) = q.argument id := by
  have hcolumns := Text.percentDecode_joinWith_bars q.fields []
  rw [Text.percentDecode_nil, List.append_nil, List.append_nil] at hcolumns
  rw [argument, argument, Text.percentDecode_percentEncode_append,
    Text.percentDecode_cons (by decide), Text.percentDecode_cons (by decide), hcolumns,
    List.map_id, id_eq]

theorem Filter.percentDecode_argument (f : Filter) (code : Text) :
    Text.percentDecode (f.argument Text.percentEncode code) = f.argument id code := by
  rw [argument, argument, Text.percentDecode_joinWith_bars, Text.percentDecode_cons (by decide),
    Text.percentDecode_cons (by decide), Text.percentDecode_percentEncode, List.map_id, id_eq]

namespace Specification

theorem map_percentDecode_toArguments (code : Filter → Text) (s : Specification) :
    ((s.toArguments Text.percentEncode code).map fun a ↦ (a.1, Text.percentDecode a.2)) =
      s.toArguments id code := by
  simp [toArguments, Text.percentDecode_percentEncode, Search.percentDecode_argument,
    Filter.percentDecode_argument, Function.comp_def]

end Specification

section

variable {schema : Schema}

theorem Search.ampersand_notMem_argument (hschema : schema.IsAddressable) {q : Search}
    (h : q.IsRepresentable schema) : '&' ∉ q.argument id := by
  have hcolumns : '&' ∉ Text.joinWith ['|'] q.fields :=
    Text.notMem_joinWith (by decide) fun name hname ↦
      (hschema.isWord_of_mem (h.fields_mem name hname)).isUndivided.ampersand_notMem
  simp [argument, h.value_isUndivided.ampersand_notMem, hcolumns]

theorem Registry.standardCodes_spec : ∀ p ∈ standardCodes,
    standard.resolve? p.1 = some p.2 ∧ '&' ∉ p.1 := by
  decide +kernel

theorem Filter.ampersand_notMem_argument {f : Filter} {code : Text}
    (h : f.IsRepresentable schema) (hcode : (code, f.operator) ∈ Registry.standardCodes) :
    '&' ∉ f.argument id code := by
  have hvalues : '&' ∉ Text.joinWith ['|'] f.values :=
    Text.notMem_joinWith (by decide) fun t ht ↦ (h.value_isUndivided t ht).ampersand_notMem
  simp [argument, hvalues, (Registry.standardCodes_spec _ hcode).2]

/-! ## Reading -/

theorem Pagination.ofArguments_eq {p : Pagination} (h : p.IsWellFormed) {args : Arguments}
    (hnumber : args.get? pageNumberKey = some (Text.ofNat p.number))
    (hsize : args.get? pageSizeKey = some (Text.ofNat p.size)) : ofArguments args = .ok p := by
  have hsizeOf : sizeOf args = .ok ⟨p.size, p.size_pos⟩ := by
    have hpos : 0 < (p.size : Int) := by exact_mod_cast p.size_pos
    simp only [sizeOf, hsize, readPageInt_ofNat h.size_le]
    exact dif_pos hpos
  exact ofArguments_of_parts (numberOf_eq h.number_le hnumber) hsizeOf h.offset_le

theorem Sorting.ofArguments_eq (hschema : schema.IsAddressable) {s : Sorting}
    (hmem : s.field ∈ schema.fields.map Field.name) {args : Arguments} {defaultField : Text}
    (hfield : args.get? sortByKey = some s.field)
    (hdirection : args.get? sortDirectionKey = some s.direction.name) :
    ofArguments schema defaultField args = .ok s := by
  obtain ⟨f, hf⟩ := hschema.declares hmem
  simp [ofArguments, hfield, hf.resolve?_eq, directionOf, hdirection, Direction.ofName?_name,
    hf.name_eq, Except.map]

/-- Columns of names of their own are found as they are, behind those found before. -/
theorem Search.columns_eq (hschema : schema.IsAddressable) {found names : List Text}
    (hmem : ∀ name ∈ names, name ∈ schema.fields.map Field.name)
    (hnodup : (found ++ names).Nodup) : columns schema found names = .ok (found ++ names) := by
  induction names generalizing found with
  | nil => rw [columns, List.append_nil]
  | cons name names ih =>
      obtain ⟨f, hf⟩ := hschema.declares (hmem name List.mem_cons_self)
      have hnotMem : name ∉ found := fun h ↦
        (List.nodup_append.mp hnodup).2.2 name h name List.mem_cons_self rfl
      rw [columns, hf.resolve?_eq]
      simp only [hf.name_eq, if_neg hnotMem]
      rw [ih (fun n hn ↦ hmem n (List.mem_cons_of_mem name hn)) (by simpa using hnodup)]
      simp

theorem Search.ofText_argument (hschema : schema.IsAddressable) {q : Search}
    (h : q.IsRepresentable schema) : ofText schema (q.argument id) = .ok q := by
  have hcut : Text.cutAtBars (q.argument id) =
      some (q.value, Text.joinWith ['|'] q.fields) := by
    rw [argument, List.map_id]
    exact Text.cutAtBars_append_bars h.value_isUndivided.bar_notMem _
  have hcolumns : Text.allBlank (Text.joinWith ['|'] q.fields) = false := by
    obtain ⟨name, hname⟩ := List.exists_mem_of_ne_nil _ h.fields_ne_nil
    have hword := hschema.isWord_of_mem (h.fields_mem name hname)
    obtain ⟨c, hc⟩ := List.exists_mem_of_ne_nil _ hword.ne_nil
    rw [Text.allBlank, List.all_eq_false]
    refine ⟨c, Text.subset_joinWith hname hc, ?_⟩
    intro hblank
    exact hword.notMem (Text.isWordChar_of_isBlank hblank) hc
  have hsplit : Text.splitOn '|' (Text.joinWith ['|'] q.fields) = q.fields :=
    Text.splitOn_joinWith h.fields_ne_nil fun name hname ↦
      (hschema.isWord_of_mem (h.fields_mem name hname)).isUndivided.bar_notMem
  have hnames : columns schema [] q.fields = .ok q.fields :=
    columns_eq hschema h.fields_mem (by simpa using h.nodup)
  simp [ofText, hcut, h.not_allBlank, hcolumns, hsplit, hnames, h.lower_eq, Except.map]

theorem Filter.ofArgument_argument (hschema : schema.IsAddressable) {f : Filter} {code : Text}
    (h : f.IsRepresentable schema) (hcode : (code, f.operator) ∈ Registry.standardCodes) :
    ofArgument schema Registry.standard f.field (f.argument id code) = .ok f := by
  have hbars : ∀ t ∈ f.values, '|' ∉ t := fun t ht ↦ (h.value_isUndivided t ht).bar_notMem
  have hcut : Text.cutAtBars (f.argument id code) =
      some (Text.joinWith ['|'] f.values, code) := by
    rw [argument, List.map_id]
    exact Text.cutAtBars_joinWith h.values_ne_nil
      (fun t ht ↦ h.value_ne_nil t (List.mem_of_mem_tail ht)) hbars _
  have hsegment : Text.joinWith ['|'] f.values ≠ [] := by
    obtain ⟨t, ht⟩ := List.exists_mem_of_ne_nil _ h.values_ne_nil
    obtain ⟨c, hc⟩ := List.exists_mem_of_ne_nil _ (h.value_ne_nil t ht)
    exact List.ne_nil_of_mem (Text.subset_joinWith ht hc)
  have hsplit := Text.splitOn_joinWith h.values_ne_nil hbars
  obtain ⟨field, hfield, hname, hread⟩ := h.exists_field
  have hresolve : schema.resolve? f.field = some field :=
    hname ▸ Schema.resolve?_name hschema.hasDistinctNames hfield
  exact ofArgument_eq_ok_iff.mpr ⟨_, code, f.operator, field, hcut,
    (Registry.standardCodes_spec _ hcode).1, hsegment, hresolve, hsplit.symm ▸ hread,
    by rw [hsplit, hname]⟩

end

namespace Specification

variable {schema : Schema} {code : Filter → Text} {s : Specification}

theorem exists_map_fst_toArguments (encode : Text → Text) (code : Filter → Text)
    (s : Specification) :
    ∃ keys, keys.Sublist reservedKeys ∧
      (s.toArguments encode code).map Prod.fst = keys ++ s.filters.map Filter.field := by
  cases hsearch : s.search with
  | none =>
      refine ⟨[pageNumberKey, pageSizeKey, sortByKey, sortDirectionKey], by decide, ?_⟩
      simp [toArguments, hsearch, Function.comp_def]
  | some q =>
      refine ⟨reservedKeys, List.Sublist.refl _, ?_⟩
      simp [toArguments, hsearch, reservedKeys, Function.comp_def]

theorem nodup_toArguments (hschema : schema.IsAddressable) (h : s.IsRepresentable schema)
    (encode : Text → Text) (code : Filter → Text) :
    (Keyed.keys (s.toArguments encode code)).Nodup := by
  obtain ⟨keys, hkeys, hmap⟩ := exists_map_fst_toArguments encode code s
  have hreserved : reservedKeys.Nodup := by decide
  rw [Keyed.keys, hmap, List.nodup_append]
  refine ⟨hreserved.sublist hkeys, h.nodup, ?_⟩
  rintro key hkey name hname rfl
  obtain ⟨f, hf, rfl⟩ := List.mem_map.mp hname
  exact hschema.notMem_of_mem (h.filters f hf).field_mem (hkeys.mem hkey)

theorem isWord_of_mem_reservedKeys {key : Text} (h : key ∈ reservedKeys) : key.IsWord := by
  have hkeys : ∀ key ∈ reservedKeys, key.IsWord := by decide +kernel
  exact hkeys key h

theorem isWord_of_mem_toArguments (hschema : schema.IsAddressable) (h : s.IsRepresentable schema)
    {encode : Text → Text} {a : Text × Text} (ha : a ∈ s.toArguments encode code) :
    a.1.IsWord := by
  obtain ⟨keys, hkeys, hmap⟩ := exists_map_fst_toArguments encode code s
  have hmem := List.mem_map_of_mem (f := Prod.fst) ha
  rw [hmap, List.mem_append] at hmem
  rcases hmem with hkey | hname
  · exact isWord_of_mem_reservedKeys (hkeys.mem hkey)
  · obtain ⟨f, hf, hfield⟩ := List.mem_map.mp hname
    rw [← hfield]
    exact hschema.isWord_of_mem (h.filters f hf).field_mem

theorem value_of_mem_toArguments (hschema : schema.IsAddressable) (h : s.IsRepresentable schema)
    (hcode : ∀ f ∈ s.filters, (code f, f.operator) ∈ Registry.standardCodes) :
    ∀ a ∈ s.toArguments id code, a.2 ≠ [] ∧ '&' ∉ a.2 := by
  have hnumber : ∀ n, Text.ofNat n ≠ [] ∧ '&' ∉ Text.ofNat n := fun n ↦
    ⟨Text.ofNat_ne_nil n, (Text.isPlain_ofNat n).isUndivided.ampersand_notMem⟩
  have hsort : s.sort.field ≠ [] ∧ '&' ∉ s.sort.field := by
    have hword := hschema.isWord_of_mem h.sort_mem
    exact ⟨hword.ne_nil, hword.isUndivided.ampersand_notMem⟩
  have hdirection : s.sort.direction.name ≠ [] ∧ '&' ∉ s.sort.direction.name := by
    cases s.sort.direction <;> decide
  rw [toArguments, List.forall_mem_append, List.forall_mem_append]
  refine ⟨⟨?_, ?_⟩, ?_⟩
  · simp only [List.forall_mem_cons, id_eq]
    exact ⟨hnumber _, hnumber _, hsort, hdirection, nofun⟩
  · intro a ha
    obtain ⟨q, hq, rfl⟩ := List.mem_map.mp ha
    have hq := h.search q (Option.mem_toList.mp hq)
    exact ⟨by simp [Search.argument], Search.ampersand_notMem_argument hschema hq⟩
  · intro a ha
    obtain ⟨f, hf, rfl⟩ := List.mem_map.mp ha
    exact ⟨by simp [Filter.argument],
      Filter.ampersand_notMem_argument (h.filters f hf) (hcode f hf)⟩

/-- The arguments of a query for a specification are read as they were written. -/
theorem arguments_toQuery (hschema : schema.IsAddressable) (h : s.IsRepresentable schema)
    (hcode : ∀ f ∈ s.filters, (code f, f.operator) ∈ Registry.standardCodes) :
    Arguments.ofQuery (s.toQuery code) = s.toArguments id code := by
  refine Arguments.ofQuery_joinWith_words
    (fun a ha ↦ isWord_of_mem_toArguments hschema h ha) (value_of_mem_toArguments hschema h hcode)
    (nodup_toArguments hschema h id code) ?_
  rw [← map_percentDecode_toArguments, List.map_map, List.map_map]
  apply List.map_congr_left
  intro a _
  simp only [Function.comp_apply]
  rw [Text.percentDecode_percentEncode_append, Text.percentDecode_cons (by decide)]

theorem search_toArguments (hschema : schema.IsAddressable) (h : s.IsRepresentable schema) :
    Search.ofArguments schema (s.toArguments id code) = .ok s.search := by
  cases hsearch : s.search with
  | none =>
      have hnotMem : searchKey ∉ Keyed.keys (s.toArguments id code) := by
        have hkeys : searchKey ∉ [pageNumberKey, pageSizeKey, sortByKey, sortDirectionKey] := by
          decide
        intro hmem
        simp only [Keyed.keys, toArguments, hsearch, Option.toList_none, List.map_nil,
          List.append_nil, List.map_append, List.mem_append] at hmem
        rcases hmem with hmem | hmem
        · exact hkeys hmem
        · obtain ⟨a, ha, hkey⟩ := List.mem_map.mp hmem
          obtain ⟨f, hf, rfl⟩ := List.mem_map.mp ha
          have hfield : searchKey ∉ reservedKeys :=
            hkey ▸ hschema.notMem_of_mem (h.filters f hf).field_mem
          exact hfield (by decide)
      rw [Search.ofArguments, Keyed.get?_eq_none_of_notMem hnotMem]
  | some q =>
      have hget : Keyed.get? searchKey (s.toArguments id code) = some (q.argument id) :=
        Keyed.get?_eq_some_of_mem (nodup_toArguments hschema h id code)
          (by simp [toArguments, hsearch])
      have htext := Search.ofText_argument hschema (h.search q hsearch)
      simp [Search.ofArguments, hget, htext, Except.map]

theorem filters_toArguments (hschema : schema.IsAddressable) (h : s.IsRepresentable schema)
    (hcode : ∀ f ∈ s.filters, (code f, f.operator) ∈ Registry.standardCodes) :
    Filter.ofArguments schema Registry.standard (s.toArguments id code) = .ok s.filters := by
  have hreserved : ((s.toArguments id code).filter fun a ↦ a.1 ∉ reservedKeys) =
      s.filters.map fun f ↦ (f.field, f.argument id (code f)) := by
    have hsearch : ∀ a ∈ s.search.toList.map (fun q ↦ (searchKey, q.argument id)),
        ¬(decide (a.1 ∉ reservedKeys)) = true := by
      intro a ha
      obtain ⟨q, -, rfl⟩ := List.mem_map.mp ha
      simp [reservedKeys]
    have hfilters : ∀ a ∈ s.filters.map (fun f ↦ (f.field, f.argument id (code f))),
        decide (a.1 ∉ reservedKeys) = true := by
      intro a ha
      obtain ⟨f, hf, rfl⟩ := List.mem_map.mp ha
      exact decide_eq_true (hschema.notMem_of_mem (h.filters f hf).field_mem)
    rw [toArguments, List.filter_append, List.filter_append, List.filter_eq_nil_iff.mpr hsearch,
      List.filter_eq_self.mpr hfilters]
    rfl
  rw [Filter.ofArguments, hreserved, Outcome.mapM_eq_ok_iff, List.forall₂_map_left_iff,
    List.forall₂_same]
  exact fun f hf ↦ Filter.ofArgument_argument hschema (h.filters f hf) (hcode f hf)

/-- A specification that can be put into a query is read from that query. -/
theorem ofQuery_toQuery (hschema : schema.IsAddressable) (h : s.IsRepresentable schema)
    (hcode : ∀ f ∈ s.filters, (code f, f.operator) ∈ Registry.standardCodes)
    (defaultSort : Text) :
    ofQuery schema defaultSort Registry.standard (s.toQuery code) = .ok s := by
  have hget : ∀ {key value : Text}, (key, value) ∈ s.toArguments id code →
      Keyed.get? key (s.toArguments id code) = some value :=
    Keyed.get?_eq_some_of_mem (nodup_toArguments hschema h id code)
  have hpagination : Pagination.ofArguments (s.toArguments id code) = .ok s.pagination :=
    Pagination.ofArguments_eq h.pagination (hget (by simp [toArguments]))
      (hget (by simp [toArguments]))
  have hsort : Sorting.ofArguments schema defaultSort (s.toArguments id code) = .ok s.sort :=
    Sorting.ofArguments_eq hschema h.sort_mem (hget (by simp [toArguments]))
      (hget (by simp [toArguments]))
  rw [ofQuery, arguments_toQuery hschema h hcode, ofArguments, hpagination, hsort,
    search_toArguments hschema h, filters_toArguments hschema h hcode]
  rfl

theorem ofQuery_toQuery_customers :
    let code (f : Filter) : Text := if f.operator = .contains then "like".toList else "le".toList
    let s : Specification := ⟨⟨0, 10, by decide⟩, ⟨"created_at".toList, .descending⟩,
      some ⟨"é+ %41?".toList, ["code".toList, "name".toList]⟩,
      [⟨"name".toList, ["Ä=B".toList, " ?%26".toList], .contains⟩,
        ⟨"employees".toList, ["5".toList, " 7".toList], .lessOrEqual⟩]⟩
    s.toQuery code = ("pageNumber=0&pageSize=10&sortBy=created_at&sortDirection=desc".toList ++
      "&query=%C3%A9%2B%20%2541%3F||code|name&name=%C3%84%3DB|%20%3F%2526||like".toList ++
      "&employees=5|%207||le".toList) ∧
    ofQuery Catalog.customers.schema [] Registry.standard (s.toQuery code) = .ok s := by
  intro code s
  have hschema : Catalog.customers.schema.IsAddressable :=
    ⟨by decide +kernel, by decide +kernel, by decide +kernel⟩
  have hsearch : ∀ q, s.search = some q → q.IsRepresentable Catalog.customers.schema := by
    rintro q ⟨⟩
    exact ⟨by decide, by decide +kernel, by decide, by decide, by decide, by decide⟩
  have hfilters : ∀ f ∈ s.filters, f.IsRepresentable Catalog.customers.schema := by
    rw [List.forall_mem_cons, List.forall_mem_singleton]
    constructor
    · exact ⟨by decide, by decide, by decide, Catalog.field "name" .text, by decide, rfl, nofun⟩
    · refine ⟨by decide, by decide, by decide, Catalog.field "employees" .int, by decide, rfl, ?_⟩
      rintro - t ht
      rcases List.mem_pair.mp ht with rfl | rfl
      · exact ⟨.int 5, rfl⟩
      · exact ⟨.int 7, rfl⟩
  have hcode : ∀ f ∈ s.filters, (code f, f.operator) ∈ Registry.standardCodes := by decide
  have hpagination : s.pagination.IsWellFormed := ⟨by decide, by decide, by decide, by decide⟩
  exact ⟨by decide +kernel, ofQuery_toQuery hschema
    ⟨hpagination, by decide, hsearch, hfilters, by decide⟩ hcode []⟩

end Specification

end RecordQuery
