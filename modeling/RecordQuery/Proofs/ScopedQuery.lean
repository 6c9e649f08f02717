import RecordQuery.Proofs.Scope

namespace RecordQuery

/-!
# What is left of a scoped query

A scope is put over what it keeps of a query. It cuts the query into
segments and then decodes them, while arguments are read from a query that
was decoded first. So a scope replaces the argument on its field and leaves
every other one as it is if no escape of the query holds a sign by which it
is cut.
-/

namespace Arguments

/-- Question marks before a query string do not count. -/
theorem ofQuery_stripLeft (query : Text) :
    ofQuery (Text.stripLeft (· = '?') query) = ofQuery query := by
  have hplain : plainText (Text.stripLeft (· = '?') query) = plainText query := by
    induction query with
    | nil => rfl
    | cons c query ih =>
        by_cases hc : c = '?'
        · subst hc
          have hstrip : ∀ t : Text, Text.stripLeft (· = '?') ('?' :: t) =
              Text.stripLeft (· = '?') t := fun _ ↦ rfl
          rw [hstrip, ih, plainText, plainText, Text.percentDecode_cons (by decide), hstrip]
        · rw [Text.stripLeft_of_head (by simpa using hc)]
  rw [ofQuery, hplain, ofQuery]

/-- Every segment gives its own arguments, one after the other. -/
theorem ofQuery_eq_putAll_segments (query : Text) : ofQuery query = Keyed.putAll []
    ((((WrittenScope.segments query).map Text.percentDecode).modifyHead
      (Text.stripLeft (· = '?'))).flatMap entries) := by
  have hne : WrittenScope.segments query ≠ [] := Text.splitOn_ne_nil _ _
  rw [← ofQuery_joinWith hne, WrittenScope.segments, Text.joinWith_splitOn, ofQuery_stripLeft]

end Arguments

namespace WrittenScope

/-- The arguments of a segment by itself. -/
def segmentArguments (t : Text) : List (Text × Text) := Arguments.entries (Text.percentDecode t)

/-- A scope cuts a query as it is cut when arguments are read from it: no ampersand is escaped,
and neither the first segment nor the first that is kept begins with a question mark. -/
structure CutsAlike (s : WrittenScope) (query : Text) : Prop where
  ampersand_notMem : ∀ t ∈ segments query, '&' ∉ Text.percentDecode t
  first_head_ne : ∀ t ∈ (segments query).head?, (Text.percentDecode t).head? ≠ some '?'
  kept_head_ne : ∀ t ∈ (s.kept query).head?, (Text.percentDecode t).head? ≠ some '?'

instance (s : WrittenScope) (query : Text) : Decidable (s.CutsAlike query) :=
  decidable_of_iff ((∀ t ∈ segments query, '&' ∉ Text.percentDecode t) ∧
      (∀ t ∈ (segments query).head?, (Text.percentDecode t).head? ≠ some '?') ∧
      ∀ t ∈ (s.kept query).head?, (Text.percentDecode t).head? ≠ some '?')
    ⟨fun h ↦ ⟨h.1, h.2.1, h.2.2⟩, fun h ↦ ⟨h.ampersand_notMem, h.first_head_ne, h.kept_head_ne⟩⟩

theorem flatMap_segmentArguments {ts : List Text}
    (h : ∀ t ∈ ts.head?, (Text.percentDecode t).head? ≠ some '?') :
    ((ts.map Text.percentDecode).modifyHead (Text.stripLeft (· = '?'))).flatMap
      Arguments.entries = ts.flatMap segmentArguments := by
  cases ts with
  | nil => rfl
  | cons t ts =>
      have hfixed := Text.stripLeft_of_head?_ne (h t rfl)
      rw [List.map_cons, List.modifyHead_cons, hfixed, List.flatMap_cons, List.flatMap_cons,
        List.flatMap_map]
      rfl

variable {s : WrittenScope}

/-- What a scope puts over what it keeps of a query. -/
theorem ofQuery_apply (h : s.IsReadable) (query : Text) : Arguments.ofQuery (s.apply query) =
    Keyed.put s.field s.argument (Arguments.ofQuery (Text.joinWith ['&'] (s.kept query))) := by
  have hfixed : ∀ t ∈ [Text.percentDecode s.segment], Text.stripLeft (· = '?') t = t := by
    rw [List.forall_mem_singleton, h.percentDecode_segment, h.field_isWord.stripLeft_append]
  have hlast : Arguments.entries (Text.percentDecode s.segment) = [(s.field, s.argument)] := by
    rw [h.percentDecode_segment]
    exact Arguments.entries_word h.field_isWord (argument_ne_nil s) (ampersand_notMem_argument h)
  rw [apply, Arguments.ofQuery_joinWith (List.append_ne_nil_of_right_ne_nil _ (by simp)),
    List.map_append, List.map_singleton, modifyHead_append_of_fixed hfixed, List.flatMap_append,
    List.flatMap_singleton, hlast, Keyed.putAll_append]
  by_cases hkept : s.kept query = []
  · rw [hkept]
    rfl
  · rw [Arguments.ofQuery_joinWith hkept]
    rfl

/-- A segment is kept for its name, and its argument has that name. -/
theorem filter_segmentArguments (h : s.field.IsWord) {t : Text}
    (ht : '&' ∉ Text.percentDecode t) :
    ((segmentArguments t).filter fun e ↦ Text.lower e.1 ≠ Text.lower s.field) =
      if !t.isEmpty && segmentName t ≠ normalName s.field then segmentArguments t else [] := by
  rw [segmentArguments, Arguments.entries_of_notMem ht]
  cases hsegment : Arguments.segment? (Text.percentDecode t) with
  | none => simp
  | some e =>
      obtain ⟨key, value⟩ := e
      obtain ⟨hkey, hdecode⟩ := Arguments.isWord_of_segment?_eq hsegment
      have hnil : t.isEmpty = false := by
        cases t with
        | nil => cases hsegment
        | cons c t => rfl
      have hname : segmentName t = Text.lower key := by
        have hequals : ∀ c ∈ key, (decide (c ≠ '=')) = true := by
          intro c hc
          rw [decide_eq_true_iff]
          rintro rfl
          exact hkey.notMem (by decide +kernel) hc
        rw [segmentName, hdecode, List.takeWhile_append_of_pos hequals, ← hkey.normalName_eq]
        simp
      simp only [hnil, hname, h.normalName_eq, Option.toList_some, List.filter_cons,
        List.filter_nil, Bool.not_false, Bool.true_and]

/-- What is kept of a query that is cut alike are all arguments but those on the field. -/
theorem ofQuery_kept (h : s.field.IsWord) {query : Text} (hquery : s.CutsAlike query) :
    Arguments.ofQuery (Text.joinWith ['&'] (s.kept query)) =
      (Arguments.ofQuery query).filter fun e ↦ Text.lower e.1 ≠ Text.lower s.field := by
  have hkept : Arguments.ofQuery (Text.joinWith ['&'] (s.kept query)) =
      Keyed.putAll [] ((s.kept query).flatMap segmentArguments) := by
    by_cases hnil : s.kept query = []
    · rw [hnil]
      rfl
    · rw [Arguments.ofQuery_joinWith hnil, flatMap_segmentArguments hquery.kept_head_ne]
  have hfilter : (s.kept query).flatMap segmentArguments =
      ((segments query).flatMap segmentArguments).filter
        fun e ↦ Text.lower e.1 ≠ Text.lower s.field := by
    have hampersand := hquery.ampersand_notMem
    rw [kept, List.filter_flatMap]
    generalize segments query = ts at hampersand
    induction ts with
    | nil => rfl
    | cons t ts ih =>
        obtain ⟨ht, hts⟩ := List.forall_mem_cons.mp hampersand
        rw [List.flatMap_cons, filter_segmentArguments h ht, List.filter_cons, ← ih hts]
        split <;> rfl
  rw [hkept, hfilter, Arguments.ofQuery_eq_putAll_segments query,
    flatMap_segmentArguments hquery.first_head_ne]
  exact (Keyed.filter_putAll (p := fun key ↦ Text.lower key ≠ Text.lower s.field) [] _).symm

/-- The arguments of a query that is cut alike, without those on the field, and the scope's. -/
theorem ofQuery_apply_of_cutsAlike (h : s.IsReadable) {query : Text} (hquery : s.CutsAlike query) :
    Arguments.ofQuery (s.apply query) =
      ((Arguments.ofQuery query).filter fun e ↦ Text.lower e.1 ≠ Text.lower s.field) ++
        [(s.field, s.argument)] := by
  have hfield : s.field ∉ Keyed.keys ((Arguments.ofQuery query).filter
      fun e ↦ Text.lower e.1 ≠ Text.lower s.field) := by
    intro hmem
    obtain ⟨e, he, heq⟩ := List.mem_map.mp hmem
    have hne := (List.mem_filter.mp he).2
    rw [heq] at hne
    simp at hne
  rw [ofQuery_apply h, ofQuery_kept h.field_isWord hquery, Keyed.put_of_notMem hfield]

theorem mem_keys_ofQuery_apply (h : s.IsReadable) {query : Text} (hquery : s.CutsAlike query)
    {name : Text} : name ∈ Keyed.keys (Arguments.ofQuery (s.apply query)) ↔
      (name ∈ Keyed.keys (Arguments.ofQuery query) ∧ Text.lower name ≠ Text.lower s.field) ∨
        name = s.field := by
  rw [ofQuery_apply_of_cutsAlike h hquery]
  simp [Keyed.keys]

end WrittenScope

namespace Scope

theorem apply_eq_of_written {s : Scope} {w : WrittenScope} (hs : s.written = .ok w)
    (query : Text) : s.apply query = .ok (w.apply query) := by
  rw [apply, hs]
  rfl

/-- The arguments of a scoped query are those of what was kept with the scope's put over them. If
the scope cuts the query as arguments are cut these are the arguments of the query, without those
on the field in any letter case, and then the scope's. -/
theorem ofQuery_apply_replaces {s : Scope} {w : WrittenScope} (hs : s.written = .ok w)
    (h : w.IsReadable) (query : Text) :
    ∃ next, s.apply query = .ok next ∧
      Arguments.ofQuery next =
        Keyed.put w.field w.argument (Arguments.ofQuery (Text.joinWith ['&'] (w.kept query))) ∧
      (w.CutsAlike query → Arguments.ofQuery next =
        ((Arguments.ofQuery query).filter fun e ↦ Text.lower e.1 ≠ Text.lower w.field) ++
          [(w.field, w.argument)]) :=
  ⟨w.apply query, apply_eq_of_written hs query, WrittenScope.ofQuery_apply h query,
    WrittenScope.ofQuery_apply_of_cutsAlike h⟩

/-- The field is sent in other letters, another argument twice, and a plus sign in a value. -/
theorem ofQuery_apply_replaces_status :
    let query := "?STATUS=X||eq&a=1&code=C+1||eq&a=2%3F".toList
    let status : Scope := ⟨"status".toList, .text "Active|New".toList, "eq".toList⟩
    ∃ w next, status.written = .ok w ∧ w.IsReadable ∧ w.CutsAlike query ∧
      status.apply query = .ok next ∧ Arguments.ofQuery next =
        [("a".toList, "2?".toList), ("code".toList, "C 1||eq".toList),
          ("status".toList, "Active|New||eq".toList)] := by
  intro query status
  let w : WrittenScope := ⟨"status".toList, "Active|New".toList, "eq".toList⟩
  have hw : w.IsReadable := by decide +kernel
  have hquery : w.CutsAlike query := by decide +kernel
  obtain ⟨next, hnext, -, hargs⟩ := ofQuery_apply_replaces (s := status) rfl hw query
  refine ⟨w, next, rfl, hw, hquery, hnext, (hargs hquery).trans ?_⟩
  decide +kernel

/-- An escaped ampersand hides the field from the scope, and lets it leave out another argument.
A question mark gets to the beginning of the query when the segments before it are left out. -/
theorem ofQuery_apply_overreaches :
    let status : Scope := ⟨"status".toList, .text "Active".toList, "eq".toList⟩
    let argument (query : String) (name : String) : Outcome (Option Text) :=
      (status.apply query.toList).map fun next ↦ (Arguments.ofQuery next).get? name.toList
    (∃ w, status.written = .ok w ∧ w.IsReadable) ∧
      argument "code=1%26Status=2" "Status" = .ok (some "2".toList) ∧
      ((Arguments.ofQuery "Status=2%26code=1".toList).get? "code".toList = some "1".toList ∧
        argument "Status=2%26code=1" "code" = .ok none) ∧
      (Arguments.ofQuery "Status=2&?code=1".toList).get? "code".toList = none ∧
        argument "Status=2&?code=1" "code" = .ok (some "1".toList) := by
  intro status argument
  refine ⟨⟨_, rfl, ?_⟩, ?_⟩
  · decide +kernel
  · decide +kernel

end Scope

/-! ## Filters of a scoped query -/

namespace Filter

variable {schema : Schema} {registry : Registry}

/-- A filter on one value and an operator. -/
theorem eq_of_ofArgument_append_bars {name value code : Text} (hvalue : '|' ∉ value) {f : Filter}
    (h : ofArgument schema registry name (value ++ '|' :: '|' :: code) = .ok f) :
    ∃ field operator, schema.resolve? name = some field ∧
      registry.resolve? code = some operator ∧ f = ⟨field.name, [value], operator⟩ := by
  obtain ⟨segment, code, operator, field, hcut, hoperator, -, hfield, -, rfl⟩ :=
    ofArgument_eq_ok_iff.mp h
  rw [Text.cutAtBars_append_bars hvalue] at hcut
  cases hcut
  exact ⟨field, operator, hfield, hoperator, by rw [Text.splitOn_of_notMem hvalue]⟩

theorem resolve?_eq_of_ofArgument {name t : Text} {f : Filter}
    (h : ofArgument schema registry name t = .ok f) :
    (schema.resolve? name).map Field.name = some f.field := by
  obtain ⟨field, hfield, hname, -⟩ := exists_of_ofArgument_eq_ok h
  rw [hfield, hname]
  rfl

/-- One filter on a field comes from one argument that finds it. -/
theorem filter_field_eq_iff {args : Arguments} {filters : List Filter}
    (h : args.mapM (fun (name, t) ↦ ofArgument schema registry name t) = .ok filters)
    (hnodup : (Keyed.keys args).Nodup) {key t : Text} {f : Filter} (hmem : (key, t) ∈ args)
    (hf : ofArgument schema registry key t = .ok f) :
    filters.filter (fun g ↦ g.field = f.field) = [f] ↔
      ∀ name ∈ Keyed.keys args, name ≠ key →
        (schema.resolve? name).map Field.name ≠ some f.field := by
  let finds (a : Text × Text) : Bool := (schema.resolve? a.1).map Field.name = some f.field
  have hfound : finds (key, t) = true := decide_eq_true (resolve?_eq_of_ofArgument hf)
  -- arguments and filters stay side by side when both are narrowed to the field
  have hrel : List.Forall₂ (fun (a : Text × Text) g ↦ ofArgument schema registry a.1 a.2 = .ok g)
      (args.filter finds) (filters.filter fun g ↦ g.field = f.field) := by
    refine List.rel_filter ?_ (Outcome.mapM_eq_ok_iff.mp h)
    intro a g hg
    simp only [finds, resolve?_eq_of_ofArgument hg, Option.some.injEq]
  constructor
  · intro hone name hname hne hfinds
    obtain ⟨a, ha, rfl⟩ := List.mem_map.mp hname
    rw [hone] at hrel
    obtain ⟨b, hb⟩ := List.length_eq_one_iff.mp hrel.length_eq
    have hkey : (key, t) = b := List.mem_singleton.mp (hb ▸ List.mem_filter.mpr ⟨hmem, hfound⟩)
    have hname : a = b :=
      List.mem_singleton.mp (hb ▸ List.mem_filter.mpr ⟨ha, decide_eq_true hfinds⟩)
    exact hne (by rw [hname, ← hkey])
  · intro hothers
    have hsame : args.filter finds = args.filter fun e ↦ e.1 = key := by
      apply List.filter_congr
      intro a ha
      apply decide_eq_decide.mpr
      constructor
      · intro hfinds
        by_contra hne
        exact hothers a.1 (List.mem_map_of_mem ha) hne hfinds
      · intro heq
        rw [heq]
        exact resolve?_eq_of_ofArgument hf
    rw [hsame, Keyed.filter_key_eq hnodup hmem] at hrel
    obtain ⟨g, rest, hg, hrest, heq⟩ := List.forall₂_cons_left_iff.mp hrel
    cases hrest
    rw [heq, Except.ok.inj (hg.symm.trans hf)]

end Filter

namespace Specification

variable {schema : Schema} {registry : Registry} {defaultSort : Text}

/-- The filter of an argument on one value is the only one on its field if and only if no other
argument finds the field by its name. -/
theorem exists_filter_of_argument {args : Arguments} {spec : Specification}
    (hspec : ofArguments schema defaultSort registry args = .ok spec) (hkeys : args.keys.Nodup)
    {key value code : Text} (hkey : key ∉ reservedKeys) (hvalue : '|' ∉ value)
    (hmem : (key, value ++ '|' :: '|' :: code) ∈ args) :
    ∃ field operator, schema.resolve? key = some field ∧
      registry.resolve? code = some operator ∧
      ⟨field.name, [value], operator⟩ ∈ spec.filters ∧
      (spec.filters.filter (fun f ↦ f.field = field.name) = [⟨field.name, [value], operator⟩] ↔
        ∀ name ∈ Keyed.keys args, name ∉ reservedKeys → name ≠ key →
          (schema.resolve? name).map Field.name ≠ some field.name) := by
  obtain ⟨-, -, -, hfilters⟩ := ofArguments_eq_ok_iff.mp hspec
  have hunreserved : (key, value ++ '|' :: '|' :: code) ∈
      args.filter fun a ↦ a.1 ∉ reservedKeys :=
    List.mem_filter.mpr ⟨hmem, by simpa using hkey⟩
  obtain ⟨f, hf, hargument⟩ := Outcome.exists_of_mapM_eq_ok hfilters hunreserved
  obtain ⟨field, operator, hfield, hoperator, rfl⟩ :=
    Filter.eq_of_ofArgument_append_bars hvalue hargument
  have hnodup : (Keyed.keys (args.filter fun a ↦ a.1 ∉ reservedKeys)).Nodup :=
    hkeys.sublist (List.filter_sublist.map Prod.fst)
  have hnames : ∀ name, name ∈ Keyed.keys (args.filter fun a ↦ a.1 ∉ reservedKeys) ↔
      name ∈ Keyed.keys args ∧ name ∉ reservedKeys := by
    intro name
    simp [Keyed.keys]
  have hone := Filter.filter_field_eq_iff hfilters hnodup hunreserved hargument
  simp only [hnames, and_imp] at hone
  exact ⟨field, operator, hfield, hoperator, hf, hone⟩

/-- A scoped query that is accepted has the filter of the scope. This is the only one on its field
if and only if no other argument finds the field by its name, and where the scope cuts the query as
arguments are cut, if the client sent no argument that finds it by a name which differs in more
than letter case. -/
theorem filters_scoped {s : Scope} {w : WrittenScope} (hs : s.written = .ok w)
    (h : w.IsEnforceable) {query next : Text} (hnext : s.apply query = .ok next)
    {spec : Specification} (hspec : ofQuery schema defaultSort registry next = .ok spec) :
    ∃ field operator, schema.resolve? s.field = some field ∧
      registry.resolve? s.operator = some operator ∧
      (schema.HasDistinctNames → s.field ∈ schema.fields.map Field.name → field.name = s.field) ∧
      ⟨field.name, [w.value], operator⟩ ∈ spec.filters ∧
      (spec.filters.filter (fun f ↦ f.field = field.name) = [⟨field.name, [w.value], operator⟩] ↔
        ∀ name ∈ Keyed.keys (Arguments.ofQuery next), name ∉ reservedKeys →
          name ≠ s.field → (schema.resolve? name).map Field.name ≠ some field.name) ∧
      (w.CutsAlike query →
        (spec.filters.filter (fun f ↦ f.field = field.name) =
            [⟨field.name, [w.value], operator⟩] ↔
          ∀ name ∈ Keyed.keys (Arguments.ofQuery query), name ∉ reservedKeys →
            Text.lower name ≠ Text.lower s.field →
              (schema.resolve? name).map Field.name ≠ some field.name)) := by
  cases (Scope.apply_eq_of_written hs query).symm.trans hnext
  obtain ⟨t, -, rfl⟩ := Scope.written_eq_ok_iff.mp hs
  let w : WrittenScope := ⟨s.field, t, s.operator⟩
  have hget : (Arguments.ofQuery (w.apply query)).get? s.field = some w.argument := by
    rw [WrittenScope.ofQuery_apply h.isReadable]
    exact Keyed.get?_put_self _ _ _
  obtain ⟨field, operator, hfield, hoperator, hmem, hone⟩ :=
    exists_filter_of_argument hspec (Arguments.nodup_keys_ofQuery _) h.field_notMem
      h.value_isUndivided.bar_notMem (Keyed.mem_of_get?_eq hget)
  refine ⟨field, operator, hfield, hoperator, ?_, hmem, hone, ?_⟩
  · intro hdistinct hname
    obtain ⟨g, hg, hgname⟩ := List.mem_map.mp hname
    have hresolve := Schema.resolve?_name hdistinct hg
    rw [hgname, hfield, Option.some.injEq] at hresolve
    rw [hresolve, hgname]
  · intro hquery
    rw [hone]
    constructor
    · intro hothers name hname hreserved hlower
      have hkey : name ∈ Keyed.keys (Arguments.ofQuery (w.apply query)) :=
        (WrittenScope.mem_keys_ofQuery_apply h.isReadable hquery).mpr (.inl ⟨hname, hlower⟩)
      refine hothers name hkey hreserved ?_
      rintro rfl
      exact hlower rfl
    · intro hothers name hname hreserved hne
      obtain ⟨hname, hlower⟩ :=
        ((WrittenScope.mem_keys_ofQuery_apply h.isReadable hquery).mp hname).resolve_right hne
      exact hothers name hname hreserved hlower

/-- The field of the scope is sent in other letters. -/
theorem filters_scoped_status :
    let query := "?STATUS=X||eq&code=C||contains&pageSize=5".toList
    let status : Scope := ⟨"status".toList, .text "Active".toList, "neq".toList⟩
    ∃ w next spec, status.written = .ok w ∧ w.IsEnforceable ∧ w.CutsAlike query ∧
      status.apply query = .ok next ∧
      ofQuery Catalog.customers.schema "id".toList Registry.standard next = .ok spec ∧
        spec.filters.filter (fun f ↦ f.field = "status".toList) =
          [⟨"status".toList, ["Active".toList], .notEquals⟩] := by
  intro query status
  let w : WrittenScope := ⟨"status".toList, "Active".toList, "neq".toList⟩
  have hw : w.IsEnforceable := by decide +kernel
  have hquery : w.CutsAlike query := by decide +kernel
  obtain ⟨spec, hspec⟩ : ∃ spec, ofQuery Catalog.customers.schema "id".toList Registry.standard
      (w.apply query) = .ok spec := by
    refine ⟨⟨⟨1, 5, by decide⟩, ⟨"id".toList, .ascending⟩, none,
      [⟨"code".toList, ["C".toList], .contains⟩,
        ⟨"status".toList, ["Active".toList], .notEquals⟩]⟩, ?_⟩
    decide +kernel
  have hnext : status.apply query = .ok (w.apply query) := rfl
  obtain ⟨field, operator, hfield, hoperator, -, -, -, hone⟩ :=
    filters_scoped (s := status) rfl hw hnext hspec
  have hstatusField : Catalog.customers.schema.resolve? "status".toList =
      some (Catalog.field "status" .text) := by decide +kernel
  cases hstatusField.symm.trans hfield
  have hnotEquals : Registry.standard.resolve? "neq".toList = some .notEquals := by decide +kernel
  cases hnotEquals.symm.trans hoperator
  exact ⟨w, _, spec, rfl, hw, hquery, hnext, hspec, (hone hquery).mpr (by decide +kernel)⟩

/-- A field is found under its name without the underscore too, which the scope takes for another
one; and where two fields differ in letter case only, the scope is a filter on the other one. -/
theorem filters_scoped_spellings :
    let created : Scope := ⟨"created_at".toList, .text "2024-06-01".toList, "lt".toList⟩
    let status : Scope := ⟨"status".toList, .text "Active".toList, "eq".toList⟩
    let user : Scope := ⟨"user".toList, .text "Ada".toList, "eq".toList⟩
    let filters (schema : Schema) (s : Scope) (query : String) : Outcome (List Filter) := do
      return (← ofQuery schema "id".toList Registry.standard (← s.apply query.toList)).filters
    (∀ s ∈ [created, status, user], ∃ w, s.written = .ok w ∧ w.IsEnforceable) ∧
      filters Catalog.customers.schema created "createdAt=2024-01-01||gt" =
        .ok [⟨"created_at".toList, ["2024-01-01".toList], .greaterThan⟩,
          ⟨"created_at".toList, ["2024-06-01".toList], .lessThan⟩] ∧
      filters Catalog.customers.schema status "code=A||eq%26Status=X||eq" =
        .ok [⟨"code".toList, ["A".toList], .equals⟩, ⟨"status".toList, ["X".toList], .equals⟩,
          ⟨"status".toList, ["Active".toList], .equals⟩] ∧
      filters (Schema.ofFields
            [("id".toList, .int), ("user".toList, .text), ("User".toList, .text)]) user "" =
        .ok [⟨"User".toList, ["Ada".toList], .equals⟩] := by
  intro created status user filters
  refine ⟨?_, ?_⟩
  · rw [List.forall_mem_cons, List.forall_mem_cons, List.forall_mem_singleton]
    exact ⟨⟨_, rfl, by decide +kernel⟩, ⟨_, rfl, by decide +kernel⟩, ⟨_, rfl, by decide +kernel⟩⟩
  · decide +kernel

end Specification

end RecordQuery
