import RecordQuery.Proofs.ArgumentCode
import RecordQuery.Proofs.Literal
import RecordQuery.Proofs.RoundTrip
import RecordQuery.Proofs.ScopedQuery

namespace RecordQuery

/-!
# Values of scopes

A scope puts the code of its value into the query, but the query is decoded
before it is cut. So the code keeps plus signs, percent signs and blanks as
they are, and an ampersand or a bar of the value still divides the query.
-/

/-! ## Values that were read -/

theorem Registry.resolve?_eq_none_of_bar_mem {code : Text} (h : '|' ∈ code) :
    standard.resolve? code = none := by
  have hkeys : ∀ key ∈ standard.codes.keys, '|' ∉ key := by decide
  exact Keyed.get?_eq_none_of_notMem fun hkey ↦ hkeys _ hkey (Text.bar_mem_normalName h)

namespace Filter

variable {schema : Schema} {registry : Registry} {name t : Text}

theorem isUndivided_of_ofArgument (ht : '&' ∉ t) {f : Filter}
    (h : ofArgument schema registry name t = .ok f) : ∀ v ∈ f.values, v.IsUndivided := by
  obtain ⟨segment, code, operator, field, hcut, -, -, -, -, rfl⟩ := ofArgument_eq_ok_iff.mp h
  intro v hv c hc
  constructor
  · rintro rfl
    rw [Text.eq_of_cutAtBars_eq hcut] at ht
    exact ht (List.mem_append_left _ (Text.subset_of_mem_splitOn hv hc))
  · rintro rfl
    exact Text.not_mem_of_mem_splitOn hv hc

/-- Every text is a value of a text field. -/
theorem ofArgument_text {f : Field} (hf : schema.resolve? name = some f) (htype : f.type = .text)
    {segment code : Text} {operator : Operator} (hcut : Text.cutAtBars t = some (segment, code))
    (hcode : registry.resolve? code = some operator) (hsegment : segment ≠ []) :
    ofArgument schema registry name t = .ok ⟨f.name, Text.splitOn '|' segment, operator⟩ := by
  exact ofArgument_eq_ok_iff.mpr ⟨segment, code, operator, f, hcut, hcode, hsegment, hf,
    fun _ v _ ↦ Field.succeeds_read_of_text htype v, rfl⟩

end Filter

namespace Specification

variable {schema : Schema} {defaultSort : Text} {registry : Registry}

/-- No query gives a filter a value with a sign that divides queries. -/
theorem isUndivided_of_ofQuery {query : Text} {s : Specification}
    (h : ofQuery schema defaultSort registry query = .ok s) :
    ∀ f ∈ s.filters, ∀ v ∈ f.values, v.IsUndivided := by
  obtain ⟨-, -, -, hfilters⟩ := ofArguments_eq_ok_iff.mp h
  intro f hf
  obtain ⟨a, ha, hfilter⟩ := Outcome.exists_of_mem_mapM hfilters hf
  have hampersand := (Arguments.isExpressible_ofQuery query).ampersand_notMem a
    (List.mem_of_mem_filter ha)
  exact Filter.isUndivided_of_ofArgument hampersand hfilter

/-- One filter and nothing else. -/
theorem ofArguments_singleton {sortField : Field}
    (hsort : schema.resolve? defaultSort = some sortField) {name t : Text}
    (hname : name ∉ reservedKeys) :
    ofArguments schema defaultSort registry [(name, t)] =
      (Filter.ofArgument schema registry name t).map fun f ↦
        ⟨.standard, ⟨sortField.name, .ascending⟩, none, [f]⟩ := by
  have hget : ∀ key ∈ reservedKeys, Keyed.get? key [(name, t)] = none := by
    intro key hkey
    have hne : name ≠ key := by
      rintro rfl
      exact hname hkey
    exact if_neg hne
  have hpagination : Pagination.ofArguments [(name, t)] = .ok .standard :=
    Pagination.ofArguments_of_parts (by rw [Pagination.numberOf, hget _ (by decide)]; rfl)
      (by rw [Pagination.sizeOf, hget _ (by decide)]; rfl) (by decide)
  have hsorting : Sorting.ofArguments schema defaultSort [(name, t)] =
      .ok ⟨sortField.name, .ascending⟩ := by
    rw [Sorting.ofArguments, Sorting.directionOf, hget _ (by decide), hget _ (by decide)]
    simp only [Option.getD_none, hsort]
    rfl
  have hsearch : Search.ofArguments schema [(name, t)] = .ok none := by
    rw [Search.ofArguments, hget _ (by decide)]
  have hfilters : ([(name, t)].filter fun a ↦ a.1 ∉ reservedKeys) = [(name, t)] := by
    simp [hname]
  rw [ofArguments, hpagination, hsorting, hsearch, Filter.ofArguments, hfilters, List.mapM_cons,
    List.mapM_nil]
  simp only
  cases Filter.ofArgument schema registry name t <;> rfl

end Specification

/-! ## The value of a scope -/

namespace WrittenScope

variable {s : WrittenScope}

/-- The segment of a scope says its argument, if this is not divided. -/
theorem ofQuery_apply_nil (hfield : s.field.IsWord)
    (hoperator : s.operator ∈ Registry.standard.codes.keys) : Arguments.ofQuery (s.apply []) =
      Keyed.putAll [] (Arguments.entries (s.field ++ '=' :: s.argument)) := by
  have happly : s.apply [] = s.segment := rfl
  rw [Arguments.ofQuery, Arguments.plainText, happly, percentDecode_segment hfield hoperator,
    hfield.stripLeft_append]

theorem ofQuery_apply_nil_of_notMem (h : s.IsReadable) :
    Arguments.ofQuery (s.apply []) = [(s.field, s.argument)] := by
  rw [ofQuery_apply_nil h.field_isWord h.operator_mem, Arguments.entries_word h.field_isWord
    (argument_ne_nil s) (ampersand_notMem_argument h)]
  rfl

/-- The value ends at its first ampersand, and what comes behind it are other segments. -/
theorem ofQuery_apply_nil_of_ampersand (hfield : s.field.IsWord)
    (hoperator : s.operator ∈ Registry.standard.codes.keys) {first rest : Text}
    (hfirst : '&' ∉ first) (hvalue : s.value = first ++ '&' :: rest) :
    Arguments.ofQuery (s.apply []) =
      Keyed.putAll (if first = [] then [] else [(s.field, first)])
        (Arguments.entries (rest ++ '|' :: '|' :: s.operator)) := by
  have hdivided : s.field ++ '=' :: s.argument =
      (s.field ++ '=' :: first) ++ '&' :: (rest ++ '|' :: '|' :: s.operator) := by
    simp [argument, hvalue]
  have hstart : '&' ∉ s.field ++ '=' :: first := by
    simp [hfield.isUndivided.ampersand_notMem, hfirst]
  have hentries : Arguments.entries (s.field ++ '=' :: first) =
      if first = [] then [] else [(s.field, first)] := by
    rw [Arguments.entries_of_notMem hstart, Arguments.segment?_of_isWord hfield]
    split <;> rfl
  rw [ofQuery_apply_nil hfield hoperator, hdivided, Arguments.entries_append_cons, hentries,
    Keyed.putAll_append]
  split <;> rfl

end WrittenScope

namespace Scope

section

variable {schema : Schema} {f sortField : Field} {defaultSort code v : Text} {operator : Operator}
  (hf : schema.resolve? f.name = some f) (htype : f.type = .text) (hword : f.name.IsWord)
  (hname : f.name ∉ reservedKeys) (hsort : schema.resolve? defaultSort = some sortField)
  (hcode : (code, operator) ∈ Registry.standardCodes) (hv : v ≠ [])

include hf htype hword hname hsort hcode hv

/-- Without an ampersand the value is cut at its bars only. -/
theorem ofQuery_apply_text_of_notMem (hampersand : '&' ∉ v) :
    Specification.ofQuery schema defaultSort Registry.standard
        ((⟨f.name, v, code⟩ : WrittenScope).apply []) =
      match Text.cutAtBars (v ++ ['|']) with
      | none => .ok ⟨.standard, ⟨sortField.name, .ascending⟩, none,
          [⟨f.name, Text.splitOn '|' v, operator⟩]⟩
      | some (_, rest) => reject (.unknownOperator f.name (rest ++ '|' :: code)) := by
  have hargs : Arguments.ofQuery ((⟨f.name, v, code⟩ : WrittenScope).apply []) =
      [(f.name, v ++ '|' :: '|' :: code)] :=
    WrittenScope.ofQuery_apply_nil_of_notMem ⟨hword, hampersand, List.mem_map_of_mem hcode⟩
  simp only [Specification.ofQuery, hargs, Specification.ofArguments_singleton hsort hname]
  cases hcut : Text.cutAtBars (v ++ ['|']) with
  | none =>
      have hlong := Text.cutAtBars_append_of_eq_none hcut code
      have hresolve := (Registry.standardCodes_spec _ hcode).1
      rw [Filter.ofArgument_text hf htype hlong hresolve hv]
      rfl
  | some p =>
      obtain ⟨before, rest⟩ := p
      have hlong := Text.cutAtBars_append_of_eq_some hcut ('|' :: code)
      have hunknown : Registry.standard.resolve? (rest ++ '|' :: code) = none :=
        Registry.resolve?_eq_none_of_bar_mem (by simp)
      rw [List.append_assoc, List.singleton_append] at hlong
      simp only [Filter.ofArgument, hlong, hunknown]
      rfl

/-- A scope by itself, on a text field, is read as the one filter that it is if and only if no sign
of its value divides queries. Bars make several values of it, and a double bar in the value, or a
bar at its end, makes the rest of it a part of the operator's code. At an ampersand the value is cut
off, together with the operator, and the text behind it is read as further arguments. -/
theorem ofQuery_apply_text :
    let s : Scope := ⟨f.name, .text v, code⟩
    ∃ query, s.apply [] = .ok query ∧
      let outcome := Specification.ofQuery schema defaultSort Registry.standard query
      ((∃ spec, outcome = .ok spec ∧ spec.filters = [⟨f.name, [v], operator⟩]) ↔
          v.IsUndivided) ∧
        ('&' ∉ v → outcome =
          match Text.cutAtBars (v ++ ['|']) with
          | none => .ok ⟨.standard, ⟨sortField.name, .ascending⟩, none,
              [⟨f.name, Text.splitOn '|' v, operator⟩]⟩
          | some (_, rest) => reject (.unknownOperator f.name (rest ++ '|' :: code))) ∧
        ∀ first rest, '&' ∉ first → v = first ++ '&' :: rest →
          Arguments.ofQuery query =
            Keyed.putAll (if first = [] then [] else [(f.name, first)])
              (Arguments.entries (rest ++ '|' :: '|' :: code)) := by
  intro s
  let w : WrittenScope := ⟨f.name, v, code⟩
  have hundivided := ofQuery_apply_text_of_notMem hf htype hword hname hsort hcode hv
  refine ⟨w.apply [], rfl, ⟨?_, ?_⟩, hundivided, ?_⟩
  · rintro ⟨spec, hspec, hfilters⟩
    exact Specification.isUndivided_of_ofQuery hspec _ (hfilters ▸ List.mem_singleton_self _) v
      (List.mem_singleton_self v)
  · intro h
    have hcut : Text.cutAtBars (v ++ ['|']) = none := by
      rw [Text.cutAtBars_append h.bar_notMem]
      rfl
    refine ⟨_, (hundivided h.ampersand_notMem).trans (by rw [hcut]), ?_⟩
    rw [Text.splitOn_of_notMem h.bar_notMem]
  · intro first rest hfirst hvalue
    exact WrittenScope.ofQuery_apply_nil_of_ampersand (s := w) hword
      (List.mem_map_of_mem hcode) hfirst hvalue

end

/-- Signs that are not cut at stay what they are, and a bar makes two values of one. -/
theorem ofQuery_apply_text_status :
    let status (v : String) : Scope := ⟨"status".toList, .text v.toList, "neq".toList⟩
    let outcome (query : Text) : Outcome Specification :=
      Specification.ofQuery Catalog.customers.schema "id".toList Registry.standard query
    (∃ query spec, (status "50% a=b?+ü\n").apply [] = .ok query ∧ outcome query = .ok spec ∧
        spec.filters = [⟨"status".toList, ["50% a=b?+ü\n".toList], .notEquals⟩]) ∧
      ∃ query, (status "Active|New").apply [] = .ok query ∧
        outcome query = .ok ⟨.standard, ⟨"id".toList, .ascending⟩, none,
          [⟨"status".toList, ["Active".toList, "New".toList], .notEquals⟩]⟩ := by
  intro status outcome
  have hstatus : Catalog.customers.schema.resolve? "status".toList =
      some (Catalog.field "status" .text) := by decide +kernel
  have hid : Catalog.customers.schema.resolve? "id".toList =
      some (Catalog.key "id") := by decide +kernel
  have hword : (Catalog.field "status" .text).name.IsWord := by decide +kernel
  have hcode : ("neq".toList, Operator.notEquals) ∈ Registry.standardCodes := by decide
  have h (v : Text) (hv : v ≠ []) := ofQuery_apply_text hstatus rfl hword (by decide) hid hcode hv
  obtain ⟨query, hquery, hone, -⟩ := h "50% a=b?+ü\n".toList (by decide)
  obtain ⟨spec, hspec, hfilters⟩ := hone.mpr (by decide)
  obtain ⟨divided, hdivided, -, hoperator, -⟩ := h "Active|New".toList (by decide)
  exact ⟨⟨query, spec, hquery, hspec, hfilters⟩, divided, hdivided, hoperator (by decide)⟩

/-- One value is read as two, or is cut at its ampersand and the operator is lost with what comes
behind it. A value can bring its own operator, and an argument besides. -/
theorem ofQuery_apply_text_divided :
    let status (v : String) : Outcome Text :=
      (⟨"status".toList, .text v.toList, "eq".toList⟩ : Scope).apply []
    let outcome (v : String) : Outcome Specification :=
      status v >>= Specification.ofQuery Catalog.customers.schema "id".toList Registry.standard
    status "A&B" = .ok "status=A%26B||eq".toList ∧
      outcome "A&B" = reject (.missingOperator "status".toList) ∧
      outcome "Active|New" = .ok ⟨.standard, ⟨"id".toList, .ascending⟩, none,
        [⟨"status".toList, ["Active".toList, "New".toList], .equals⟩]⟩ ∧
      outcome "x||neq&sortBy=name&" = .ok ⟨.standard, ⟨"name".toList, .ascending⟩, none,
        [⟨"status".toList, ["x".toList], .notEquals⟩]⟩ := by
  decide +kernel

end Scope

end RecordQuery
