import RecordQuery.Catalog
import RecordQuery.Proofs.Arguments
import RecordQuery.Proofs.Value.Plain
import RecordQuery.Proofs.WellFormed
import RecordQuery.RecordList
import RecordQuery.Scope

namespace RecordQuery

/-!
# Scopes hold

Scopes put their segments at the end of a query string, one after the
other. Whatever the client sent, it says nothing under the fields of the
scopes that would count, and what is accepted is in every scope. A scope
cannot be put there only if its value is a number too long to be written.
-/

namespace WrittenScope

theorem modifyHead_append_of_fixed {α : Type} {f : α → α} {l rest : List α}
    (h : ∀ a ∈ rest, f a = a) : (l ++ rest).modifyHead f = l.modifyHead f ++ rest := by
  cases l with
  | cons a l => rfl
  | nil =>
      cases rest with
      | nil => rfl
      | cons b rest => simp [h b List.mem_cons_self]

/-- What the argument of a scope says, operator included. -/
def argument (s : WrittenScope) : Text := s.value ++ '|' :: '|' :: s.operator

/-- A scope on a field by a value that is a single one in a query, with an operator that
every query may use. -/
structure IsEnforceable (s : WrittenScope) : Prop where
  field_isWord : s.field.IsWord
  field_notMem : s.field ∉ reservedKeys
  value_ne_nil : s.value ≠ []
  value_isUndivided : s.value.IsUndivided
  operator_mem : s.operator ∈ Registry.standard.codes.keys

/-- A scope whose segment says what the scope says. Its value may have bars in it. -/
structure IsReadable (s : WrittenScope) : Prop where
  field_isWord : s.field.IsWord
  ampersand_notMem : '&' ∉ s.value
  operator_mem : s.operator ∈ Registry.standard.codes.keys

instance (s : WrittenScope) : Decidable s.IsEnforceable :=
  decidable_of_iff (s.field.IsWord ∧ s.field ∉ reservedKeys ∧ s.value ≠ [] ∧
      s.value.IsUndivided ∧ s.operator ∈ Registry.standard.codes.keys)
    ⟨fun ⟨hword, hfield, hvalue, hundivided, hoperator⟩ ↦
        ⟨hword, hfield, hvalue, hundivided, hoperator⟩,
      fun h ↦ ⟨h.field_isWord, h.field_notMem, h.value_ne_nil, h.value_isUndivided,
        h.operator_mem⟩⟩

instance (s : WrittenScope) : Decidable s.IsReadable :=
  decidable_of_iff (s.field.IsWord ∧ '&' ∉ s.value ∧
      s.operator ∈ Registry.standard.codes.keys)
    ⟨fun ⟨hword, hvalue, hoperator⟩ ↦ ⟨hword, hvalue, hoperator⟩,
      fun h ↦ ⟨h.field_isWord, h.ampersand_notMem, h.operator_mem⟩⟩

variable {s : WrittenScope}

theorem IsEnforceable.isReadable (h : s.IsEnforceable) : s.IsReadable :=
  ⟨h.field_isWord, h.value_isUndivided.ampersand_notMem, h.operator_mem⟩

/-! ## One segment -/

theorem operator_isLiteral (h : s.operator ∈ Registry.standard.codes.keys) :
    s.operator.IsLiteral ∧ '&' ∉ s.operator := by
  have hcodes : ∀ code ∈ Registry.standard.codes.keys, Text.IsLiteral code ∧ '&' ∉ code := by
    decide
  exact hcodes _ h

/-- The value of a scope is decoded to what it was, whatever signs are in it. -/
theorem percentDecode_segment (hfield : s.field.IsWord)
    (hoperator : s.operator ∈ Registry.standard.codes.keys) :
    Text.percentDecode s.segment = s.field ++ '=' :: s.argument := by
  have hfield : Text.IsLiteral (s.field ++ ['=']) :=
    Text.isLiteral_append.mpr ⟨hfield.isLiteral, by decide⟩
  have htail : Text.IsLiteral ('|' :: '|' :: s.operator) := by
    rw [Text.isLiteral_cons, Text.isLiteral_cons]
    exact ⟨by decide, by decide, (operator_isLiteral hoperator).1⟩
  have hsegment : s.segment = (s.field ++ ['=']) ++
      (Text.percentEncode s.value ++ '|' :: '|' :: s.operator) := by
    simp [segment]
  rw [hsegment, Text.percentDecode_append_of_isLiteral hfield,
    Text.percentDecode_percentEncode_append, Text.percentDecode_of_isLiteral htail]
  simp [argument]

theorem IsReadable.percentDecode_segment (h : s.IsReadable) :
    Text.percentDecode s.segment = s.field ++ '=' :: s.argument :=
  WrittenScope.percentDecode_segment h.field_isWord h.operator_mem

theorem ampersand_notMem_segment (h : s.IsReadable) : '&' ∉ s.segment := by
  have hfield : '&' ∉ s.field := h.field_isWord.isUndivided.ampersand_notMem
  have hvalue : '&' ∉ Text.percentEncode s.value := by
    intro hmem
    rcases Text.eq_or_isUnreserved_of_mem_percentEncode hmem with hc | hc
    · exact absurd hc (by decide)
    · exact absurd hc (by decide)
  simp [segment, hfield, hvalue, (operator_isLiteral h.operator_mem).2]

theorem segment_ne_nil (s : WrittenScope) : s.segment ≠ [] := by simp [segment]

theorem segmentName_segment (h : s.IsReadable) :
    segmentName s.segment = normalName s.field := by
  have hequals : '=' ∉ s.field := h.field_isWord.notMem (by decide +kernel)
  have hfield : ∀ c ∈ s.field, (decide (c ≠ '=')) = true := by
    intro c hc
    rw [decide_eq_true_iff]
    rintro rfl
    exact hequals hc
  rw [segmentName, h.percentDecode_segment, List.takeWhile_append_of_pos hfield]
  simp

theorem stripLeft_segment (h : s.IsReadable) :
    Text.stripLeft (· = '?') s.segment = s.segment := by
  simpa [segment] using h.field_isWord.stripLeft_append
    ('=' :: Text.percentEncode s.value ++ "||".toList ++ s.operator)

theorem argument_ne_nil (s : WrittenScope) : s.argument ≠ [] := by simp [argument]

theorem ampersand_notMem_argument (h : s.IsReadable) : '&' ∉ s.argument := by
  simp [argument, h.ampersand_notMem, (operator_isLiteral h.operator_mem).2]

/-! ## Segments at the end -/

/-- A query string that ends in the segments of some scopes; the segments before them are
those that are left to the client. -/
def EndsIn (scopes : List WrittenScope) (query : Text) : Prop :=
  ∃ client : List Text, (∀ t ∈ client, '&' ∉ t) ∧
    query = Text.joinWith ['&'] (client ++ scopes.map segment)

theorem endsIn_nil (query : Text) : EndsIn [] query :=
  ⟨Text.splitOn '&' query, fun _ ht ↦ Text.not_mem_of_mem_splitOn ht, by
    rw [List.map_nil, List.append_nil, Text.joinWith_splitOn]⟩

theorem ampersand_notMem_modifyHead {pieces : List Text} (h : ∀ t ∈ pieces, '&' ∉ t) :
    ∀ t ∈ pieces.modifyHead (Text.stripLeft (· = '?')), '&' ∉ t := by
  cases pieces with
  | nil => exact nofun
  | cons t pieces =>
      rw [List.modifyHead_cons, List.forall_mem_cons]
      exact ⟨Text.notMem_stripLeft (h t List.mem_cons_self),
        fun u hu ↦ h u (List.mem_cons_of_mem t hu)⟩

theorem segments_joinWith {pieces : List Text} (hne : pieces ≠ [])
    (h : ∀ t ∈ pieces, '&' ∉ t) :
    segments (Text.joinWith ['&'] pieces) =
      pieces.modifyHead (Text.stripLeft (· = '?')) := by
  have hstripped : pieces.modifyHead (Text.stripLeft (· = '?')) ≠ [] := by
    cases pieces with
    | nil => exact absurd rfl hne
    | cons t pieces => simp
  rw [segments, Text.stripLeft_joinWith (by decide),
    Text.splitOn_joinWith hstripped (ampersand_notMem_modifyHead h)]

/-- What is kept of a query string are segments of the client and all scopes on other fields. -/
theorem exists_kept_eq {scopes : List WrittenScope} {query : Text}
    (hscopes : ∀ o ∈ scopes, o.IsEnforceable)
    (hne : ∀ o ∈ scopes, normalName o.field ≠ normalName s.field) (h : EndsIn scopes query) :
    ∃ client : List Text, (∀ t ∈ client, '&' ∉ t) ∧
      s.kept query = client ++ scopes.map segment := by
  obtain ⟨client, hclient, rfl⟩ := h
  by_cases hnil : client ++ scopes.map segment = []
  · obtain ⟨rfl, hscopes⟩ := List.append_eq_nil_iff.mp hnil
    exact ⟨[], nofun, by rw [hscopes]; rfl⟩
  have hpieces : ∀ t ∈ client ++ scopes.map segment, '&' ∉ t := by
    rw [List.forall_mem_append, List.forall_mem_map]
    exact ⟨hclient, fun o ho ↦ ampersand_notMem_segment (hscopes o ho).isReadable⟩
  have hfixed : ∀ t ∈ scopes.map segment, Text.stripLeft (· = '?') t = t := by
    rw [List.forall_mem_map]
    intro o ho
    exact stripLeft_segment (hscopes o ho).isReadable
  have hkeep : ∀ t ∈ scopes.map segment,
      (!t.isEmpty && decide (segmentName t ≠ normalName s.field)) = true := by
    rw [List.forall_mem_map]
    intro o ho
    simp [segment_ne_nil o, segmentName_segment (hscopes o ho).isReadable, hne o ho]
  refine ⟨(client.modifyHead (Text.stripLeft (· = '?'))).filter
    fun t ↦ !t.isEmpty && decide (segmentName t ≠ normalName s.field), ?_, ?_⟩
  · intro t ht
    exact ampersand_notMem_modifyHead hclient t (List.mem_of_mem_filter ht)
  · rw [kept, segments_joinWith hnil hpieces, modifyHead_append_of_fixed hfixed,
      List.filter_append, List.filter_eq_self.mpr hkeep]

theorem endsIn_apply {scopes : List WrittenScope} {query : Text}
    (hscopes : ∀ o ∈ scopes, o.IsEnforceable)
    (hne : ∀ o ∈ scopes, normalName o.field ≠ normalName s.field) (h : EndsIn scopes query) :
    EndsIn (scopes ++ [s]) (s.apply query) := by
  obtain ⟨client, hclient, hkept⟩ := exists_kept_eq hscopes hne h
  refine ⟨client, hclient, ?_⟩
  rw [apply, hkept]
  simp

theorem endsIn_applyAll {done scopes : List WrittenScope} {query : Text}
    (hscopes : ∀ o ∈ done ++ scopes, o.IsEnforceable)
    (hnodup : ((done ++ scopes).map fun o ↦ normalName o.field).Nodup) (h : EndsIn done query) :
    EndsIn (done ++ scopes) (applyAll query scopes) := by
  induction scopes generalizing done query with
  | nil => simpa using h
  | cons s scopes ih =>
      have hdone : ∀ o ∈ done, o.IsEnforceable := fun o ho ↦
        hscopes o (List.mem_append_left _ ho)
      have hne : ∀ o ∈ done, normalName o.field ≠ normalName s.field := by
        intro o ho
        rw [List.map_append] at hnodup
        exact (List.nodup_append.mp hnodup).2.2 _ (List.mem_map_of_mem ho) _
          (by simp)
      have hnext := endsIn_apply hdone hne h
      rw [applyAll_cons, List.append_cons]
      exact ih (by simpa using hscopes) (by simpa using hnodup) hnext

/-! ## What a scoped query says -/

/-- A scoped query has one argument under the field of each scope, and that is the scope's. -/
theorem get?_ofQuery_of_endsIn {scopes : List WrittenScope} {query : Text}
    (hscopes : ∀ o ∈ scopes, o.IsEnforceable)
    (hnodup : (scopes.map fun o ↦ normalName o.field).Nodup) (h : EndsIn scopes query)
    (hs : s ∈ scopes) : (Arguments.ofQuery query).get? s.field = some s.argument := by
  obtain ⟨client, -, rfl⟩ := h
  have hne : client ++ scopes.map segment ≠ [] := by
    intro h
    rw [(List.map_eq_nil_iff.mp (List.append_eq_nil_iff.mp h).2)] at hs
    cases hs
  have hfixed : ∀ t ∈ (scopes.map segment).map Text.percentDecode,
      Text.stripLeft (· = '?') t = t := by
    intro t ht
    rw [List.map_map] at ht
    obtain ⟨o, ho, rfl⟩ := List.mem_map.mp ht
    rw [Function.comp_apply, (hscopes o ho).isReadable.percentDecode_segment,
      (hscopes o ho).field_isWord.stripLeft_append]
  have hentries : ((scopes.map segment).map Text.percentDecode).flatMap Arguments.entries =
      scopes.map fun o ↦ (o.field, o.argument) := by
    rw [List.map_map, List.flatMap_map, List.map_eq_flatMap]
    apply List.flatMap_congr
    intro o ho
    rw [Function.comp_apply, (hscopes o ho).isReadable.percentDecode_segment]
    exact Arguments.entries_word (hscopes o ho).field_isWord (argument_ne_nil o)
      (ampersand_notMem_argument (hscopes o ho).isReadable)
  have hfields : ((scopes.map fun o ↦ (o.field, o.argument)).map Prod.fst).Nodup := by
    have hmap : (scopes.map fun o ↦ normalName o.field) =
        ((scopes.map fun o ↦ (o.field, o.argument)).map Prod.fst).map normalName := by
      simp [Function.comp_def]
    exact List.Nodup.of_map normalName (hmap ▸ hnodup)
  rw [Arguments.ofQuery_joinWith hne, List.map_append, modifyHead_append_of_fixed hfixed,
    List.flatMap_append, hentries, Keyed.putAll_append]
  exact Keyed.get?_putAll_of_mem hfields (List.mem_map_of_mem hs) _

theorem get?_ofQuery_applyAll (query : Text) {scopes : List WrittenScope}
    (hscopes : ∀ s ∈ scopes, s.IsEnforceable)
    (hnodup : (scopes.map fun s ↦ Text.lower s.field).Nodup) (hs : s ∈ scopes) :
    (Arguments.ofQuery (applyAll query scopes)).get? s.field = some s.argument := by
  have hmap : (scopes.map fun s ↦ normalName s.field) = scopes.map fun s ↦ Text.lower s.field :=
    List.map_congr_left fun s hs ↦ (hscopes s hs).field_isWord.normalName_eq
  have hends : EndsIn scopes (applyAll query scopes) :=
    endsIn_applyAll (by simpa using hscopes) (by simpa using hmap ▸ hnodup) (endsIn_nil query)
  exact get?_ofQuery_of_endsIn hscopes (hmap ▸ hnodup) hends hs

end WrittenScope

/-! ## What a scoped query accepts -/

namespace Specification

theorem exists_filter_of_mem {schema : Schema} {defaultSort : Text} {registry : Registry}
    {args : Arguments} {spec : Specification}
    (h : ofArguments schema defaultSort registry args = .ok spec) {name t : Text}
    (hmem : (name, t) ∈ args) (hname : name ∉ reservedKeys) :
    ∃ f ∈ spec.filters, Filter.ofArgument schema registry name t = .ok f := by
  obtain ⟨-, -, -, hfilters⟩ := ofArguments_eq_ok_iff.mp h
  exact Outcome.exists_of_mapM_eq_ok hfilters (List.mem_filter.mpr ⟨hmem, by simpa using hname⟩)

/-- The condition of a specification with nothing but one filter. -/
def conditionOf (schema : Schema) (spec : Specification) (f : Filter) : Outcome Condition :=
  condition schema { spec with search := none, filters := [f] }

/-- What a condition accepts is accepted by each filter alone. -/
theorem exists_conditionOf_holds {schema : Schema} {spec : Specification} {c : Condition}
    {r : Record} (hc : spec.condition schema = .ok c) (hr : c.holds r = .ok true) {f : Filter}
    (hf : f ∈ spec.filters) :
    ∃ alone, conditionOf schema spec f = .ok alone ∧ alone.holds r = .ok true := by
  obtain ⟨alternatives, halternatives, hc⟩ := Outcome.bind_eq_ok_iff.mp hc
  obtain ⟨a, ha, hfa⟩ := Outcome.exists_of_mapM_eq_ok halternatives hf
  have hmem : a ∈ c := by
    split at hc
    · cases hc
      exact ha
    · obtain ⟨q, -, hc⟩ := Outcome.bind_eq_ok_iff.mp hc
      cases hc
      exact List.mem_append_left _ ha
  refine ⟨[a], ?_, ?_⟩
  · simp only [conditionOf, condition, List.mapM_cons, List.mapM_nil, hfa]
    rfl
  · rw [Condition.holds, Outcome.allM_eq_true_iff]
    intro b hb
    rw [List.mem_singleton.mp hb]
    exact Outcome.allM_eq_true_iff.mp hr a hmem

end Specification

namespace Scope

/-- Scopes can be put over a query if all of them can be written. -/
theorem applyAll_eq (query : Text) (scopes : List Scope) :
    applyAll query scopes = (scopes.mapM written).map (WrittenScope.applyAll query) := by
  induction scopes generalizing query with
  | nil => rfl
  | cons s scopes ih =>
      rw [applyAll, List.foldlM_cons, List.mapM_cons]
      cases hs : s.written with
      | error e =>
          simp only [apply, hs]
          rfl
      | ok w =>
          have hnext := ih (w.apply query)
          rw [applyAll] at hnext
          simp only [apply, hs]
          refine hnext.trans ?_
          cases scopes.mapM written <;> rfl

theorem written_eq_ok_iff {s : Scope} {w : WrittenScope} :
    s.written = .ok w ↔ ∃ t, s.value.plain = .ok t ∧ w = ⟨s.field, t, s.operator⟩ := by
  cases h : s.value.plain with
  | error e => simp [written, h, Except.map]
  | ok t => simp [written, h, Except.map, eq_comm]

theorem map_field_eq {scopes : List Scope} {ws : List WrittenScope}
    (h : List.Forall₂ (fun s w ↦ s.written = .ok w) scopes ws) :
    (scopes.map fun s ↦ Text.lower s.field) = ws.map fun w ↦ Text.lower w.field := by
  induction h with
  | nil => rfl
  | cons hs _ ih =>
      obtain ⟨t, -, rfl⟩ := written_eq_ok_iff.mp hs
      rw [List.map_cons, List.map_cons, ih]

/-- A client cannot get past a scope. A value of any kind that is one value in a query has a text
without signs that divide queries, unless it is a number too long to be written. Scopes can be put
over every query if their values have texts; a query that was scoped says of each scope's field
what the scope says and nothing else, and each scope accepts what the query accepts. -/
theorem applyAll_isEnforced (query : Text) {scopes : List Scope}
    (hscopes : ∀ s ∈ scopes, ∀ w, s.written = .ok w → w.IsEnforceable)
    (hnodup : (scopes.map fun s ↦ Text.lower s.field).Nodup) :
    (∀ v : Value, v.isScalar = true →
        if v.isOverlong = true then v.plain = .error .tooManyDigits
        else ∃ t, v.plain = .ok t ∧ t ≠ [] ∧ t.IsUndivided) ∧
      ((∃ result, applyAll query scopes = .ok result) ↔
        ∀ s ∈ scopes, ∃ t, s.value.plain = .ok t) ∧
      ∀ result, applyAll query scopes = .ok result → ∀ s ∈ scopes,
        ∃ t, s.value.plain = .ok t ∧
          (Arguments.ofQuery result).get? s.field = some (t ++ '|' :: '|' :: s.operator) ∧
          ∀ schema defaultSort registry spec c r,
            Specification.ofQuery schema defaultSort registry result = .ok spec →
            spec.condition schema = .ok c → c.holds r = .ok true →
            ∃ f ∈ spec.filters,
              Filter.ofArgument schema registry s.field (t ++ '|' :: '|' :: s.operator) = .ok f ∧
              ∃ alone, Specification.conditionOf schema spec f = .ok alone ∧
                alone.holds r = .ok true := by
  refine ⟨?_, ?_, ?_⟩
  · intro v hv
    split
    · next hlong => exact Value.plain_of_isOverlong hlong
    · next hlong =>
        obtain ⟨t, ht, hplain, hne⟩ := Value.exists_plain_eq hv (by simpa using hlong)
        exact ⟨t, ht, hne, hplain.isUndivided⟩
  · rw [applyAll_eq]
    have hmap : (∃ result, (scopes.mapM written).map (WrittenScope.applyAll query) = .ok result) ↔
        Outcome.Succeeds (scopes.mapM written) := by
      cases scopes.mapM written <;> simp [Outcome.Succeeds, Except.map]
    rw [hmap, Outcome.succeeds_mapM_iff]
    apply forall₂_congr
    intro s _
    simp only [Outcome.Succeeds, written_eq_ok_iff]
    constructor
    · rintro ⟨_, t, ht, -⟩
      exact ⟨t, ht⟩
    · rintro ⟨t, ht⟩
      exact ⟨_, t, ht, rfl⟩
  · intro result hresult s hs
    rw [applyAll_eq] at hresult
    cases hwritten : scopes.mapM written with
    | error e => simp [hwritten, Except.map] at hresult
    | ok ws =>
        rw [hwritten] at hresult
        cases hresult
        have henforceable : ∀ w ∈ ws, w.IsEnforceable := by
          intro w hw
          obtain ⟨o, ho, how⟩ := Outcome.exists_of_mem_mapM hwritten hw
          exact hscopes o ho w how
        have hfields := map_field_eq (Outcome.mapM_eq_ok_iff.mp hwritten)
        obtain ⟨w, hw, hsw⟩ := Outcome.exists_of_mapM_eq_ok hwritten hs
        obtain ⟨t, ht, rfl⟩ := written_eq_ok_iff.mp hsw
        have hget := WrittenScope.get?_ofQuery_applyAll query henforceable (hfields ▸ hnodup) hw
        refine ⟨t, ht, hget, ?_⟩
        intro schema defaultSort registry spec c r hspec hc hr
        obtain ⟨f, hf, harg⟩ := Specification.exists_filter_of_mem hspec
          (Keyed.mem_of_get?_eq hget) (henforceable _ hw).field_notMem
        exact ⟨f, hf, harg, Specification.exists_conditionOf_holds hc hr hf⟩

/-- The client sends the scope's field in other letters, behind an escaped ampersand and
behind an escaped question mark, and an escape that is cut off. -/
theorem applyAll_isEnforced_customers :
    let query := "?Status=X||eq&code=C||contains%26STATUS=X||neq&%3Fstatus=X||neq&na%".toList
    let status : Scope := ⟨"status".toList, .text "Active+ or=not".toList, "eq".toList⟩
    let employees : Scope := ⟨"employees".toList, .int (-5), "gte".toList⟩
    let r : Record := [("code".toList, .text "C1".toList), ("employees".toList, .int 7),
      ("status".toList, .text "active+ OR=not".toList)]
    ∃ result, applyAll query [status, employees] = .ok result ∧
      (Arguments.ofQuery result).get? "status".toList = some "Active+ or=not||eq".toList ∧
      ∃ spec c f alone,
        Specification.ofQuery Catalog.customers.schema "name".toList Registry.standard result =
          .ok spec ∧
        spec.condition Catalog.customers.schema = .ok c ∧ c.holds r = .ok true ∧
        f ∈ spec.filters ∧
        Specification.conditionOf Catalog.customers.schema spec f = .ok alone ∧
        alone.holds r = .ok true := by
  intro query status employees r
  have hscopes : ∀ s ∈ [status, employees], ∀ w, s.written = .ok w → w.IsEnforceable := by
    rw [List.forall_mem_cons, List.forall_mem_singleton]
    constructor
    · intro w hw
      cases hw
      exact ⟨by decide +kernel, by decide, by decide, by decide, by decide⟩
    · intro w hw
      obtain ⟨t, ht, rfl⟩ := written_eq_ok_iff.mp hw
      rw [Value.plain_int (Value.natAbs_lt_intBound (by decide))] at ht
      cases ht
      exact ⟨by decide +kernel, by decide, by decide, by decide, by decide⟩
  have hnodup : ([status, employees].map fun s ↦ Text.lower s.field).Nodup := by decide +kernel
  obtain ⟨-, -, henforced⟩ := applyAll_isEnforced query hscopes hnodup
  have haccepted : (applyAll query [status, employees] >>= fun result ↦
      Specification.ofQuery Catalog.customers.schema "name".toList Registry.standard result >>=
        fun spec ↦ spec.condition Catalog.customers.schema >>= fun c ↦ c.holds r) = .ok true := by
    decide +kernel
  obtain ⟨result, hresult, haccepted⟩ := Outcome.bind_eq_ok_iff.mp haccepted
  obtain ⟨spec, hspec, haccepted⟩ := Outcome.bind_eq_ok_iff.mp haccepted
  obtain ⟨c, hc, hr⟩ := Outcome.bind_eq_ok_iff.mp haccepted
  obtain ⟨t, ht, hget, -⟩ := henforced result hresult status List.mem_cons_self
  cases ht
  obtain ⟨_, -, -, haccepts⟩ := henforced result hresult employees
    (List.mem_cons_of_mem _ List.mem_cons_self)
  obtain ⟨f, hf, -, alone, halone, hholds⟩ := haccepts _ _ _ spec c r hspec hc hr
  exact ⟨result, hresult, hget, spec, c, f, alone, hspec, hc, hr, hf, halone, hholds⟩

end Scope

end RecordQuery
