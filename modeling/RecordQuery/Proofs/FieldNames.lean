import RecordQuery.Proofs.Outcome
import RecordQuery.Proofs.Text.LetterCase
import RecordQuery.Proofs.WellFormed

namespace RecordQuery

/-!
# Fields that are found by name

Of the fields of one name, letter case not counting, the last is found, and
if there is none, the first of a name that differs in underscores. A name
that was looked up is replaced by that of the field, and finds the field
again if no field behind it differs from it in letter case only.
-/

namespace Schema

variable {s : Schema} {name : Text} {f g : Field}

/-- A field behind which there is no other of the same name, letter case not counting. -/
def IsLastNamed (s : Schema) (f : Field) : Prop :=
  ∃ before after, s.fields = before ++ f :: after ∧
    ∀ g ∈ after, normalName g.name ≠ normalName f.name

/-- A field before which there is no other of the same name, letter case and underscores not
counting. -/
def IsFirstNamed (s : Schema) (f : Field) : Prop :=
  ∃ before after, s.fields = before ++ f :: after ∧
    ∀ g ∈ before, looseName g.name ≠ looseName f.name

theorem byNormalName?_eq_some_iff {key : Text} :
    s.byNormalName? key = some f ↔ normalName f.name = key ∧ s.IsLastNamed f := by
  rw [byNormalName?, List.find?_eq_some_iff_append]
  simp only [decide_eq_true_eq, Bool.not_eq_true', decide_eq_false_iff_not]
  constructor
  · rintro ⟨rfl, after, before, hfields, hafter⟩
    refine ⟨rfl, before.reverse, after.reverse, ?_, fun g hg ↦ hafter g (List.mem_reverse.mp hg)⟩
    rw [← List.reverse_reverse s.fields, hfields]
    simp
  · rintro ⟨rfl, before, after, hfields, hafter⟩
    refine ⟨rfl, after.reverse, before.reverse, ?_, fun g hg ↦ hafter g (List.mem_reverse.mp hg)⟩
    rw [hfields]
    simp

theorem byLooseName?_eq_some_iff {key : Text} :
    s.byLooseName? key = some f ↔ looseName f.name = key ∧ s.IsFirstNamed f := by
  rw [byLooseName?, List.find?_eq_some_iff_append]
  simp only [decide_eq_true_eq, Bool.not_eq_true', decide_eq_false_iff_not]
  constructor
  · rintro ⟨rfl, before, after, hfields, hbefore⟩
    exact ⟨rfl, before, after, hfields, hbefore⟩
  · rintro ⟨rfl, before, after, hfields, hbefore⟩
    exact ⟨rfl, before, after, hfields, hbefore⟩

theorem byNormalName?_eq_none_iff {key : Text} :
    s.byNormalName? key = none ↔ ∀ g ∈ s.fields, normalName g.name ≠ key := by
  simp [byNormalName?]

theorem byLooseName?_eq_none_iff {key : Text} :
    s.byLooseName? key = none ↔ ∀ g ∈ s.fields, looseName g.name ≠ key := by
  simp [byLooseName?]

theorem looseName_eq_of_normalName_eq {t u : Text} (h : normalName t = normalName u) :
    looseName t = looseName u := by
  rw [looseName, looseName, h]

theorem looseName_normalName (t : Text) : looseName (normalName t) = looseName t :=
  looseName_eq_of_normalName_eq (normalName_normalName t)

/-- The field that a name finds. -/
theorem resolve?_eq_some_iff : s.resolve? name = some f ↔ normalName name ≠ [] ∧
    (normalName f.name = normalName name ∧ s.IsLastNamed f ∨
      (∀ g ∈ s.fields, normalName g.name ≠ normalName name) ∧
        looseName f.name = looseName name ∧ s.IsFirstNamed f) := by
  rw [← byNormalName?_eq_some_iff, ← byNormalName?_eq_none_iff, ← byLooseName?_eq_some_iff,
    ← looseName_normalName name, resolve?]
  by_cases hname : normalName name = []
  · simp [hname]
  · rw [if_neg (by simpa using hname)]
    cases s.byNormalName? (normalName name) <;> simp [hname]

theorem IsLastNamed.mem (h : s.IsLastNamed f) : f ∈ s.fields := by
  obtain ⟨before, after, hfields, -⟩ := h
  simp [hfields]

theorem isLastNamed_of_nodup (h : (s.fields.map fun f ↦ normalName f.name).Nodup)
    (hf : f ∈ s.fields) : s.IsLastNamed f := by
  obtain ⟨before, after, hfields⟩ := List.append_of_mem hf
  refine ⟨before, after, hfields, fun g hg hname ↦ ?_⟩
  rw [hfields, List.map_append, List.map_cons] at h
  have hnotMem := (List.nodup_cons.mp (List.nodup_append.mp h).2.1).1
  exact hnotMem (List.mem_map.mpr ⟨g, hg, hname⟩)

/-- A field that its own name finds. -/
structure IsRefound (s : Schema) (f : Field) : Prop where
  normalName_ne_nil : normalName f.name ≠ []
  isLastNamed : s.IsLastNamed f

theorem resolve?_name_eq_self_iff (hf : f ∈ s.fields) :
    s.resolve? f.name = some f ↔ s.IsRefound f := by
  rw [resolve?_eq_some_iff, and_iff_right rfl]
  constructor
  · rintro ⟨hne, hlast | ⟨hnone, -⟩⟩
    · exact ⟨hne, hlast⟩
    · exact absurd rfl (hnone f hf)
  · rintro ⟨hne, hlast⟩
    exact ⟨hne, .inl hlast⟩

theorem require_name_eq_self_iff (hf : f ∈ s.fields) (code : ErrorCode) :
    s.require code f.name = .ok f ↔ s.IsRefound f :=
  require_eq_ok_iff.trans (resolve?_name_eq_self_iff hf)

/-- A field that was found by its own name, letter case not counting, is found by it again. -/
theorem isRefound_of_normalName_eq (h : s.resolve? name = some f)
    (hname : normalName f.name = normalName name) : s.IsRefound f := by
  obtain ⟨hne, ⟨-, hlast⟩ | ⟨hnone, -⟩⟩ := resolve?_eq_some_iff.mp h
  · exact ⟨hname ▸ hne, hlast⟩
  · exact absurd hname (hnone f (mem_of_resolve?_eq h))

theorem looseName_of_resolve?_eq (h : s.resolve? name = some f) :
    looseName f.name = looseName name := by
  obtain ⟨-, ⟨hname, -⟩ | ⟨-, hname, -⟩⟩ := resolve?_eq_some_iff.mp h
  · exact looseName_eq_of_normalName_eq hname
  · exact hname

theorem exists_resolve?_iff : (∃ f, s.resolve? name = some f) ↔
    normalName name ≠ [] ∧ ∃ g ∈ s.fields, looseName g.name = looseName name := by
  constructor
  · rintro ⟨f, hf⟩
    exact ⟨(resolve?_eq_some_iff.mp hf).1, f, mem_of_resolve?_eq hf, looseName_of_resolve?_eq hf⟩
  · rintro ⟨hne, g, hg, hname⟩
    cases hexact : s.byNormalName? (normalName name) with
    | some f =>
        exact ⟨f, resolve?_eq_some_iff.mpr ⟨hne, .inl (byNormalName?_eq_some_iff.mp hexact)⟩⟩
    | none =>
        cases hloose : s.byLooseName? (looseName name) with
        | some f =>
            exact ⟨f, resolve?_eq_some_iff.mpr ⟨hne, .inr ⟨byNormalName?_eq_none_iff.mp hexact,
              byLooseName?_eq_some_iff.mp hloose⟩⟩⟩
        | none => exact absurd hname (byLooseName?_eq_none_iff.mp hloose g hg)

/-- A name finds a field if it is not blank and one has its name, letter case and underscores not
counting. A field of that name, letter case alone not counting, is found before all others, and
otherwise the first one. Where names differ in more than letter case, each finds its own field,
whatever other names differ from it in underscores. -/
theorem resolve?_prefers_exact (s : Schema) :
    (∀ name, (∃ f, s.resolve? name = some f) ↔
      normalName name ≠ [] ∧ ∃ g ∈ s.fields, looseName g.name = looseName name) ∧
    (∀ name f, s.resolve? name = some f →
      f ∈ s.fields ∧ looseName f.name = looseName name ∧
      ((∃ g ∈ s.fields, normalName g.name = normalName name) →
        normalName f.name = normalName name) ∧
      ((∀ g ∈ s.fields, normalName g.name ≠ normalName name) → s.IsFirstNamed f)) ∧
    ((s.fields.map fun f ↦ normalName f.name).Nodup →
      ∀ f ∈ s.fields, normalName f.name ≠ [] → s.resolve? f.name = some f ∧
        ∀ name, normalName name = normalName f.name → s.resolve? name = some f) := by
  refine ⟨fun name ↦ exists_resolve?_iff, fun name f hf ↦ ?_, fun hnodup f hf hne ↦ ?_⟩
  · refine ⟨mem_of_resolve?_eq hf, looseName_of_resolve?_eq hf, ?_⟩
    obtain ⟨-, ⟨hname, -⟩ | ⟨hnone, -, hfirst⟩⟩ := resolve?_eq_some_iff.mp hf
    · exact ⟨fun _ ↦ hname, fun hnone ↦ absurd hname (hnone f (mem_of_resolve?_eq hf))⟩
    · exact ⟨fun ⟨g, hg, hname⟩ ↦ absurd hname (hnone g hg), fun _ ↦ hfirst⟩
  · have hlast := isLastNamed_of_nodup hnodup hf
    refine ⟨(resolve?_name_eq_self_iff hf).mpr ⟨hne, hlast⟩, fun name hname ↦ ?_⟩
    exact resolve?_eq_some_iff.mpr ⟨hname ▸ hne, .inl ⟨hname.symm, hlast⟩⟩

/-- Three spellings of one name, with a field for each. -/
theorem resolve?_prefers_exact_spellings :
    let userName : Field := ⟨"userName".toList, .int, false, "userName".toList⟩
    let s := ofFields [("user_name".toList, .text), ("userName".toList, .int),
      ("USERNAME_".toList, .date)]
    (∃ f, s.resolve? " User__Name\n".toList = some f ∧ f.name = "user_name".toList) ∧
      s.resolve? "USERNAME".toList = some userName := by
  intro userName s
  obtain ⟨hfinds, hpicks, hown⟩ := resolve?_prefers_exact s
  obtain ⟨f, hf⟩ := (hfinds " User__Name\n".toList).mpr
    ⟨by decide, userName, by decide, by decide⟩
  refine ⟨⟨f, hf, ?_⟩, (hown (by decide) userName (by decide) (by decide)).2 _ (by decide)⟩
  obtain ⟨hmem, hloose, -, hfirst⟩ := hpicks _ f hf
  obtain ⟨before, after, hfields, hbefore⟩ := hfirst (by decide)
  cases before with
  | nil =>
      obtain ⟨rfl, -⟩ := List.cons.inj hfields
      rfl
  | cons g before =>
      obtain ⟨rfl, -⟩ := List.cons.inj hfields
      refine absurd ?_ (hbefore _ List.mem_cons_self)
      rw [hloose]
      decide

end Schema

theorem Sorting.exists_of_ofArguments_eq_ok {schema : Schema} {defaultField : Text}
    {args : Arguments} {sort : Sorting} (h : ofArguments schema defaultField args = .ok sort) :
    ∃ f, schema.resolve? ((args.get? sortByKey).getD defaultField) = some f ∧
      sort.field = f.name := by
  unfold ofArguments at h
  dsimp only at h
  split at h
  · cases h
  · next f hf =>
      obtain ⟨d, -, rfl⟩ := Outcome.map_eq_ok_iff.mp h
      exact ⟨f, hf, rfl⟩

namespace Schema

/-- What the name of a field finds that was found by some name. It is the same field again, if this
was found by its own name but for letter case, or if no other name is the same but for letter case.
In a specification that was read from a query the names of such fields stand, and those fields are
compiled that are found by them. -/
theorem resolve?_name_stable_iff (s : Schema) :
    (∀ name f, s.resolve? name = some f → (s.resolve? f.name = some f ↔ s.IsRefound f) ∧
      (normalName f.name = normalName name → s.IsRefound f)) ∧
    (s.HasDistinctNames → ∀ f ∈ s.fields, s.IsRefound f) ∧
    ∀ defaultSort registry query spec,
      Specification.ofQuery s defaultSort registry query = .ok spec →
      (∃ f, s.resolve? (((Arguments.ofQuery query).get? sortByKey).getD defaultSort) = some f ∧
        spec.sort.field = f.name ∧
        (s.require .invalidSortField spec.sort.field = .ok f ↔ s.IsRefound f)) ∧
      (∀ q, spec.search = some q → ∀ name ∈ q.fields, ∃ f ∈ s.fields, name = f.name ∧
        (s.require .invalidSearchColumn name = .ok f ↔ s.IsRefound f)) ∧
      ∀ filter ∈ spec.filters, ∃ a ∈ Arguments.ofQuery query, ∃ f, s.resolve? a.1 = some f ∧
        filter.field = f.name ∧
        (filter.operator.isTextual = false → ∀ t ∈ filter.values, ∃ v, f.read t = .ok v) ∧
        (s.require .unresolvedFilterField filter.field = .ok f ↔ s.IsRefound f) := by
  refine ⟨fun name f hf ↦ ?_, fun hs f hf ↦ ?_, fun defaultSort registry query spec h ↦ ?_⟩
  · exact ⟨resolve?_name_eq_self_iff (mem_of_resolve?_eq hf), isRefound_of_normalName_eq hf⟩
  · exact (resolve?_name_eq_self_iff hf).mp (resolve?_name hs hf)
  · obtain ⟨-, hsort, -, hfilters⟩ := Specification.ofArguments_eq_ok_iff.mp h
    have hsearch := (Specification.names_ofQuery (P := fun name ↦ ∃ f ∈ s.fields, name = f.name)
      (fun f hf ↦ ⟨f, hf, rfl⟩) h).2.1
    refine ⟨?_, fun q hq name hname ↦ ?_, fun filter hfilter ↦ ?_⟩
    · obtain ⟨f, hf, hname⟩ := Sorting.exists_of_ofArguments_eq_ok hsort
      exact ⟨f, hf, hname, hname ▸ require_name_eq_self_iff (mem_of_resolve?_eq hf) _⟩
    · obtain ⟨f, hf, rfl⟩ := hsearch q hq name hname
      exact ⟨f, hf, rfl, require_name_eq_self_iff hf _⟩
    · obtain ⟨a, ha, hfilter⟩ := Outcome.exists_of_mem_mapM hfilters hfilter
      obtain ⟨f, hf, hname, -, -, hread⟩ := Filter.exists_of_ofArgument_eq_ok hfilter
      exact ⟨a, List.mem_of_mem_filter ha, f, hf, hname, hread,
        hname ▸ require_name_eq_self_iff (mem_of_resolve?_eq hf) _⟩

/-- A name with two underscores finds the first of three fields of one name in three spellings, and
the records are put in order by this field. -/
theorem resolve?_name_stable_iff_spellings :
    let userName : Field := ⟨"user_name".toList, .text, false, "user_name".toList⟩
    let s := ofFields [("user_name".toList, .text), ("userName".toList, .int),
      ("UserName".toList, .date)]
    s.resolve? "User__Name".toList = some userName ∧ s.resolve? userName.name = some userName ∧
      ∃ spec, Specification.ofQuery s "userName".toList Registry.standard
          "sortBy=User__Name&query=a".toList = .ok spec ∧
        s.require .invalidSortField spec.sort.field = .ok userName := by
  intro userName s
  have hfound : s.resolve? "User__Name".toList = some userName := by decide
  have hquery : Specification.ofQuery s "userName".toList Registry.standard
      "sortBy=User__Name&query=a".toList =
        .ok ⟨⟨1, 25, by decide⟩, ⟨"user_name".toList, .ascending⟩,
          some ⟨"a".toList, ["user_name".toList, "userName".toList]⟩, []⟩ := by
    decide +kernel
  have hrefound : s.IsRefound userName := ⟨by decide, [], _, rfl, by decide⟩
  obtain ⟨hnames, -, hqueries⟩ := resolve?_name_stable_iff s
  obtain ⟨f, hf, -, hrequire⟩ := (hqueries _ _ _ _ hquery).1
  obtain rfl : userName = f := Option.some.inj (hfound.symm.trans hf)
  exact ⟨hfound, (hnames _ _ hfound).1.mpr hrefound, _, hquery, hrequire.mpr hrefound⟩

/-- Two fields whose names differ in letter case only: the first is found by a name without an
underscore, the second by the name of the first, and records that are to be in the order of the
first are put in that of the second. -/
theorem resolve?_name_unstable :
    let first : Field := ⟨"user_name".toList, .text, false, "user_name".toList⟩
    let second : Field := ⟨"User_Name".toList, .int, false, "User_Name".toList⟩
    let s := ofFields [("user_name".toList, .text), ("User_Name".toList, .int)]
    let row (name : String) (n : Int) : Record :=
      [("user_name".toList, .text name.toList), ("User_Name".toList, .int n)]
    s.resolve? "username".toList = some first ∧ s.resolve? first.name = some second ∧
      first.type ≠ second.type ∧
      ∃ spec, Specification.ofQuery s "user_name".toList Registry.standard
          "sortBy=username".toList = .ok spec ∧ spec.sort = ⟨first.name, .ascending⟩ ∧
        spec.sort.apply s id [row "b" 1, row "a" 2] = .ok [row "b" 1, row "a" 2] := by
  intro first second s row
  refine ⟨by decide, by decide, by decide, ⟨⟨1, 25, by decide⟩, ⟨first.name, .ascending⟩, none, []⟩,
    by decide +kernel, rfl, ?_⟩
  change sortOn (fun r ↦ r.value second.name) .ascending [row "b" 1, row "a" 2] = _
  rw [sortOn_of_allOrdered rfl, List.mergeSort_of_pairwise (List.pairwise_pair.mpr rfl)]

end Schema

end RecordQuery
