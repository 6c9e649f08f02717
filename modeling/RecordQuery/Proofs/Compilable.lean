import RecordQuery.Catalog
import RecordQuery.Proofs.Database.FilterValues
import RecordQuery.Proofs.Database.Ties
import RecordQuery.Proofs.Operator
import RecordQuery.Proofs.WellFormed

namespace RecordQuery

/-!
# What can be compiled

A specification that was read from a query has an order. It has a condition
unless one of its filters equates moments with the last day of the
calendar, or is compiled for another field than the one that read its
literals, of a name that differs in letter case only. A database, besides,
puts no truth values in order.
-/

open Outcome

/-! ## Operators and literals -/

namespace Field

/-- The day of an equality is the last one, so that it does not end before another. -/
def EndsCalendar (f : Field) (t : Text) : Prop :=
  f.type = .datetime ∧ Literal.dateOnly? t = some Date.last

instance {f : Field} {t : Text} : Decidable (f.EndsCalendar t) :=
  inferInstanceAs (Decidable (f.type = .datetime ∧ Literal.dateOnly? t = some Date.last))

variable {f : Field} {t : Text}

theorem succeeds_read_of_dateOnly? (htype : f.type = .datetime) {d : Date}
    (hd : Literal.dateOnly? t = some d) : Succeeds (f.read t) :=
  ⟨_, (read_moment_iff htype).mpr ⟨Moment.midnightOf d, by rw [Literal.moment?, hd], rfl⟩⟩

theorem succeeds_equality_iff (f : Field) (t : Text) :
    (Succeeds (Test.ofEquality f t) ↔ Succeeds (f.read t) ∧ ¬ f.EndsCalendar t) ∧
      ∀ affirmed, Succeeds (Atom.ofEquality f affirmed t) ↔
        Succeeds (f.read t) ∧ ¬ f.EndsCalendar t := by
  cases f.equality t with
  | folded htype htest hatom =>
      have h : Succeeds (f.read t) ∧ ¬ f.EndsCalendar t := by
        refine ⟨succeeds_read_of_text htype t, fun hlast ↦ ?_⟩
        rw [EndsCalendar, htype] at hlast
        cases hlast.1
      simp only [htest, hatom]
      exact ⟨iff_of_true (succeeds_ok _) h, fun _ ↦ iff_of_true (succeeds_ok _) h⟩
  | day htype hd he htest hatom =>
      have h : Succeeds (f.read t) ∧ ¬ f.EndsCalendar t := by
        refine ⟨succeeds_read_of_dateOnly? htype hd, fun hlast ↦ ?_⟩
        obtain rfl := Option.some.inj (hd.symm.trans hlast.2)
        rw [Date.next?_eq_none_iff.mpr rfl] at he
        cases he
      simp only [htest, hatom]
      exact ⟨iff_of_true (succeeds_ok _) h, fun _ ↦ iff_of_true (succeeds_ok _) h⟩
  | lastDay htype hd htest hatom =>
      have h : ¬ (Succeeds (f.read t) ∧ ¬ f.EndsCalendar t) := fun h ↦ h.2 ⟨htype, hd⟩
      simp only [htest, hatom]
      exact ⟨iff_of_false (not_succeeds_error _) h,
        fun _ ↦ iff_of_false (not_succeeds_error _) h⟩
  | read _ hd htest hatom =>
      have h : ¬ f.EndsCalendar t := by
        rintro ⟨htype, hlast⟩
        rw [hd htype] at hlast
        cases hlast
      simp only [htest, hatom, succeeds_map_iff, h, not_false_eq_true, and_true, implies_true,
        and_self]

/-- A field of truth values reads nothing else, and no other field reads them. -/
theorem succeeds_ofComparison_iff {v : Value} (h : f.read t = .ok v) (c : Comparison) :
    Succeeds (Atom.ofComparison c v) ↔ f.type ≠ .bool := by
  have hread := read_eq_ok_iff.mp h
  rcases hasType_of_read h with htype | rfl
  · generalize hft : f.type = type at htype ⊢
    cases htype with
    | bool b => exact iff_of_false (not_succeeds_error _) (not_not_intro rfl)
    | _ => exact iff_of_true (succeeds_ok _) nofun
  · refine iff_of_true (succeeds_ok _) fun htype ↦ ?_
    rw [htype] at hread
    obtain ⟨b, -, hb⟩ := map_eq_ok_iff.mp hread
    cases hb

end Field

section

variable {f : Field} {o : Operator} {t : Text}

theorem Test.succeeds_ofOperator_iff :
    Succeeds (ofOperator f o t) ↔
      (o.isTextual = false → Succeeds (f.read t)) ∧
        (o.isEquality = true → ¬ f.EndsCalendar t) := by
  have hequality := (f.succeeds_equality_iff t).1
  cases o with
  | equals => simpa [ofOperator, Operator.isTextual, Operator.isEquality] using hequality
  | notEquals =>
      simpa [ofOperator, Operator.isTextual, Operator.isEquality, succeeds_map_iff] using hequality
  | contains | startsWith | endsWith => exact iff_of_true (succeeds_ok _) ⟨nofun, nofun⟩
  | greaterThan | greaterOrEqual | lessThan | lessOrEqual =>
      simp [ofOperator, Operator.isTextual, Operator.isEquality, succeeds_map_iff]

theorem Atom.succeeds_ofOperator_iff :
    Succeeds (ofOperator f o t) ↔
      (o.isTextual = false → Succeeds (f.read t)) ∧
        (o.isEquality = true → ¬ f.EndsCalendar t) ∧
          (o.isOrdering = true → f.type ≠ .bool) := by
  have hequality := (f.succeeds_equality_iff t).2
  have hordering (ho : o.isOrdering = true) :
      Succeeds (ofOperator f o t) ↔ Succeeds (f.read t) ∧ f.type ≠ .bool := by
    rw [Operator.atoms_of_isOrdering ho, succeeds_bind_iff]
    constructor
    · rintro ⟨v, hv, h⟩
      obtain ⟨a, ha, -⟩ := succeeds_bind_iff.mp h
      exact ⟨⟨v, hv⟩, (Field.succeeds_ofComparison_iff hv _).mp ⟨a, ha⟩⟩
    · rintro ⟨⟨v, hv⟩, htype⟩
      obtain ⟨a, ha⟩ := (Field.succeeds_ofComparison_iff hv o.comparison).mpr htype
      exact ⟨v, hv, succeeds_bind_iff.mpr ⟨a, ha, succeeds_ok _⟩⟩
  cases o with
  | equals =>
      simpa [ofOperator, Operator.isTextual, Operator.isEquality, Operator.isOrdering,
        succeeds_map_iff] using hequality true
  | notEquals =>
      simpa [ofOperator, Operator.isTextual, Operator.isEquality, Operator.isOrdering,
        succeeds_map_iff] using hequality false
  | contains | startsWith | endsWith => exact iff_of_true (succeeds_ok _) ⟨nofun, nofun, nofun⟩
  | greaterThan | greaterOrEqual | lessThan | lessOrEqual =>
      simpa [Operator.isTextual, Operator.isEquality, Operator.isOrdering] using hordering rfl

end

/-! ## Filters -/

namespace Filter

variable (schema : Schema) (f : Filter)

/-- The field for which the filter is compiled reads its literals. -/
def IsReadable : Prop :=
  f.operator.isTextual = false →
    ∀ field ∈ schema.resolve? f.field, ∀ t ∈ f.values, Succeeds (field.read t)

/-- The filter equates moments with the last day of the calendar. -/
def EndsCalendar : Prop :=
  f.operator.isEquality = true ∧
    ∃ field ∈ schema.resolve? f.field, ∃ t ∈ f.values, field.EndsCalendar t

/-- The filter asks which of two truth values is the greater one. -/
def OrdersTruth : Prop :=
  f.operator.isOrdering = true ∧ ∃ field ∈ schema.resolve? f.field, field.type = .bool

instance {schema : Schema} {f : Filter} : Decidable (f.EndsCalendar schema) :=
  inferInstanceAs (Decidable (f.operator.isEquality = true ∧
    ∃ field ∈ schema.resolve? f.field, ∃ t ∈ f.values, field.EndsCalendar t))

instance {schema : Schema} {f : Filter} : Decidable (f.OrdersTruth schema) :=
  inferInstanceAs (Decidable (f.operator.isOrdering = true ∧
    ∃ field ∈ schema.resolve? f.field, field.type = .bool))

variable {schema f} {field : Field}

theorem isReadable_iff (h : schema.resolve? f.field = some field) :
    f.IsReadable schema ↔
      ∀ t ∈ f.values, f.operator.isTextual = false → Succeeds (field.read t) := by
  simp only [IsReadable, h, Option.mem_def, Option.some.injEq, forall_eq']
  exact ⟨fun hread t ht ho ↦ hread ho t ht, fun hread ho t ht ↦ hread t ht ho⟩

theorem not_endsCalendar_iff (h : schema.resolve? f.field = some field) :
    ¬ f.EndsCalendar schema ↔
      ∀ t ∈ f.values, f.operator.isEquality = true → ¬ field.EndsCalendar t := by
  simp only [EndsCalendar, h, Option.mem_def, Option.some.injEq, exists_eq_left', not_and,
    not_exists]
  exact ⟨fun hday t ht ho ↦ hday ho t ht, fun hday ho t ht ↦ hday t ht ho⟩

/-- The truth values are those of a field, whatever the values are with which they are compared. -/
theorem not_ordersTruth_iff (h : schema.resolve? f.field = some field) (hvalues : f.values ≠ []) :
    ¬ f.OrdersTruth schema ↔
      ∀ t ∈ f.values, f.operator.isOrdering = true → field.type ≠ .bool := by
  obtain ⟨t, ht⟩ := List.exists_mem_of_ne_nil _ hvalues
  simp only [OrdersTruth, h, Option.mem_def, Option.some.injEq, exists_eq_left', not_and]
  exact ⟨fun htruth _ _ ho ↦ htruth ho, fun htruth ho ↦ htruth t ht ho⟩

theorem succeeds_alternative_iff (h : schema.resolve? f.field = some field) :
    Succeeds (f.alternative schema) ↔ f.IsReadable schema ∧ ¬ f.EndsCalendar schema := by
  rw [isReadable_iff h, not_endsCalendar_iff h, succeeds_alternative_iff_values h, ← forall₂_and]
  simp only [Test.succeeds_ofOperator_iff]

theorem succeeds_group_iff {name : Text} (h : schema.resolve? f.field = some field)
    (hvalues : f.values ≠ []) :
    Succeeds (f.group ⟨name, schema⟩) ↔
      f.IsReadable schema ∧ ¬ f.EndsCalendar schema ∧ ¬ f.OrdersTruth schema := by
  rw [isReadable_iff h, not_endsCalendar_iff h, not_ordersTruth_iff h hvalues,
    succeeds_group_iff_values h, ← forall₂_and, ← forall₂_and]
  simp only [Atom.succeeds_ofOperator_iff]

end Filter

/-! ## Names -/

namespace Schema

variable {schema : Schema}

/-- The name of a field finds a field, though perhaps another one. -/
theorem exists_resolve?_name (hnames : ∀ f ∈ schema.fields, normalName f.name ≠ []) :
    ∀ f ∈ schema.fields, ∃ g, schema.resolve? f.name = some g := by
  intro f hf
  have hkey : (normalName f.name).isEmpty = false := by simpa using hnames f hf
  cases hfound : schema.byNormalName? (normalName f.name) with
  | none =>
      have h := List.find?_eq_none.mp hfound f (List.mem_reverse.mpr hf)
      simp at h
  | some g => exact ⟨g, by simp [resolve?, hkey, hfound]⟩

theorem succeeds_mapM_require {names : List Text} (code : ErrorCode)
    (h : ∀ name ∈ names, ∃ g, schema.resolve? name = some g) :
    Succeeds (names.mapM (schema.require code)) := by
  refine succeeds_mapM_iff.mpr fun name hname ↦ ?_
  obtain ⟨g, hg⟩ := h name hname
  exact ⟨g, by simp [require, hg]⟩

end Schema

namespace Search

variable {schema : Schema} {q : Search}

theorem succeeds_alternative (h : ∀ name ∈ q.fields, ∃ g, schema.resolve? name = some g) :
    Succeeds (q.alternative schema) := by
  obtain ⟨fields, hfields⟩ := Schema.succeeds_mapM_require .invalidSearchColumn h
  exact succeeds_bind_iff.mpr ⟨fields, hfields, succeeds_mapM_iff.mpr fun f _ ↦ succeeds_ok _⟩

theorem succeeds_group (h : ∀ name ∈ q.fields, ∃ g, schema.resolve? name = some g) {name : Text} :
    Succeeds (q.group ⟨name, schema⟩) := by
  obtain ⟨fields, hfields⟩ := Schema.succeeds_mapM_require .invalidSearchColumn h
  exact succeeds_bind_iff.mpr ⟨fields, hfields, succeeds_ok _⟩

end Search

/-! ## Specifications -/

namespace Specification

theorem succeeds_condition_iff {schema : Schema} {s : Specification}
    (hsearch : ∀ q, s.search = some q → Succeeds (q.alternative schema)) :
    Succeeds (s.condition schema) ↔ ∀ f ∈ s.filters, Succeeds (f.alternative schema) := by
  rw [condition, succeeds_bind_iff, ← succeeds_mapM_iff]
  refine exists_congr fun alternatives ↦ and_iff_left ?_
  split
  · exact succeeds_ok _
  · next q hq =>
      obtain ⟨a, ha⟩ := hsearch q hq
      exact succeeds_bind_iff.mpr ⟨a, ha, succeeds_ok _⟩

theorem succeeds_clause_iff {table : Table} {s : Specification}
    (hsearch : ∀ q, s.search = some q → Succeeds (q.group table)) :
    Succeeds (s.clause table) ↔ ∀ f ∈ s.filters, Succeeds (f.group table) := by
  rw [clause, succeeds_bind_iff, ← succeeds_mapM_iff]
  refine exists_congr fun groups ↦ and_iff_left ?_
  split
  · exact succeeds_ok _
  · next q hq =>
      obtain ⟨g, hg⟩ := hsearch q hq
      exact succeeds_bind_iff.mpr ⟨g, hg, succeeds_ok _⟩

/-- Which of the specifications that are read from queries can be compiled, for records in memory
and for a table of any name. -/
theorem ofQuery_compiles_iff {schema : Schema}
    (hnames : ∀ f ∈ schema.fields, normalName f.name ≠ []) {defaultSort : Text}
    {registry : Registry} {query : Text} {s : Specification}
    (h : ofQuery schema defaultSort registry query = .ok s) :
    (∃ f, schema.resolve? s.sort.field = some f ∧ ∀ records : List Record,
      s.sort.apply schema id records = sortOn (fun r ↦ r.value f.name) s.sort.direction records) ∧
    (∀ name, Succeeds (s.sort.terms ⟨name, schema⟩)) ∧
    (Succeeds (s.condition schema) ↔
      ∀ f ∈ s.filters, f.IsReadable schema ∧ ¬ f.EndsCalendar schema) ∧
    (∀ name, Succeeds (s.clause ⟨name, schema⟩) ↔
      ∀ f ∈ s.filters, f.IsReadable schema ∧ ¬ f.EndsCalendar schema ∧ ¬ f.OrdersTruth schema) ∧
    (schema.HasDistinctNames → ∀ f ∈ s.filters, f.IsReadable schema) := by
  obtain ⟨⟨f, hf⟩, hsearch, hfilters⟩ :=
    names_ofQuery (P := fun name ↦ ∃ g, schema.resolve? name = some g)
      (Schema.exists_resolve?_name hnames) h
  refine ⟨⟨f, hf, fun records ↦ ?_⟩, fun name ↦ ⟨_, Sorting.terms_eq_cons hf⟩, ?_, ?_, ?_⟩
  · simp only [Sorting.apply, Schema.require, hf]
    rfl
  · rw [succeeds_condition_iff fun q hq ↦ Search.succeeds_alternative (hsearch q hq)]
    refine forall₂_congr fun f hf ↦ ?_
    obtain ⟨⟨field, hfield⟩, -⟩ := hfilters f hf
    exact Filter.succeeds_alternative_iff hfield
  · intro name
    rw [succeeds_clause_iff fun q hq ↦ Search.succeeds_group (hsearch q hq)]
    refine forall₂_congr fun f hf ↦ ?_
    obtain ⟨⟨field, hfield⟩, hvalues⟩ := hfilters f hf
    exact Filter.succeeds_group_iff hfield hvalues
  · intro hs f hf
    obtain ⟨field, hfield, hread⟩ := ((isWellFormed_ofQuery hs h).filters f hf).declared
    exact (Filter.isReadable_iff hfield.resolve?_eq).mpr fun t ht ho ↦ hread ho t ht

theorem ofQuery_compiles_iff_customers :
    ∃ s, ofQuery Catalog.customers.schema "id".toList Registry.standard
        "createdAt=9999-12-30|9999-12-31T23:59||eq&isPartner=yes||neq&query=A".toList = .ok s ∧
      s.filters.map Filter.field = ["created_at".toList, "is_partner".toList] ∧
      Succeeds (s.condition Catalog.customers.schema) ∧ Succeeds (s.clause Catalog.customers) := by
  have h : ofQuery Catalog.customers.schema "id".toList Registry.standard
      "createdAt=9999-12-30|9999-12-31T23:59||eq&isPartner=yes||neq&query=A".toList
        = .ok ⟨⟨1, 25, by decide⟩, ⟨"id".toList, .ascending⟩,
          some ⟨"a".toList, Catalog.customers.schema.searchable⟩,
          [⟨"created_at".toList, ["9999-12-30".toList, "9999-12-31T23:59".toList], .equals⟩,
            ⟨"is_partner".toList, ["yes".toList], .notEquals⟩]⟩ := by
    decide +kernel
  obtain ⟨-, -, hcondition, hclause, hreadable⟩ :=
    ofQuery_compiles_iff Catalog.hasDistinctNames_customers.normalName_ne_nil h
  have hread := hreadable Catalog.hasDistinctNames_customers
  refine ⟨_, h, rfl, hcondition.mpr fun f hf ↦ ⟨hread f hf, ?_⟩,
    (hclause "customers".toList).mpr fun f hf ↦ ⟨hread f hf, ?_⟩⟩
  · revert f
    decide +kernel
  · revert f
    decide +kernel

/-- Queries that are read and cannot be compiled: the last day of the calendar, truth values in
order, and a text for a field whose name is that of a number in other letters. -/
theorem ofQuery_uncompilable :
    (∃ s, ofQuery Catalog.customers.schema "id".toList Registry.standard
        "created_at=9999-12-31||neq".toList = .ok s ∧
      s.condition Catalog.customers.schema = .error .dateOverflow ∧
      s.clause Catalog.customers = .error .dateOverflow) ∧
    (∃ s, ofQuery Catalog.customers.schema "id".toList Registry.standard
        "is_partner=false||gt".toList = .ok s ∧
      Succeeds (s.condition Catalog.customers.schema) ∧
      s.clause Catalog.customers = .error .orderedBoolean) ∧
    ∃ s, ofQuery (.ofFields [("user_name".toList, .text), ("User_Name".toList, .int)])
        "user_name".toList Registry.standard "username=abc||eq".toList = .ok s ∧
      s.condition (.ofFields [("user_name".toList, .text), ("User_Name".toList, .int)]) =
        .error (.rejected (.badLiteral "User_Name".toList .number)) := by
  refine ⟨⟨⟨⟨1, 25, by decide⟩, ⟨"id".toList, .ascending⟩, none,
      [⟨"created_at".toList, ["9999-12-31".toList], .notEquals⟩]⟩, ?_, ?_, ?_⟩,
    ⟨⟨⟨1, 25, by decide⟩, ⟨"id".toList, .ascending⟩, none,
      [⟨"is_partner".toList, ["false".toList], .greaterThan⟩]⟩, ?_, ?_, ?_⟩,
    ⟨⟨⟨1, 25, by decide⟩, ⟨"User_Name".toList, .ascending⟩, none,
      [⟨"user_name".toList, ["abc".toList], .equals⟩]⟩, ?_, ?_⟩⟩
  · decide +kernel
  · rfl
  · rfl
  · decide +kernel
  · exact ⟨_, rfl⟩
  · rfl
  · decide +kernel
  · rfl

end Specification

end RecordQuery
