import RecordQuery.Database.Selection
import RecordQuery.Proofs.Database.Ties
import RecordQuery.Proofs.Operator
import RecordQuery.Proofs.Runs.Faults
import RecordQuery.Proofs.WellFormed
import RecordQuery.RecordList

namespace RecordQuery

/-!
# Compiling well-formed specifications

A well-formed specification has a condition, a clause and an order, or
fails for a cause that does not lie in a query argument: the day after the
last date, or truth values put in order by a database.
-/

open Outcome

/-! ## Conditions -/

/-- An equality with a literal that the field reads fails at the end of the calendar only. -/
theorem Field.isNotRejected_equality {f : Field} {t : Text} (h : ∃ v, f.read t = .ok v) :
    IsNotRejected (Test.ofEquality f t) ∧
      ∀ affirmed, IsNotRejected (Atom.ofEquality f affirmed t) := by
  obtain ⟨v, hv⟩ := h
  cases f.equality t with
  | folded _ htest hatom | day _ _ _ htest hatom =>
      simp only [htest, hatom]
      exact ⟨.of_ok _, fun _ ↦ .of_ok _⟩
  | lastDay _ _ htest hatom =>
      simp only [htest, hatom]
      exact ⟨.of_error nofun, fun _ ↦ .of_error nofun⟩
  | read _ _ htest hatom =>
      simp only [htest, hatom, hv]
      exact ⟨.of_ok _, fun _ ↦ .of_ok _⟩

namespace Test

theorem isNotRejected_ofOperator {f : Field} {o : Operator} {t : Text}
    (h : o.isTextual = false → ∃ v, f.read t = .ok v) : IsNotRejected (ofOperator f o t) := by
  cases o with
  | equals => exact (Field.isNotRejected_equality (h rfl)).1
  | notEquals => exact (Field.isNotRejected_equality (h rfl)).1.map _
  | contains | startsWith | endsWith => exact .of_ok _
  | greaterThan | greaterOrEqual | lessThan | lessOrEqual =>
      obtain ⟨v, hv⟩ := h rfl
      simp only [ofOperator, hv]
      exact .of_ok _

end Test

namespace Filter

theorem isNotRejected_alternative {schema : Schema} {f : Filter} (h : f.IsWellFormed schema) :
    IsNotRejected (f.alternative schema) := by
  obtain ⟨field, hfield, hread⟩ := h.declared
  unfold alternative
  rw [hfield.require_eq]
  apply FaultsIn.mapM
  intro t ht
  exact (Test.isNotRejected_ofOperator fun ho ↦ hread ho t ht).map _

end Filter

/-- Names that are declared are found, each as a field that it declares. -/
theorem Schema.exists_mapM_require_eq {schema : Schema} {names : List Text}
    (h : ∀ name ∈ names, ∃ f, schema.Declares name f) (code : ErrorCode) :
    ∃ fields, names.mapM (schema.require code) = .ok fields ∧
      ∀ f ∈ fields, ∃ name ∈ names, schema.Declares name f := by
  induction names with
  | nil => exact ⟨[], rfl, nofun⟩
  | cons name names ih =>
      obtain ⟨⟨f, hf⟩, hnames⟩ := List.forall_mem_cons.mp h
      obtain ⟨fields, hfields, hdeclared⟩ := ih hnames
      refine ⟨f :: fields, ?_, ?_⟩
      · rw [List.mapM_cons, hf.require_eq, hfields]
        rfl
      · intro g hg
        rcases List.mem_cons.mp hg with rfl | hg
        · exact ⟨name, List.mem_cons_self, hf⟩
        · obtain ⟨n, hn, hng⟩ := hdeclared g hg
          exact ⟨n, List.mem_cons_of_mem name hn, hng⟩

namespace Search

theorem isNotRejected_alternative {schema : Schema} {q : Search} (h : q.IsWellFormed schema) :
    IsNotRejected (q.alternative schema) := by
  obtain ⟨fields, hfields, -⟩ := Schema.exists_mapM_require_eq h.declared .invalidSearchColumn
  unfold alternative
  rw [hfields]
  exact FaultsIn.mapM fun f _ ↦ .of_ok _

end Search

namespace Specification

theorem isNotRejected_condition {schema : Schema} {s : Specification}
    (h : s.IsWellFormed schema) : IsNotRejected (s.condition schema) := by
  refine FaultsIn.bind (FaultsIn.mapM fun f hf ↦
    Filter.isNotRejected_alternative (h.filters f hf)) fun alternatives _ ↦ ?_
  split
  · exact .of_ok _
  · next q hq =>
      refine FaultsIn.bind ?_ fun _ _ ↦ .of_ok _
      exact Search.isNotRejected_alternative (h.search q hq)

end Specification

/-! ## Clauses -/

namespace Atom

theorem isNotRejected_ofComparison (c : Comparison) (v : Value) :
    IsNotRejected (ofComparison c v) := by
  unfold ofComparison
  split
  · exact .of_error nofun
  · exact .of_ok _

theorem isNotRejected_ofOperator {f : Field} {o : Operator} {t : Text}
    (h : o.isTextual = false → ∃ v, f.read t = .ok v) : IsNotRejected (ofOperator f o t) := by
  cases o with
  | equals => exact ((Field.isNotRejected_equality (h rfl)).2 true).map _
  | notEquals => exact ((Field.isNotRejected_equality (h rfl)).2 false).map _
  | contains | startsWith | endsWith => exact .of_ok _
  | greaterThan | greaterOrEqual | lessThan | lessOrEqual =>
      obtain ⟨v, hv⟩ := h rfl
      simp only [ofOperator, hv]
      exact (isNotRejected_ofComparison _ v).bind fun _ _ ↦ .of_ok _

end Atom

section

variable {table : Table}

theorem Filter.isNotRejected_group {f : Filter} (h : f.IsWellFormed table.schema) :
    IsNotRejected (f.group table) := by
  obtain ⟨field, hfield, hread⟩ := h.declared
  unfold group
  rw [hfield.require_eq]
  change FaultsIn _ (f.values.mapM (Atom.ofOperator field f.operator) >>= _)
  refine FaultsIn.bind (FaultsIn.mapM fun t ht ↦ ?_) fun _ _ ↦ .of_ok _
  exact Atom.isNotRejected_ofOperator fun ho ↦ hread ho t ht

theorem Search.isNotRejected_group {q : Search} (h : q.IsWellFormed table.schema) :
    IsNotRejected (q.group table) := by
  obtain ⟨fields, hfields, -⟩ := Schema.exists_mapM_require_eq h.declared .invalidSearchColumn
  unfold group
  rw [hfields]
  exact .of_ok _

theorem Specification.isNotRejected_clause {s : Specification}
    (h : s.IsWellFormed table.schema) : IsNotRejected (s.clause table) := by
  refine FaultsIn.bind (FaultsIn.mapM fun f hf ↦
    Filter.isNotRejected_group (h.filters f hf)) fun groups _ ↦ ?_
  split
  · exact .of_ok _
  · next q hq =>
      refine FaultsIn.bind ?_ fun _ _ ↦ .of_ok _
      exact Search.isNotRejected_group (h.search q hq)

/-! ## Orders -/

theorem Sorting.exists_terms_eq {s : Sorting} {f : Field} (h : table.schema.Declares s.field f) :
    ∃ terms, s.terms table = .ok terms := ⟨_, terms_eq_cons h.resolve?_eq⟩

end

namespace Value

theorem isNotRejected_relateNumbers (a b : Value) : IsNotRejected (relateNumbers a b) := by
  unfold relateNumbers
  split
  · split
    · split
      · exact .of_error nofun
      · exact .of_ok _
    · exact .of_ok _
  · exact .of_error nofun

theorem isNotRejected_relateMoments (s t : Moment) : IsNotRejected (relateMoments s t) := by
  unfold relateMoments
  split
  · exact .of_ok _
  · exact .of_error nofun

mutual

theorem isNotRejected_relate (a b : Value) : IsNotRejected (relate a b) := by
  unfold relate
  split
  · exact .of_ok _
  · exact .of_ok _
  · exact .of_ok _
  · exact isNotRejected_relateMoments _ _
  · exact .of_ok _
  · exact isNotRejected_relateMoments _ _
  · exact isNotRejected_relateMoments _ _
  · exact .of_ok _
  · exact isNotRejected_relateItems _ _
  · exact isNotRejected_relateItems _ _
  · exact isNotRejected_relateNumbers _ _

theorem isNotRejected_relateItems (as bs : List Value) : IsNotRejected (relateItems as bs) := by
  unfold relateItems
  split
  · exact .of_ok _
  · exact .of_ok _
  · exact .of_ok _
  · split
    · exact isNotRejected_relateItems _ _
    · exact isNotRejected_relate _ _

end

theorem isNotRejected_naturalOrder (a b : Value) : IsNotRejected (naturalOrder a b) := by
  refine FaultsIn.map ?_ _
  unfold naturalRelation
  split
  · exact .of_ok _
  · exact .of_ok _
  · exact .of_ok _
  · exact isNotRejected_relate _ _

end Value

theorem isNotRejected_sortOn {α : Type} (key : α → Value) (d : Direction) (items : List α) :
    IsNotRejected (sortOn key d items) := by
  unfold sortOn
  split
  · exact .of_ok _
  · apply Runs.faultsIn_sort
    intro a _ b _
    exact ((Value.isNotRejected_naturalOrder (key a) (key b)).map _).map _

theorem Sorting.isNotRejected_apply {α : Type} {schema : Schema} {s : Sorting} {f : Field}
    (h : schema.Declares s.field f) (record : α → Record) (items : List α) :
    IsNotRejected (s.apply schema record items) := by
  unfold apply
  rw [h.require_eq]
  exact isNotRejected_sortOn _ _ items

/-! ## What was read from a query -/

namespace Specification

/-- A query that is accepted gives a well-formed specification, of which no part is
rejected any more, whether it is put to records or to a table of any name. -/
theorem isWellFormed_and_isNotRejected {schema : Schema} (hs : schema.HasDistinctNames)
    {defaultSort : Text} {registry : Registry} {query : Text} {s : Specification}
    (h : ofQuery schema defaultSort registry query = .ok s) :
    s.IsWellFormed schema ∧
      IsNotRejected (s.condition schema) ∧
      (∀ records : List Record, IsNotRejected (s.sort.apply schema id records)) ∧
      (∀ name, IsNotRejected (s.clause ⟨name, schema⟩)) ∧
      ∀ name, IsNotRejected (s.sort.terms ⟨name, schema⟩) := by
  have hwell := isWellFormed_ofQuery hs h
  obtain ⟨f, hf⟩ := hwell.sort
  refine ⟨hwell, isNotRejected_condition hwell, ?_, ?_, ?_⟩
  · intro records
    exact Sorting.isNotRejected_apply hf id records
  · intro name
    exact isNotRejected_clause hwell
  · intro name
    have hterms : ∃ terms, s.sort.terms ⟨name, schema⟩ = .ok terms := Sorting.exists_terms_eq hf
    obtain ⟨terms, hterms⟩ := hterms
    rw [hterms]
    exact .of_ok terms

theorem isWellFormed_and_isNotRejected_customers :
    ∃ s, ofQuery Catalog.customers.schema "name".toList Registry.standard
        "status=Active|Pending||eq&createdAt=2024-02-29||gte&query=A||name|code&pageNumber=3".toList
          = .ok s ∧
      s.filters.map Filter.field = ["status".toList, "created_at".toList] ∧
      s.IsWellFormed Catalog.customers.schema ∧
      IsNotRejected (s.condition Catalog.customers.schema) ∧
      IsNotRejected (s.clause Catalog.customers) := by
  have h : ofQuery Catalog.customers.schema "name".toList Registry.standard
      "status=Active|Pending||eq&createdAt=2024-02-29||gte&query=A||name|code&pageNumber=3".toList
        = .ok ⟨⟨3, 25, by decide⟩, ⟨"name".toList, .ascending⟩,
          some ⟨"a".toList, ["name".toList, "code".toList]⟩,
          [⟨"status".toList, ["Active".toList, "Pending".toList], .equals⟩,
            ⟨"created_at".toList, ["2024-02-29".toList], .greaterOrEqual⟩]⟩ := by
    decide +kernel
  obtain ⟨hwell, hcondition, -, hclause, -⟩ :=
    isWellFormed_and_isNotRejected Catalog.hasDistinctNames_customers h
  exact ⟨_, h, rfl, hwell, hcondition, hclause "customers".toList⟩

end Specification

end RecordQuery
