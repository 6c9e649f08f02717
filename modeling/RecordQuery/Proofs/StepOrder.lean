import RecordQuery.Proofs.Comparisons
import RecordQuery.Proofs.Database.Steps
import RecordQuery.Proofs.Duality
import RecordQuery.Proofs.FilterOrder

namespace RecordQuery

/-!
# The order of steps

Steps that narrow a list of records, or put it in order, by fields in which
all records have values of the declared type, or none, do not fail as long
as there are texts where they look for texts. Such steps can be exchanged:
records are kept by what all narrowing steps say of them, and put in order
one sort after another, whatever the narrowing steps between them are.
-/

open Outcome

/-! ## Typed fields -/

theorem Test.succeeds_holds {f : Field} {o : Operator} {t : Text} {test : Test}
    (h : ofOperator f o t = .ok test) {v : Value} (hv : v = .null ∨ v.HasType f.type)
    (htext : o.isTextual = true → Succeeds v.plain) : Succeeds (test.holds v) := by
  have hequality : ∀ e, ofEquality f t = .ok e → Succeeds (e.holds v) :=
    fun e he ↦ exists_holds_ofEquality he (Value.isEquatable_of_hasType hv)
  have hordered (ho : o.isOrdering = true) : Succeeds (test.holds v) := by
    rw [Operator.test_of_isOrdering ho] at h
    obtain ⟨w, hw, rfl⟩ := map_eq_ok_iff.mp h
    rcases hv with rfl | hv
    · exact succeeds_ok false
    · exact ⟨_, holds_ordered_of_read hw hv ho⟩
  cases o with
  | equals => exact hequality test h
  | notEquals =>
      obtain ⟨e, he, rfl⟩ := map_eq_ok_iff.mp h
      exact succeeds_map_iff.mpr (hequality e he)
  | contains | startsWith | endsWith =>
      cases h
      exact succeeds_finds (htext rfl) _ _
  | greaterThan | greaterOrEqual | lessThan | lessOrEqual => exact hordered rfl

theorem Filter.exists_resolve?_eq {schema : Schema} {q : Filter}
    (h : Succeeds (q.alternative schema)) : ∃ f, schema.resolve? q.field = some f := by
  obtain ⟨a, ha⟩ := h
  obtain ⟨f, hf, -⟩ := bind_eq_ok_iff.mp ha
  exact ⟨f, Schema.require_eq_ok_iff.mp hf⟩

/-- The fields in whose texts a specification looks for something. -/
def Specification.soughtFields (s : Specification) : List Text :=
  (s.filters.filter fun q ↦ q.operator.isTextual).map Filter.field ++
    (s.search.map Search.fields).getD []

namespace RecordList

/-- In the field that a name stands for, all records have a value of its type or none. -/
def IsTyped (l : RecordList) (name : Text) : Prop :=
  ∀ f ∈ l.schema.resolve? name, ∀ r ∈ l.records, r.HasOptional f.name f.type

/-- In the field that a name stands for, all records have a value that can be written. -/
def IsLegible (l : RecordList) (name : Text) : Prop :=
  ∀ f ∈ l.schema.resolve? name, ∀ r ∈ l.records, Succeeds (r.value f.name).plain

/-- In the field that a name stands for, all records have values of its type, or none, that stand
to each other as in the linear order. -/
def IsOrdered (l : RecordList) (name : Text) : Prop :=
  ∀ f ∈ l.schema.resolve? name, Record.KeepOrder f.name f.type l.records

instance (l : RecordList) (name : Text) : Decidable (l.IsTyped name) :=
  inferInstanceAs (Decidable (∀ f ∈ l.schema.resolve? name, ∀ r ∈ l.records,
    r.HasOptional f.name f.type))

instance (l : RecordList) (name : Text) : Decidable (l.IsLegible name) :=
  inferInstanceAs (Decidable (∀ f ∈ l.schema.resolve? name, ∀ r ∈ l.records,
    Succeeds (r.value f.name).plain))

instance (l : RecordList) (name : Text) : Decidable (l.IsOrdered name) :=
  inferInstanceAs (Decidable (∀ f ∈ l.schema.resolve? name,
    Record.KeepOrder f.name f.type l.records))

/-- The fields by which a specification filters have values of their types, if any, and those in
which it looks for texts have texts. -/
structure Suits (l : RecordList) (s : Specification) : Prop where
  isTyped : ∀ q ∈ s.filters, l.IsTyped q.field
  isLegible : ∀ name ∈ s.soughtFields, l.IsLegible name

variable {l : RecordList}

/-- A filter by a typed field that can be compiled does not fail. -/
theorem isDecided_filter {q : Filter} (hq : l.IsTyped q.field)
    (htext : q.operator.isTextual = true → l.IsLegible q.field)
    (h : Succeeds (q.alternative l.schema)) : q.IsDecided l.schema l.records := by
  obtain ⟨f, hf⟩ := Filter.exists_resolve?_eq h
  obtain ⟨a, ha⟩ := h
  refine ⟨a, ha, fun b hb r hr ↦ ?_⟩
  rw [Filter.alternative_eq hf] at ha
  obtain ⟨t, -, ht⟩ := exists_of_mem_mapM ha hb
  obtain ⟨test, htest, rfl⟩ := map_eq_ok_iff.mp ht
  exact Test.succeeds_holds htest (hq f hf r hr) fun ho ↦ htext ho f hf r hr

/-- A quick search that can be compiled does not fail where there are texts. -/
theorem isDecided_search {q : Search} (hq : ∀ name ∈ q.fields, l.IsLegible name)
    (h : Succeeds (q.alternative l.schema)) : q.IsDecided l.schema l.records := by
  obtain ⟨a, ha⟩ := h
  refine ⟨a, ha, fun b hb r hr ↦ ?_⟩
  obtain ⟨fields, hfields, ha⟩ := bind_eq_ok_iff.mp ha
  obtain ⟨f, hf, hbranch⟩ := exists_of_mem_mapM ha hb
  obtain ⟨name, hname, hrequired⟩ := exists_of_mem_mapM hfields hf
  cases hbranch
  exact Test.succeeds_finds (hq name hname f (Schema.require_eq_ok_iff.mp hrequired) r hr) _ _

theorem Suits.isDecided {s : Specification} (h : l.Suits s) {c : Condition}
    (hc : s.condition l.schema = .ok c) : ∀ r ∈ l.records, c.IsDecided r := by
  obtain ⟨alternatives, halternatives, hrest⟩ := bind_eq_ok_iff.mp hc
  refine Specification.isDecided_condition (fun q hq ↦ ?_) (fun q hq ↦ ?_) hc
  · obtain ⟨a, -, ha⟩ := exists_of_mapM_eq_ok halternatives hq
    refine isDecided_filter (h.isTyped q hq) (fun ho ↦ ?_) ⟨a, ha⟩
    refine h.isLegible q.field (List.mem_append_left _ (List.mem_map_of_mem ?_))
    exact List.mem_filter.mpr ⟨hq, ho⟩
  · rw [hq] at hrest
    obtain ⟨a, ha, -⟩ := bind_eq_ok_iff.mp hrest
    refine isDecided_search (fun name hname ↦ ?_) ⟨a, ha⟩
    refine h.isLegible name (List.mem_append_right _ ?_)
    rwa [hq]

end RecordList

/-! ## One step -/

/-- Records in the order of a field, and as they stood where it leaves a tie. -/
def Record.sorted (name : Text) (d : Direction) (records : List Record) : List Record :=
  records.mergeSort fun a b ↦ (fieldOrder name d a b).isLE

namespace Record

variable (name : Text) (d : Direction) (records : List Record)

theorem sorted_subset : sorted name d records ⊆ records := (List.mergeSort_perm _ _).subset

theorem sorted_filter (p : Record → Bool) :
    sorted name d (records.filter p) = (sorted name d records).filter p :=
  Sorted.mergeSort_filter p records

theorem sorted_sorted : sorted name d (sorted name d records) = sorted name d records :=
  Sorted.mergeSort_mergeSort records

end Record

namespace RecordList

variable {l m : RecordList} {records : List Record}

theorem restrict_eq {s : Specification} {c : Condition} (hc : s.condition l.schema = .ok c)
    (h : l.Suits s) (hrecords : records ⊆ l.records) :
    restrict ⟨l.schema, records⟩ s = .ok ⟨l.schema, records.filter c.accepts⟩ := by
  have hdecided : ∀ r ∈ records, c.IsDecided r := fun r hr ↦ h.isDecided hc r (hrecords hr)
  rw [restrict, hc]
  change keepWhere c.holds records >>= _ = _
  rw [Condition.keepWhere_holds_eq hdecided]
  rfl

theorem orderBy_eq {s : Sorting} {f : Field} (hf : l.schema.resolve? s.field = some f)
    (h : l.IsOrdered s.field) (hrecords : records ⊆ l.records) :
    orderBy ⟨l.schema, records⟩ s = .ok ⟨l.schema, Record.sorted f.name s.direction records⟩ := by
  have hkeep : Record.KeepOrder f.name f.type records := (h f hf).of_subset hrecords
  have hsorted : s.apply l.schema id records = .ok (Record.sorted f.name s.direction records) :=
    Sorting.apply_eq_mergeSort hf (List.map_id records ▸ hkeep)
  rw [orderBy, hsorted]
  rfl

/-- Whatever it compares, a sort that succeeds keeps the number of the records. -/
theorem count_orderBy {s : Sorting} (h : Source.orderBy l s = .ok m) :
    Source.count m = Source.count l := by
  obtain ⟨sorted, hsorted, rfl⟩ := map_eq_ok_iff.mp h
  exact congrArg Except.ok (Sorting.apply_perm hsorted).length_eq

/-- Records with values of one type can be put in order, whatever the clocks show. -/
theorem succeeds_orderBy {s : Sorting} {f : Field} (hf : l.schema.resolve? s.field = some f)
    (h : l.IsTyped s.field) : Succeeds (Source.orderBy l s) := by
  obtain ⟨sorted, hsorted, -⟩ : ∃ sorted, s.apply l.schema id l.records = .ok sorted ∧
      sorted.Perm l.records := Sorting.exists_apply_perm hf (h f hf)
  exact succeeds_map_iff.mpr ⟨sorted, hsorted⟩

end RecordList

/-! ## All steps -/

/-- The records of a list in the order that a sort asks for. -/
def Sorting.sorted (schema : Schema) (records : List Record) (s : Sorting) : List Record :=
  match schema.resolve? s.field with
  | some f => Record.sorted f.name s.direction records
  | none => records

namespace Source

namespace Step

/-- A step that can be compiled, by fields whose values it is meant for. -/
def IsTyped (l : RecordList) : Step → Prop
  | restrict s => Succeeds (s.condition l.schema) ∧ l.Suits s
  | orderBy s => (∃ f, l.schema.resolve? s.field = some f) ∧ l.IsOrdered s.field

/-- Whether a step keeps a record. -/
def keeps (schema : Schema) (r : Record) : Step → Bool
  | restrict s => (s.condition schema).toOption.elim false fun c ↦ c.accepts r
  | orderBy _ => true

theorem keeps_restrict {schema : Schema} {s : Specification} {c : Condition}
    (hc : s.condition schema = .ok c) (r : Record) : (restrict s).keeps schema r = c.accepts r := by
  rw [keeps, hc]
  rfl

end Step

theorem Step.keeps_orderBy (schema : Schema) (s : Sorting) (r : Record) :
    (Step.orderBy s).keeps schema r = true := rfl

/-- Typed steps keep the records that each of them keeps, and put these in one order after another,
whatever stands between the sorts. -/
theorem run_eq {l : RecordList} {steps : List Step} (h : ∀ step ∈ steps, step.IsTyped l)
    {records : List Record} (hrecords : records ⊆ l.records) :
    run (⟨l.schema, records⟩ : RecordList) steps = .ok ⟨l.schema,
      (sortings steps).foldl (Sorting.sorted l.schema)
        (records.filter fun r ↦ steps.all fun step ↦ step.keeps l.schema r)⟩ := by
  induction steps generalizing records with
  | nil =>
      have hall : records.filter (fun r ↦ [].all (Step.keeps l.schema r)) = records :=
        List.filter_eq_self.mpr fun _ _ ↦ rfl
      rw [hall]
      rfl
  | cons step steps ih =>
      obtain ⟨hstep, hsteps⟩ := List.forall_mem_cons.mp h
      rw [run_cons]
      cases step with
      | restrict s =>
          obtain ⟨⟨c, hc⟩, hsuits⟩ := hstep
          have hrun : Step.run (⟨l.schema, records⟩ : RecordList) (.restrict s) =
              .ok ⟨l.schema, records.filter c.accepts⟩ := RecordList.restrict_eq hc hsuits hrecords
          rw [hrun]
          refine (ih hsteps (List.Subset.trans (List.filter_subset_self _) hrecords)).trans ?_
          simp only [List.filter_filter, List.all_cons, Step.keeps_restrict hc, Bool.and_comm]
          rfl
      | orderBy s =>
          obtain ⟨⟨f, hf⟩, hordered⟩ := hstep
          have hrun : Step.run (⟨l.schema, records⟩ : RecordList) (.orderBy s) =
              .ok ⟨l.schema, Record.sorted f.name s.direction records⟩ :=
            RecordList.orderBy_eq hf hordered hrecords
          have hsorted : Sorting.sorted l.schema (records.filter fun r ↦
                steps.all fun step ↦ step.keeps l.schema r) s =
              Record.sorted f.name s.direction (records.filter fun r ↦
                steps.all fun step ↦ step.keeps l.schema r) := by
            rw [Sorting.sorted, hf]
          rw [hrun]
          refine (ih hsteps (List.Subset.trans (Record.sorted_subset _ _ _) hrecords)).trans ?_
          rw [← Record.sorted_filter, ← hsorted]
          rfl

end Source

namespace RecordList

open Source

end RecordList

end RecordQuery
