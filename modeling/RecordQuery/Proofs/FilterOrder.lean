import RecordQuery.Proofs.RecordList
import RecordQuery.Proofs.Runs.Faults

namespace RecordQuery

/-!
# The order of filters

Filters are decided from left to right, and a branch that is not looked at
cannot fail. Where no branch of any filter fails, the filters accept the
same records in every order, and so leave the same records to a quick
search, so that the listings are the same.
-/

open Outcome

namespace Branch

/-- What a branch says of a record, if it does not fail. -/
def accepts (b : Branch) (r : Record) : Bool := (b.holds r).toOption.getD false

theorem holds_eq_accepts {b : Branch} {r : Record} (h : Succeeds (b.holds r)) :
    b.holds r = .ok (b.accepts r) := by
  obtain ⟨accepted, haccepted⟩ := h
  rw [accepts, haccepted]
  rfl

end Branch

namespace Condition

def accepts (c : Condition) (r : Record) : Bool := c.all fun a ↦ a.any fun b ↦ b.accepts r

/-- No branch of a condition fails on a record. -/
def IsDecided (c : Condition) (r : Record) : Prop := ∀ a ∈ c, ∀ b ∈ a, Succeeds (b.holds r)

variable {c c' : Condition} {r : Record}

theorem IsDecided.holds_eq (h : c.IsDecided r) : c.holds r = .ok (c.accepts r) :=
  allM_eq_ok_all fun a ha ↦ anyM_eq_ok_any fun b hb ↦ Branch.holds_eq_accepts (h a ha b hb)

theorem IsDecided.of_perm (h : c.IsDecided r) (hperm : c.Perm c') : c'.IsDecided r :=
  fun a ha ↦ h a (hperm.mem_iff.mpr ha)

/-- Conditions that are decided hold of the same records in any order, and so does what follows. -/
theorem IsDecided.holds_append_of_perm (h : c.IsDecided r) (hperm : c.Perm c') (d : Condition) :
    holds (c' ++ d) r = holds (c ++ d) r := by
  have hbranches {c : Condition} (h : c.IsDecided r) : ∀ a ∈ c, a.holds r =
      .ok (a.any fun b ↦ b.accepts r) :=
    fun a ha ↦ anyM_eq_ok_any fun b hb ↦ Branch.holds_eq_accepts (h a ha b hb)
  rw [holds, holds, allM_append (hbranches h), allM_append (hbranches (h.of_perm hperm)),
    hperm.all_eq]

theorem keepWhere_holds_eq {records : List Record} (h : ∀ r ∈ records, c.IsDecided r) :
    keepWhere c.holds records = .ok (records.filter c.accepts) :=
  keepWhere_eq_filter fun r hr ↦ (h r hr).holds_eq

end Condition

/-- A filter can be compiled, and none of its branches fails on any of some records. -/
def Filter.IsDecided (schema : Schema) (records : List Record) (f : Filter) : Prop :=
  ∃ a, f.alternative schema = .ok a ∧ ∀ b ∈ a, ∀ r ∈ records, Succeeds (b.holds r)

instance (schema : Schema) (records : List Record) (f : Filter) :
    Decidable (f.IsDecided schema records) :=
  match h : f.alternative schema with
  | .ok a => decidable_of_iff (∀ b ∈ a, ∀ r ∈ records, Succeeds (b.holds r))
      (by simp [Filter.IsDecided, h])
  | .error _ => isFalse (by simp [Filter.IsDecided, h])

/-- A quick search can be compiled, and does not fail on any of some records. -/
def Search.IsDecided (schema : Schema) (records : List Record) (q : Search) : Prop :=
  ∃ a, q.alternative schema = .ok a ∧ ∀ b ∈ a, ∀ r ∈ records, Succeeds (b.holds r)

instance (schema : Schema) (records : List Record) (q : Search) :
    Decidable (q.IsDecided schema records) :=
  match h : q.alternative schema with
  | .ok a => decidable_of_iff (∀ b ∈ a, ∀ r ∈ records, Succeeds (b.holds r))
      (by simp [Search.IsDecided, h])
  | .error _ => isFalse (by simp [Search.IsDecided, h])

namespace Specification

variable {schema : Schema} {s : Specification} {records : List Record}

theorem isDecided_alternatives (h : ∀ f ∈ s.filters, f.IsDecided schema records)
    {alternatives : Condition}
    (halternatives : s.filters.mapM (Filter.alternative schema) = .ok alternatives) :
    ∀ r ∈ records, alternatives.IsDecided r := by
  intro r hr a ha b hb
  obtain ⟨f, hf, hfa⟩ := exists_of_mem_mapM halternatives ha
  obtain ⟨a', ha', hdecided⟩ := h f hf
  cases hfa.symm.trans ha'
  exact hdecided b hb r hr

theorem isDecided_condition (h : ∀ f ∈ s.filters, f.IsDecided schema records)
    (hsearch : ∀ q ∈ s.search, q.IsDecided schema records) {c : Condition}
    (hc : s.condition schema = .ok c) : ∀ r ∈ records, c.IsDecided r := by
  obtain ⟨alternatives, halternatives, hc⟩ := bind_eq_ok_iff.mp hc
  have hfilters := isDecided_alternatives h halternatives
  split at hc
  · cases hc
    exact hfilters
  · next q hq =>
      obtain ⟨found, hfound, hc⟩ := bind_eq_ok_iff.mp hc
      cases hc
      obtain ⟨a, ha, hdecided⟩ := hsearch q hq
      cases hfound.symm.trans ha
      intro r hr
      refine List.forall_mem_append.mpr ⟨hfilters r hr, ?_⟩
      exact List.forall_mem_singleton.mpr fun b hb ↦ hdecided b hb r hr

/-- Filters that do not fail make the same condition in any order, whether the quick search behind
them fails or not. -/
theorem alike_condition_of_perm {filters : List Filter} (hperm : s.filters.Perm filters)
    (h : ∀ f ∈ s.filters, f.IsDecided schema records) :
    Alike (fun c c' : Condition ↦ ∀ r ∈ records, c'.holds r = c.holds r) (s.condition schema)
      (condition schema { s with filters := filters }) := by
  obtain ⟨alternatives, halternatives⟩ := succeeds_mapM_iff.mpr fun f hf ↦
    (h f hf).imp fun _ hf ↦ hf.1
  obtain ⟨others, hothers, hperm⟩ := exists_mapM_of_perm hperm halternatives
  have hdecided := isDecided_alternatives h halternatives
  rw [condition, condition, halternatives, hothers]
  cases hsearch : s.search with
  | none =>
      refine .ok fun r hr ↦ ?_
      have hsame := (hdecided r hr).holds_append_of_perm hperm []
      rwa [List.append_nil, List.append_nil] at hsame
  | some q =>
      change Alike _ (q.alternative schema >>= _) (q.alternative schema >>= _)
      cases q.alternative schema with
      | error e => exact .error e
      | ok a => exact .ok fun r hr ↦ (hdecided r hr).holds_append_of_perm hperm [a]

end Specification

theorem keepWhere_congr {α : Type} {p q : α → Outcome Bool} {items : List α}
    (h : ∀ a ∈ items, p a = q a) : keepWhere p items = keepWhere q items := by
  induction items with
  | nil => rfl
  | cons a as ih =>
      obtain ⟨ha, has⟩ := List.forall_mem_cons.mp h
      rw [keepWhere, keepWhere, ha, ih has]

namespace RecordList

variable {l : RecordList} {s : Specification}

theorem restrict_eq_of_perm {filters : List Filter} (hperm : s.filters.Perm filters)
    (h : ∀ f ∈ s.filters, f.IsDecided l.schema l.records) :
    l.restrict { s with filters := filters } = l.restrict s := by
  have halike := Specification.alike_condition_of_perm hperm h
  rw [restrict, restrict]
  generalize s.condition l.schema = x,
    Specification.condition l.schema { s with filters := filters } = y at halike
  cases halike with
  | error e => rfl
  | ok hsame =>
      change (keepWhere _ _ >>= _) = (keepWhere _ _ >>= _)
      rw [keepWhere_congr hsame]

/-- The listing does not depend on the order of filters of which no branch fails. -/
theorem list_eq_of_perm {filters : List Filter} (hperm : s.filters.Perm filters)
    (h : ∀ f ∈ s.filters, f.IsDecided l.schema l.records) :
    Specification.list { s with filters := filters } l = s.list l := by
  change (l.restrict { s with filters := filters } >>= _) = (l.restrict s >>= _)
  rw [restrict_eq_of_perm hperm h]

end RecordList

/-! ## Sorts that succeed -/

/-- No comparison of two of some records by the sort field fails. -/
def Sorting.IsDecided (schema : Schema) (records : List Record) (s : Sorting) : Prop :=
  ∀ f ∈ schema.resolve? s.field, ∀ a ∈ records, ∀ b ∈ records,
    Succeeds (s.direction.order (a.value f.name) (b.value f.name))

instance (schema : Schema) (records : List Record) (s : Sorting) :
    Decidable (s.IsDecided schema records) :=
  inferInstanceAs (Decidable (∀ f ∈ schema.resolve? s.field, ∀ a ∈ records, ∀ b ∈ records,
    Succeeds (s.direction.order (a.value f.name) (b.value f.name))))

theorem RecordList.succeeds_list {l : RecordList} {s : Specification} {c : Condition}
    (hc : s.condition l.schema = .ok c) (hdecided : ∀ r ∈ l.records, c.IsDecided r) {f : Field}
    (hf : l.schema.resolve? s.sort.field = some f) (h : s.sort.IsDecided l.schema l.records) :
    Succeeds (s.list l) := by
  have hsort : Succeeds (s.sort.apply l.schema id (l.records.filter c.accepts)) := by
    rw [Sorting.apply, Schema.require, hf]
    refine succeeds_sortOn fun a ha b hb ↦ ?_
    exact h f hf a (List.mem_of_mem_filter ha) b (List.mem_of_mem_filter hb)
  obtain ⟨ordered, hordered⟩ := hsort
  exact ⟨_, list_eq hc (fun r hr ↦ (hdecided r hr).holds_eq) hordered⟩

end RecordQuery
