import RecordQuery.Condition
import RecordQuery.Database.Selection
import RecordQuery.Proofs.Outcome

namespace RecordQuery

/-!
# Filters and their values

A filter asks for each of its values and accepts what one of them accepts.
So the alternative and the group of a filter are known when it is known
what its operator is compiled to for a single value.
-/

open Outcome

/-! ## Disjunctions -/

namespace Truth

theorem or_assoc (s t u : Truth) : (s.or t).or u = s.or (t.or u) := by
  rcases s with _ | (_ | _) <;> rcases t with _ | (_ | _) <;> rcases u with _ | (_ | _) <;> rfl

theorem false_or (t : Truth) : or (some false) t = t := by
  rcases t with _ | (_ | _) <;> rfl

theorem and_true (t : Truth) : t.and (some true) = t := by
  rcases t with _ | (_ | _) <;> rfl

theorem any_nil : any [] = some false := rfl

theorem any_cons (t : Truth) (ts : List Truth) : any (t :: ts) = t.or (any ts) := rfl

theorem any_append_eq_or (ss ts : List Truth) : any (ss ++ ts) = (any ss).or (any ts) := by
  induction ss with
  | nil => exact (false_or _).symm
  | cons s ss ih => rw [List.cons_append, any_cons, any_cons, ih, or_assoc]

theorem any_flatten (groups : List (List Truth)) : any groups.flatten = any (groups.map any) := by
  induction groups with
  | nil => rfl
  | cons group groups ih =>
      rw [List.flatten_cons, any_append_eq_or, ih, List.map_cons, any_cons]

theorem any_map_some {α : Type} (p : α → Bool) (as : List α) :
    any (as.map fun a ↦ some (p a)) = some (as.any p) := by
  induction as with
  | nil => rfl
  | cons a as ih =>
      rw [List.map_cons, any_cons, ih, List.any_cons]
      cases p a <;> cases as.any p <;> rfl

theorem decide_any (ts : List Truth) :
    decide (any ts = some true) = ts.any fun t ↦ decide (t = some true) := by
  rw [Bool.eq_iff_iff, decide_eq_true_iff, any_eq_true_iff, List.any_eq_true]
  simp only [decide_eq_true_iff]

end Truth

theorem Clause.holds_singleton (group : List Term) (r : Record) :
    holds [group] r = Truth.any (group.map fun t ↦ t.holds r) := Truth.and_true _

theorem Clause.selects_singleton (group : List Term) (r : Record) :
    selects [group] r = decide (Truth.any (group.map fun t ↦ t.holds r) = some true) := by
  rw [selects, holds_singleton]

/-! ## Filters -/

/-- A filter can be compiled, and accepts a row that was read back where the database selects it. -/
def Filter.AgreesOn (table : Table) (f : Filter) (r : Record) : Prop :=
  ∃ a group, f.alternative table.schema = .ok a ∧ f.group table = .ok group ∧
    a.holds r.stored = .ok (Clause.selects [group] r)

namespace Filter

variable {schema : Schema} {f : Filter} {field : Field}

theorem alternative_eq (h : schema.resolve? f.field = some field) :
    f.alternative schema = f.values.mapM fun t ↦
      (Test.ofOperator field f.operator t).map (Branch.mk field.name) := by
  have hrequire : schema.require .unresolvedFilterField f.field = .ok field := by
    simp [Schema.require, h]
  rw [alternative, hrequire]
  rfl

theorem group_eq {name : Text} (h : schema.resolve? f.field = some field) :
    f.group ⟨name, schema⟩ = (f.values.mapM (Atom.ofOperator field f.operator)).map fun atoms ↦
      atoms.flatten.map (Term.mk ⟨name, field⟩) := by
  have hrequire : schema.require .unresolvedFilterField f.field = .ok field := by
    simp [Schema.require, h]
  rw [group, hrequire]
  rfl

theorem succeeds_alternative_iff_values (h : schema.resolve? f.field = some field) :
    Succeeds (f.alternative schema) ↔
      ∀ t ∈ f.values, Succeeds (Test.ofOperator field f.operator t) := by
  simp only [alternative_eq h, succeeds_mapM_iff, succeeds_map_iff]

theorem succeeds_group_iff_values {name : Text} (h : schema.resolve? f.field = some field) :
    Succeeds (f.group ⟨name, schema⟩) ↔
      ∀ t ∈ f.values, Succeeds (Atom.ofOperator field f.operator t) := by
  simp only [group_eq h, succeeds_mapM_iff, succeeds_map_iff]

/-- An alternative whose tests are decided for each value accepts what one of them accepts. -/
theorem holds_alternative (hfield : schema.resolve? f.field = some field) {a : Alternative}
    (ha : f.alternative schema = .ok a) {r : Record} {p : Text → Bool}
    (h : ∀ t ∈ f.values, ∀ test, Test.ofOperator field f.operator t = .ok test →
      test.holds (r.value field.name) = .ok (p t)) :
    a.holds r = .ok (f.values.any p) := by
  rw [alternative_eq hfield, mapM_eq_ok_iff] at ha
  generalize f.values = values at ha h
  induction ha with
  | nil => rfl
  | @cons t b values rest hb _ ih =>
      obtain ⟨ht, hvalues⟩ := List.forall_mem_cons.mp h
      obtain ⟨test, htest, rfl⟩ := map_eq_ok_iff.mp hb
      have hfirst : Branch.holds ⟨field.name, test⟩ r = .ok (p t) := ht test htest
      rw [Alternative.holds, List.anyM_cons, hfirst, List.any_cons]
      cases p t with
      | true => rfl
      | false => exact ih hvalues

/-- A group whose atoms have a truth for each value has that of one of them. -/
theorem any_group {table : Table} (hfield : table.schema.resolve? f.field = some field)
    {group : List Term} (hgroup : f.group table = .ok group) {r : Record} {p : Text → Truth}
    (h : ∀ t ∈ f.values, ∀ atoms, Atom.ofOperator field f.operator t = .ok atoms →
      Truth.any (atoms.map fun a ↦ a.holds (Cell.ofValue (r.value field.name))) = p t) :
    Truth.any (group.map fun t ↦ t.holds r) = Truth.any (f.values.map p) := by
  rw [group_eq hfield, map_eq_ok_iff] at hgroup
  obtain ⟨atoms, hatoms, rfl⟩ := hgroup
  have htruth : (atoms.map fun as ↦
      Truth.any (as.map fun a ↦ a.holds (Cell.ofValue (r.value field.name)))) =
        f.values.map p := by
    rw [mapM_eq_ok_iff] at hatoms
    generalize f.values = values at hatoms h
    induction hatoms with
    | nil => rfl
    | cons has _ ih =>
        obtain ⟨ht, hvalues⟩ := List.forall_mem_cons.mp h
        rw [List.map_cons, List.map_cons, ih hvalues, ht _ has]
  have hholds : (atoms.flatten.map (Term.mk ⟨table.name, field⟩)).map (fun t ↦ t.holds r) =
      (atoms.map fun as ↦
        as.map fun a ↦ a.holds (Cell.ofValue (r.value field.name))).flatten := by
    simp [List.map_flatten, Term.holds, Column.cell, Function.comp_def]
  rw [hholds, Truth.any_flatten, List.map_map, ← htruth]
  rfl

/-- A group whose atoms are true, or not, for each value selects what they are true of for one of
them. -/
theorem selects_group {table : Table} (hfield : table.schema.resolve? f.field = some field)
    {group : List Term} (hgroup : f.group table = .ok group) {r : Record} {p : Text → Bool}
    (h : ∀ t ∈ f.values, ∀ atoms, Atom.ofOperator field f.operator t = .ok atoms →
      decide (Truth.any (atoms.map fun a ↦ a.holds (Cell.ofValue (r.value field.name))) =
        some true) = p t) :
    Clause.selects [group] r = f.values.any p := by
  have hvalues := (succeeds_group_iff_values hfield).mp ⟨group, hgroup⟩
  have hany := any_group hfield hgroup (r := r)
    (p := fun t ↦ (Atom.ofOperator field f.operator t).toOption.elim none fun atoms ↦
      Truth.any (atoms.map fun a ↦ a.holds (Cell.ofValue (r.value field.name))))
    (fun t _ atoms hatoms ↦ by rw [hatoms]; rfl)
  rw [Clause.selects_singleton, hany, Bool.eq_iff_iff, decide_eq_true_iff, Truth.any_eq_true_iff,
    List.any_eq_true]
  simp only [List.mem_map, exists_exists_and_eq_and]
  refine exists_congr fun t ↦ and_congr_right fun ht ↦ ?_
  obtain ⟨atoms, hatoms⟩ := hvalues t ht
  rw [← h t ht atoms hatoms, hatoms, decide_eq_true_iff]
  rfl

end Filter

end RecordQuery
