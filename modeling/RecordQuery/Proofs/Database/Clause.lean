import RecordQuery.Proofs.Compilation
import RecordQuery.Proofs.Database.Atom

namespace RecordQuery

/-!
# Conditions and clauses

The condition and the clause of a specification accept the same records of
a table, or fail for the same cause.
-/

open Outcome

/-- A record with values that its table takes; some may be missing. -/
def Record.IsStorable (schema : Schema) (r : Record) : Prop :=
  ∀ f ∈ schema.fields, r.value f.name = .null ∨ (r.value f.name).IsStorable f.type

instance {schema : Schema} {r : Record} : Decidable (r.IsStorable schema) :=
  inferInstanceAs (Decidable (∀ f ∈ schema.fields, _))

/-- An alternative holds of a record of a table where one of some terms is true. -/
def Alternative.Agrees (schema : Schema) (a : Alternative) (group : List Term) : Prop :=
  ∀ r, r.IsStorable schema →
    ∃ b, a.holds r = .ok b ∧ (Truth.any (group.map fun t ↦ t.holds r) = some true ↔ b = true)

namespace Truth

theorem any_append (ss ts : List Truth) : any (ss ++ ts) = some true ↔
    any ss = some true ∨ any ts = some true := by
  simp only [any_eq_true_iff, List.mem_append, or_and_right, exists_or]

end Truth

variable {table : Table}

namespace Alternative

theorem agrees_nil : Agrees table.schema [] [] := fun _ _ ↦ ⟨false, rfl, by simp [Truth.any]⟩

theorem agrees_cons {f : Field} (hf : f ∈ table.schema.fields) {test : Test} {atoms : List Atom}
    (h : test.Agrees f.type atoms) {rest : Alternative} {group : List Term}
    (hrest : Agrees table.schema rest group) :
    Agrees table.schema (⟨f.name, test⟩ :: rest)
      (atoms.map (Term.mk ⟨table.name, f⟩) ++ group) := by
  intro r hr
  obtain ⟨b, htest, hatoms⟩ := h _ (hr f hf)
  obtain ⟨c, hholds, hgroup⟩ := hrest r hr
  have hterms : (atoms.map (Term.mk ⟨table.name, f⟩)).map (fun t ↦ t.holds r) =
      atoms.map fun a ↦ a.holds (Cell.ofValue (r.value f.name)) := by
    simp [Term.holds, Column.cell, Function.comp_def]
  have hfirst : Branch.holds ⟨f.name, test⟩ r = .ok b := htest
  refine ⟨b || c, ?_, ?_⟩
  · rw [holds, List.anyM_cons, hfirst]
    cases b with
    | true => rfl
    | false => exact hholds
  · rw [List.map_append, hterms, Truth.any_append, hatoms, hgroup, Bool.or_eq_true]

/-- Tests of one field, and the atoms that agree with each of them. -/
theorem agrees_flatten {f : Field} (hf : f ∈ table.schema.fields) {a : Alternative}
    {atoms : List (List Atom)}
    (h : List.Forall₂ (fun b atoms ↦ b.field = f.name ∧ b.test.Agrees f.type atoms) a atoms) :
    Agrees table.schema a (atoms.flatten.map (Term.mk ⟨table.name, f⟩)) := by
  induction h with
  | nil => exact agrees_nil
  | @cons b _ _ _ hb _ ih =>
      obtain ⟨name, test⟩ := b
      obtain ⟨rfl, htest⟩ := hb
      rw [List.flatten_cons, List.map_append]
      exact agrees_cons hf htest ih

end Alternative

/-! ## Filters -/

/-- A filter by literals that mean the same to records in memory and to a database. -/
def Filter.IsPortable (schema : Schema) (f : Filter) : Prop :=
  ∀ field, schema.Declares f.field field → ∀ t ∈ f.values, f.operator.IsPortable field.type t

instance {schema : Schema} {f : Filter} : Decidable (f.IsPortable schema) :=
  decidable_of_iff _ Schema.forall_declares_iff.symm

/-- A filter by literals that mean the same to records in memory and to a database, on whatever
field is found under its name. Only a needle has to be a text of the basic alphabet. -/
def Filter.IsShared (schema : Schema) (f : Filter) : Prop :=
  ∀ field ∈ schema.resolve? f.field, ∀ t ∈ f.values,
    f.operator.ComparesAlike field.type t ∧ (f.operator.isTextual = true → t.IsBasic)

instance {schema : Schema} {f : Filter} : Decidable (f.IsShared schema) :=
  inferInstanceAs (Decidable (∀ field ∈ schema.resolve? f.field, _))

theorem Filter.IsPortable.isShared {schema : Schema} {f : Filter} (h : f.IsPortable schema)
    (hf : f.IsWellFormed schema) : f.IsShared schema := by
  obtain ⟨found, hfound, -⟩ := hf.declared
  intro field hfield t ht
  cases hfound.resolve?_eq.symm.trans hfield
  have hportable := h _ hfound t ht
  exact ⟨hportable.comparesAlike, fun _ ↦ hportable.1⟩

theorem Filter.alike_group {f : Filter} (h : f.IsShared table.schema) :
    Alike (Alternative.Agrees table.schema) (f.alternative table.schema) (f.group table) := by
  unfold alternative group
  cases hrequire : table.schema.require .unresolvedFilterField f.field with
  | error e => exact .error e
  | ok field =>
      have hfield := Schema.require_eq_ok_iff.mp hrequire
      have hatoms : Alike (List.Forall₂ fun b atoms ↦
            Branch.field b = field.name ∧ b.test.Agrees field.type atoms)
          (f.values.mapM fun t ↦ (Test.ofOperator field f.operator t).map (Branch.mk field.name))
          (f.values.mapM (Atom.ofOperator field f.operator)) := by
        apply Alike.mapM
        intro t ht
        obtain ⟨hcompares, hneedle⟩ := h field hfield t ht
        exact (Test.alike_ofOperator hcompares hneedle).map_left
          fun _ _ hagrees ↦ ⟨rfl, hagrees⟩
      exact hatoms.bind_right fun a atoms hagrees ↦
        .ok (Alternative.agrees_flatten (Schema.mem_of_resolve?_eq hfield) hagrees)

/-! ## Quick search -/

/-- A quick search for a text of the basic alphabet in texts, whole numbers and dates. -/
def Search.IsPortable (schema : Schema) (q : Search) : Prop :=
  q.value.IsBasic ∧ ∀ name ∈ q.fields, ∀ field, schema.Declares name field →
    field.type ∈ [FieldType.text, .int, .date]

instance {schema : Schema} {q : Search} : Decidable (q.IsPortable schema) :=
  decidable_of_iff
    (q.value.IsBasic ∧ ∀ name ∈ q.fields, ∀ f ∈ schema.resolve? name, f.name = name →
      f.type ∈ [FieldType.text, .int, .date])
    (and_congr_right' (forall₂_congr fun _ _ ↦ Schema.forall_declares_iff.symm))

theorem Search.agrees_map {value : Text} (hvalue : value.IsBasic) {fields : List Field}
    (hfields : ∀ f ∈ fields, f ∈ table.schema.fields ∧ f.type ∈ [FieldType.text, .int, .date]) :
    Alternative.Agrees table.schema
      (fields.map fun f ↦ ⟨f.name, .finds .contains (Text.lower value)⟩)
      (fields.map fun f ↦ ⟨⟨table.name, f⟩, .like .contains value⟩) := by
  induction fields with
  | nil => exact Alternative.agrees_nil
  | cons f fields ih =>
      obtain ⟨⟨hmem, htype⟩, hfields⟩ := List.forall_mem_cons.mp hfields
      exact Alternative.agrees_cons hmem (Test.agrees_finds hvalue htype .contains) (ih hfields)

/-- A quick search for a text of the basic alphabet in texts, whole numbers and dates, under
whatever names these are found. -/
def Search.IsShared (schema : Schema) (q : Search) : Prop :=
  q.value.IsBasic ∧ ∀ name ∈ q.fields, ∀ field ∈ schema.resolve? name,
    field.type ∈ [FieldType.text, .int, .date]

instance {schema : Schema} {q : Search} : Decidable (q.IsShared schema) :=
  inferInstanceAs (Decidable (q.value.IsBasic ∧ ∀ name ∈ q.fields,
    ∀ field ∈ schema.resolve? name, field.type ∈ [FieldType.text, .int, .date]))

theorem Search.IsPortable.isShared {schema : Schema} {q : Search} (h : q.IsPortable schema)
    (hq : q.IsWellFormed schema) : q.IsShared schema := by
  refine ⟨h.1, fun name hname field hfield ↦ ?_⟩
  obtain ⟨found, hfound⟩ := hq.declared name hname
  cases hfound.resolve?_eq.symm.trans hfield
  exact h.2 name hname _ hfound

theorem Search.alike_group {q : Search} (h : q.IsShared table.schema) :
    Alike (Alternative.Agrees table.schema) (q.alternative table.schema) (q.group table) := by
  unfold alternative group
  cases hrequire : q.fields.mapM (table.schema.require .invalidSearchColumn) with
  | error e => exact .error e
  | ok fields =>
      have hfields : ∀ f ∈ fields,
          f ∈ table.schema.fields ∧ f.type ∈ [FieldType.text, .int, .date] := by
        intro f hf
        obtain ⟨name, hname, hf⟩ := exists_of_mem_mapM hrequire hf
        have hresolve := Schema.require_eq_ok_iff.mp hf
        exact ⟨Schema.mem_of_resolve?_eq hresolve, h.2 name hname f hresolve⟩
      have halternative : fields.mapM (m := Outcome) (fun f ↦
          (Test.ofOperator f .contains q.value).map (Branch.mk f.name)) =
          .ok (fields.map fun f ↦ ⟨f.name, .finds .contains (Text.lower q.value)⟩) :=
        mapM_eq_ok_map fun f _ ↦ rfl
      change Alike _ (fields.mapM _) (.ok _)
      rw [halternative]
      exact .ok (agrees_map h.1 hfields)

/-! ## Specifications -/

/-- A specification that means the same to records in memory and to a database. -/
structure Specification.IsPortable (schema : Schema) (s : Specification) : Prop where
  filters : ∀ f ∈ s.filters, f.IsPortable schema
  search : ∀ q, s.search = some q → q.IsPortable schema

instance {schema : Schema} {s : Specification} : Decidable (s.IsPortable schema) :=
  decidable_of_iff
    ((∀ f ∈ s.filters, f.IsPortable schema) ∧ ∀ q ∈ s.search, q.IsPortable schema)
    ⟨fun h ↦ ⟨h.1, h.2⟩, fun h ↦ ⟨h.filters, h.search⟩⟩

/-- A specification that means the same to records in memory and to a database, under whatever
names its fields are found. -/
structure Specification.IsShared (schema : Schema) (s : Specification) : Prop where
  filters : ∀ f ∈ s.filters, f.IsShared schema
  search : ∀ q, s.search = some q → q.IsShared schema

instance {schema : Schema} {s : Specification} : Decidable (s.IsShared schema) :=
  decidable_of_iff
    ((∀ f ∈ s.filters, f.IsShared schema) ∧ ∀ q ∈ s.search, q.IsShared schema)
    ⟨fun h ↦ ⟨h.1, h.2⟩, fun h ↦ ⟨h.filters, h.search⟩⟩

theorem Specification.IsPortable.isShared {schema : Schema} {s : Specification}
    (h : s.IsPortable schema) (hs : s.IsWellFormed schema) : s.IsShared schema where
  filters f hf := (h.filters f hf).isShared (hs.filters f hf)
  search q hq := (h.search q hq).isShared (hs.search q hq)

/-- A condition accepts the records of a table that a clause selects. -/
def Condition.Agrees (schema : Schema) (c : Condition) (d : Clause) : Prop :=
  ∀ r, r.IsStorable schema → c.holds r = .ok (d.selects r)

theorem Clause.selects_cons (group : List Term) (d : Clause) (r : Record) :
    selects (group :: d) r =
      (decide (Truth.any (group.map fun t ↦ t.holds r) = some true) && selects d r) := by
  have hholds : holds (group :: d) r =
      (Truth.any (group.map fun t ↦ t.holds r)).and (holds d r) := rfl
  rw [selects, selects, hholds, Bool.eq_iff_iff]
  simp

theorem Condition.agrees_of_forall₂ {schema : Schema} {c : Condition} {d : Clause}
    (h : List.Forall₂ (Alternative.Agrees schema) c d) : Agrees schema c d := by
  intro r hr
  induction h with
  | nil => rfl
  | @cons a group c d hagrees _ ih =>
      obtain ⟨b, hholds, hgroup⟩ := hagrees r hr
      have hdecide : decide (Truth.any (group.map fun t ↦ t.holds r) = some true) = b := by
        rw [Bool.eq_iff_iff, decide_eq_true_iff, hgroup]
      rw [holds, List.allM_cons, hholds, Clause.selects_cons, hdecide]
      cases b with
      | true => exact ih
      | false => rfl

/-- The condition and the clause of a specification accept the same records. -/
theorem Specification.alike_clause {s : Specification} (h : s.IsShared table.schema) :
    Alike (Condition.Agrees table.schema) (s.condition table.schema) (s.clause table) := by
  have hfilters : Alike (List.Forall₂ (Alternative.Agrees table.schema))
      (s.filters.mapM (Filter.alternative table.schema)) (s.filters.mapM (Filter.group table)) :=
    Alike.mapM fun f hf ↦ Filter.alike_group (h.filters f hf)
  unfold condition clause
  apply hfilters.bind
  intro alternatives groups hagrees
  cases hsearch : s.search with
  | none => exact .ok (Condition.agrees_of_forall₂ hagrees)
  | some q =>
      have hq := Search.alike_group (h.search q hsearch)
      refine hq.bind fun a group ha ↦ .ok (Condition.agrees_of_forall₂ ?_)
      exact List.rel_append hagrees (.cons ha .nil)

end RecordQuery
