import RecordQuery.Database.Selection
import RecordQuery.Proofs.Schema

namespace RecordQuery

/-!
# Ties

Rows that are equal in the field of a sort are told apart by the first
field of the primary key. This is enough where the key is one field; the
other fields of a longer key are not looked at, and rows that differ in
them only are left in any order.
-/

namespace Field

/-- Two rows have different cells in the column of a field. -/
def Separates (f : Field) (a b : Record) : Prop :=
  (Cell.ofValue (a.value f.name)).order (Cell.ofValue (b.value f.name)) ≠ .eq

instance {f : Field} {a b : Record} : Decidable (f.Separates a b) :=
  inferInstanceAs (Decidable (_ ≠ _))

theorem separates_congr {f g : Field} (h : f.name = g.name) (a b : Record) :
    f.Separates a b ↔ g.Separates a b := by rw [Separates, Separates, h]

end Field

theorem Schema.identifier?_eq_head? (s : Schema) : s.identifier? = s.primaryKey.head? :=
  List.head?_filter.symm

theorem OrderTerm.order_ne_eq_iff (t : OrderTerm) (a b : Record) :
    t.order a b ≠ .eq ↔ t.column.field.Separates a b := by
  have happly : ∀ (d : Direction) (o : Ordering), d.apply o = .eq ↔ o = .eq := by
    rintro (_ | _) (_ | _ | _) <;> decide
  rw [order, ne_eq, happly]
  rfl

/-- Some terms tell two rows apart if one of them does. -/
theorem rowOrder_ne_eq_iff {terms : List OrderTerm} {a b : Record} :
    rowOrder terms a b ≠ .eq ↔ ∃ t ∈ terms, t.column.field.Separates a b := by
  induction terms with
  | nil => simp [rowOrder]
  | cons t terms ih =>
      rw [rowOrder, List.exists_mem_cons_iff, ← ih, ← t.order_ne_eq_iff, ne_eq,
        Ordering.then_eq_eq, not_and_or]

namespace Sorting

variable {table : Table} {s : Sorting} {f : Field}

/-- The terms behind that of a field. -/
def tieBreak (table : Table) (f : Field) : List OrderTerm :=
  match table.schema.identifier? with
  | some key => if key.name = f.name then [] else [⟨⟨table.name, key⟩, .ascending, false⟩]
  | none => []

theorem terms_eq_cons (hf : table.schema.resolve? s.field = some f) :
    s.terms table = .ok (⟨⟨table.name, f⟩, s.direction, true⟩ :: tieBreak table f) := by
  rw [terms, Schema.require, hf, tieBreak]
  cases table.schema.identifier? with
  | none => rfl
  | some key =>
      by_cases hname : key.name = f.name
      · simp [hname, bind, Except.bind, pure, Except.pure]
      · simp [hname, bind, Except.bind, pure, Except.pure]

/-- A field and what is behind it tell rows apart by the field and by the identifier. -/
theorem exists_separates_iff (d : Direction) (a b : Record) :
    (∃ t ∈ (⟨⟨table.name, f⟩, d, true⟩ : OrderTerm) :: tieBreak table f,
        t.column.field.Separates a b) ↔
      f.Separates a b ∨ ∃ key ∈ table.schema.primaryKey.head?, key.Separates a b := by
  rw [List.exists_mem_cons_iff, tieBreak, ← Schema.identifier?_eq_head?]
  cases table.schema.identifier? with
  | none => simp
  | some key =>
      by_cases hname : key.name = f.name
      · simp [hname, Field.separates_congr hname]
      · simp [hname]

/-- Rows are told apart by the field of the sort and by the first field of the primary key, and
by no other field. So any two rows with different keys are put in order if the key is one field. -/
theorem separates_iff (hf : table.schema.resolve? s.field = some f) :
    ∃ terms, s.terms table = .ok terms ∧ ∀ a b : Record,
      ((∃ t ∈ terms, t.order a b ≠ .eq) ↔
        f.Separates a b ∨ ∃ key ∈ table.schema.primaryKey.head?, key.Separates a b) ∧
      (table.schema.primaryKey.length ≤ 1 →
        (∃ key ∈ table.schema.primaryKey, key.Separates a b) → rowOrder terms a b ≠ .eq) := by
  refine ⟨_, terms_eq_cons hf, fun a b ↦ ?_⟩
  have hseparates : (∃ t ∈ (⟨⟨table.name, f⟩, s.direction, true⟩ : OrderTerm) :: tieBreak table f,
      t.column.field.Separates a b) ↔ _ := exists_separates_iff s.direction a b
  simp only [OrderTerm.order_ne_eq_iff, rowOrder_ne_eq_iff]
  refine ⟨hseparates, ?_⟩
  rintro hlength ⟨key, hkey, hne⟩
  refine hseparates.mpr (Or.inr ⟨key, ?_, hne⟩)
  cases hcases : table.schema.primaryKey with
  | nil => simp [hcases] at hkey
  | cons first rest =>
      rw [hcases, List.length_cons] at hlength
      obtain rfl : rest = [] := List.length_eq_zero_iff.mp (by omega)
      rw [hcases] at hkey
      rw [List.mem_singleton.mp hkey]
      rfl

/-- Two customers of one name. -/
theorem separates_iff_customers :
    let s : Sorting := ⟨"name".toList, .descending⟩
    let a := Record.ofRow ⟨[Catalog.field "name" .text, Catalog.key "id"]⟩ [.text ['a'], .int 1]
    let b := Record.ofRow ⟨[Catalog.field "name" .text, Catalog.key "id"]⟩ [.text ['a'], .int 2]
    Catalog.customers.schema.resolve? s.field = some (Catalog.field "name" .text) ∧
      ∃ terms, s.terms Catalog.customers = .ok terms ∧
        ¬ (Catalog.field "name" .text).Separates a b ∧ rowOrder terms a b ≠ .eq := by
  intro s a b
  have hf : Catalog.customers.schema.resolve? s.field = some (Catalog.field "name" .text) := by
    decide +kernel
  obtain ⟨terms, hterms, hseparates⟩ := separates_iff hf
  refine ⟨hf, terms, hterms, by decide, ?_⟩
  exact (hseparates a b).2 (by decide) ⟨Catalog.key "id", by decide, by decide⟩

/-- Two members of one organisation have different keys, and nothing puts them in order. -/
theorem terms_memberships_tie :
    let schema := Catalog.memberships.schema
    let a := Record.ofRow schema [.text "admin".toList, .int 1, .int 1]
    let b := Record.ofRow schema [.text "admin".toList, .int 1, .int 2]
    (∃ key ∈ schema.primaryKey, key.Separates a b) ∧
      ∀ d, ∃ terms, (⟨"role".toList, d⟩ : Sorting).terms Catalog.memberships = .ok terms ∧
        ∀ t ∈ terms, t.order a b = .eq := by
  refine ⟨⟨Catalog.key "user_id", by decide, by decide⟩, ?_⟩
  rintro (_ | _)
  · exact ⟨_, rfl, by decide⟩
  · exact ⟨_, rfl, by decide⟩

end Sorting

end RecordQuery
