import RecordQuery.Database.Selection
import RecordQuery.Proofs.Outcome

namespace RecordQuery

/-!
# What statements end in

A statement that is not refused is answered, and the rows of the answer are
those that its clause selects. The one thing that may come between is a
pattern that is too long, if the database compares a row with it.
-/

open Outcome

/-- What a statement can end in whose answer is `a`. -/
inductive Statement.Ends {α : Type} (st : Statement) (l : Limits) (a : α) : Outcome α → Prop
  | refused {f : Fault} (h : st.fault? l = some f) : Ends st l a (.error f)
  | answered (h : st.fault? l = none) : Ends st l a (.ok a)
  | givenUp (h : st.fault? l = none) (hlong : st.clause.isLong l = true) :
      Ends st l a (.error .statementRefused)

namespace Statement.Ends

variable {α β : Type} {st : Statement} {l : Limits} {a b : α} {x : Outcome α}

theorem map (h : st.Ends l a x) (f : α → β) : st.Ends l (f a) (x.map f) := by
  cases h with
  | refused h => exact .refused h
  | answered h => exact .answered h
  | givenUp h hlong => exact .givenUp h hlong

theorem eq_ok (h : st.Ends l a x) (hf : st.fault? l = none)
    (hshort : st.clause.isLong l = false) : x = .ok a := by
  cases h with
  | refused h => cases h.symm.trans hf
  | answered => rfl
  | givenUp _ hlong => cases hlong.symm.trans hshort

theorem eq_of_ok (h : st.Ends l a (.ok b)) : b = a := by
  cases h with
  | answered => rfl

end Statement.Ends

namespace Statement

variable {l : Limits}

theorem fault?_eq_none_iff {st : Statement} :
    st.fault? l = none ↔ st.fits l = true ∧ ∀ v ∈ st.params, v.bindFault? l = none := by
  rw [fault?]
  cases st.fits l with
  | false => simp
  | true => simp [List.findSome?_eq_none_iff]

/-- Bounds of a page that fit into 64 bits are bound. -/
theorem fault?_window {table : Table} {d : Clause} {terms : List OrderTerm}
    (h : fault? ⟨table, d, terms, .window 0 0⟩ l = none) {offset limit : Nat}
    (hoffset : (offset : Int) ≤ int64Max) (hlimit : (limit : Int) ≤ int64Max) :
    fault? ⟨table, d, terms, .window offset limit⟩ l = none := by
  obtain ⟨hfits, hbound⟩ := fault?_eq_none_iff.mp h
  have hsame : fits ⟨table, d, terms, .window offset limit⟩ l =
      fits ⟨table, d, terms, .window 0 0⟩ l := by
    simp only [fits, params, Reading.params, List.length_append, List.length_cons]
  refine fault?_eq_none_iff.mpr ⟨hsame.trans hfits, List.forall_mem_append.mpr ⟨?_, ?_⟩⟩
  · exact fun v hv ↦ hbound v (List.mem_append_left _ hv)
  · simp [Reading.params, Value.bindFault?, fitsInt64_natCast hoffset, fitsInt64_natCast hlimit]

end Statement

namespace Engine

variable {e : Engine} {st : Statement} {rows : List Record}

theorem answer_eq_ok (h : e.fault? st rows = none) :
    e.answer st rows = .ok (sortRows st.terms (e.find st rows)) := by
  rw [answer, h]

theorem answer_ends (e : Engine) (st : Statement) (rows : List Record) :
    st.Ends e.limits (sortRows st.terms (e.find st rows)) (e.answer st rows) := by
  rw [answer, fault?]
  cases hf : st.fault? e.limits with
  | some f => exact .refused hf
  | none =>
      cases hlong : st.clause.isLong e.limits with
      | false => exact .answered hf
      | true =>
          cases e.strains st rows with
          | false => exact .answered hf
          | true => exact .givenUp hf hlong

end Engine

namespace Selection

variable (s : Selection)

/-- The rows of a selection in the order in which they are given back. -/
def ordered (reading : Reading) : List Record :=
  sortRows s.terms (s.engine.find (s.statement reading) s.rows)

theorem ordered_perm (reading : Reading) :
    (s.ordered reading).Perm (s.rows.filter s.clause.selects) :=
  (List.mergeSort_perm _ _).trans (s.engine.find_perm _ _)

theorem count_eq_ok (h : s.engine.fault? (s.statement .count) s.rows = none) :
    s.count = .ok (s.rows.filter s.clause.selects).length := by
  rw [← (s.ordered_perm .count).length_eq, count, answer, Engine.answer_eq_ok h]
  rfl

theorem page_eq_ok {offset limit : Nat}
    (h : s.engine.fault? (s.statement (.window offset limit)) s.rows = none) :
    s.page offset limit =
      .ok ((((s.ordered (.window offset limit)).drop offset).take limit).map Record.stored) := by
  rw [← window_ofNat, page, answer, Engine.answer_eq_ok h]
  rfl

theorem count_ends :
    (s.statement .count).Ends s.engine.limits (s.rows.filter s.clause.selects).length
      s.count := by
  rw [← (s.ordered_perm .count).length_eq]
  exact (s.engine.answer_ends _ _).map List.length

theorem fetch_ends :
    (s.statement .rows).Ends s.engine.limits ((s.ordered .rows).map Record.stored) s.fetch :=
  (s.engine.answer_ends _ _).map _

theorem page_ends (offset limit : Nat) : (s.statement (.window offset limit)).Ends s.engine.limits
    ((((s.ordered (.window offset limit)).drop offset).take limit).map Record.stored)
    (s.page offset limit) := by
  rw [← window_ofNat]
  exact (s.engine.answer_ends _ _).map fun rows ↦ (window offset limit rows).map Record.stored

end Selection

/-! ## Statements of listings -/

/-- What counts the rows of a listing. -/
def Statement.counting (table : Table) (d : Clause) : Statement := ⟨table, d, [], .count⟩

/-- What reads the page of a listing. -/
def Statement.paging (table : Table) (d : Clause) (terms : List OrderTerm) (p : Pagination) :
    Statement := ⟨table, d, terms, .window p.offset p.limit⟩

namespace Specification

variable {engine : Engine} {table : Table} {rows : List Record} {s : Specification} {d : Clause}
  {terms : List OrderTerm}

/-- A listing counts the rows that the clause selects and reads a page of them. -/
theorem list_eq_bind (hd : s.clause table = .ok d) (hterms : s.sort.terms table = .ok terms) :
    s.list (Selection.all engine table rows) =
      Selection.count ⟨engine, table, rows, d, []⟩ >>= fun total ↦
        (Selection.page ⟨engine, table, rows, d, terms⟩ s.pagination.offset
          s.pagination.limit).map fun items ↦ ⟨items, total, s.pagination, s.sort⟩ := by
  have hrestrict : Source.restrict (Selection.all engine table rows) s =
      (.ok ⟨engine, table, rows, d, []⟩ : Outcome Selection) := by
    change (s.clause table).map _ = _
    rw [hd]
    rfl
  have horder : Source.orderBy (⟨engine, table, rows, d, []⟩ : Selection) s.sort =
      .ok ⟨engine, table, rows, d, terms⟩ := by
    change (s.sort.terms table).map _ = _
    rw [hterms]
    rfl
  rw [list, hrestrict]
  change (Selection.count ⟨engine, table, rows, d, []⟩ >>= _) = _
  congr 1
  funext total
  rw [horder]
  change (Selection.page ⟨engine, table, rows, d, terms⟩ _ _ >>= _) = _
  cases Selection.page ⟨engine, table, rows, d, terms⟩ s.pagination.offset s.pagination.limit <;>
    rfl

theorem list_eq_error {e : Fault} (hd : s.clause table = .error e) :
    s.list (Selection.all engine table rows) = .error e := by
  change ((s.clause table).map _ >>= _) = _
  rw [hd]
  rfl

end Specification

end RecordQuery
