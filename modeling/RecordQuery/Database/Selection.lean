import RecordQuery.Database.Statement
import RecordQuery.Source

namespace RecordQuery

/-!
# Selections from a table

The rows of a table that a clause selects, in the order of some terms. It
is left to the database in which order it finds the rows, and so how they
stand where the terms leave it open, and how many rows it looks at before
it has an answer. What is given back is what it keeps of a record.
-/

/-- A database by what it is free to do. -/
structure Engine where
  limits : Limits
  /-- The rows that a statement selects, as they are found. -/
  find : Statement → List Record → List Record
  find_perm (st : Statement) (rows : List Record) :
    (find st rows).Perm (rows.filter st.clause.selects)
  /-- Whether a row is compared with a pattern that is too long before there is an answer. -/
  strains : Statement → List Record → Bool

def Table.scanTerms (table : Table) : List OrderTerm :=
  match table.schema.identifier? with
  | some key => [⟨⟨table.name, key⟩, .ascending, false⟩]
  | none => []

namespace Engine

/-- The database that looks at all rows, in the order of their identifier. -/
def standard : Engine where
  limits := .standard
  find st rows := sortRows st.table.scanTerms (rows.filter st.clause.selects)
  find_perm _ _ := List.mergeSort_perm _ _
  strains st rows := rows.any fun r ↦ st.clause.strains .standard r

/-- Why there is no answer to a statement. -/
def fault? (e : Engine) (st : Statement) (rows : List Record) : Option Fault :=
  match st.fault? e.limits with
  | some f => some f
  | none => if st.clause.isLong e.limits && e.strains st rows then some .statementRefused else none

/-- The rows that a statement selects, in the order of its terms. -/
def answer (e : Engine) (st : Statement) (rows : List Record) : Outcome (List Record) :=
  match e.fault? st rows with
  | some f => .error f
  | none => .ok (sortRows st.terms (e.find st rows))

end Engine

namespace Record

def stored (r : Record) : Record := r.map fun (name, v) ↦ (name, v.stored)

end Record

structure Selection where
  engine : Engine
  table : Table
  rows : List Record
  clause : Clause
  terms : List OrderTerm

namespace Selection

def all (engine : Engine) (table : Table) (rows : List Record) : Selection :=
  ⟨engine, table, rows, [], []⟩

def restrictTo (s : Selection) (c : Clause) : Selection := { s with clause := s.clause ++ c }

def statement (s : Selection) (reading : Reading) : Statement :=
  ⟨s.table, s.clause, s.terms, reading⟩

def answer (s : Selection) (reading : Reading) : Outcome (List Record) :=
  s.engine.answer (s.statement reading) s.rows

def count (s : Selection) : Outcome Nat := (s.answer .count).map List.length

def fetch (s : Selection) : Outcome (List Record) := (s.answer .rows).map (List.map Record.stored)

/-- Some rows from an offset on. A negative offset is none, and so is a negative limit. -/
def window {α : Type} (offset limit : Int) (rows : List α) : List α :=
  let rest := rows.drop offset.toNat
  if limit < 0 then rest else rest.take limit.toNat

theorem window_ofNat {α : Type} (offset limit : Nat) (rows : List α) :
    window (offset : Int) (limit : Int) rows = (rows.drop offset).take limit := by
  have h : ¬ (limit : Int) < 0 := by omega
  simp [window, h]

def page (s : Selection) (offset limit : Int) : Outcome (List Record) :=
  (s.answer (.window offset limit)).map fun rows ↦ (window offset limit rows).map Record.stored

instance : Source Selection Record where
  restrict s spec := (spec.clause s.table).map s.restrictTo
  orderBy s sort := (sort.terms s.table).map fun ts ↦ { s with terms := s.terms ++ ts }
  count := count
  page := page

end Selection

end RecordQuery
