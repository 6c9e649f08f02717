import RecordQuery.Database.Selection
import RecordQuery.Specification.OfArguments

namespace RecordQuery

/-!
# Repositories

Reading the rows of one table: by identifier, by clauses, or as a listing
that a query string asks for.
-/

structure Repository where
  engine : Engine
  table : Table
  rows : List Record
  registry : Registry

namespace Repository

def all (r : Repository) : Selection := Selection.all r.engine r.table r.rows

def restricted (r : Repository) (clauses : List Clause) : Selection :=
  r.all.restrictTo clauses.flatten

def count (r : Repository) (clauses : List Clause) : Outcome Nat := (r.restricted clauses).count

/-- The rows that all clauses select, as they are found. -/
def getWhere (r : Repository) (clauses : List Clause) : Outcome (List Record) :=
  (r.restricted clauses).fetch

/-- The row with an identifier; a number that is too wide for the database ends the search. -/
def get (r : Repository) (id : Int) : Outcome (Option Record) :=
  if fitsInt64 id then
    match r.table.schema.identifier? with
    | some key =>
      .ok ((r.rows.find? fun row ↦ Cell.ofValue (row.value key.name) = .integer id).map
        Record.stored)
    | none => .ok none
  else .error .integerOverflow

def getMany (r : Repository) (query defaultSort : Text) : Outcome (Listing Record) := do
  let spec ← Specification.ofQuery r.table.schema defaultSort r.registry query
  spec.list r.all

/-- The clause of a query string by itself, with the codes that every query may use. -/
def criterion (table : Table) (query : Text) : Outcome Clause := do
  let spec ← Specification.ofQuery table.schema "id".toList Registry.standard query
  spec.clause table

end Repository

end RecordQuery
