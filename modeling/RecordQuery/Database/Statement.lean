import RecordQuery.Database.Limits

namespace RecordQuery

/-!
# Statements

What a database is asked: to count the rows of a table that a clause
selects, or to give them back in the order of some terms, all of them or as
many as a page holds.
-/

/-- A column to order by; missing values count as the least. -/
structure OrderTerm where
  column : Column
  direction : Direction
  /-- The place of the missing values is written into the text. -/
  nullsWritten : Bool
  deriving DecidableEq, Repr

namespace OrderTerm

def directionText : Direction → Text
  | .ascending => " ASC".toList
  | .descending => " DESC".toList

def nullsText : Direction → Text
  | .ascending => " NULLS FIRST".toList
  | .descending => " NULLS LAST".toList

def text (t : OrderTerm) : Text :=
  t.column.text ++ directionText t.direction ++
    (if t.nullsWritten then nullsText t.direction else [])

def order (t : OrderTerm) (a b : Record) : Ordering :=
  t.direction.apply ((t.column.cell a).order (t.column.cell b))

end OrderTerm

/-- The order by the first term that tells two rows apart. -/
def rowOrder : List OrderTerm → Record → Record → Ordering
  | [], _, _ => .eq
  | t :: ts, a, b => (t.order a b).then (rowOrder ts a b)

def sortRows (terms : List OrderTerm) (rows : List Record) : List Record :=
  rows.mergeSort fun a b ↦ (rowOrder terms a b).isLE

namespace Sorting

/-- The order by a field, and by the identifier among rows that are equal in it. -/
def terms (table : Table) (s : Sorting) : Outcome (List OrderTerm) := do
  let f ← table.schema.require .invalidSortField s.field
  let first : OrderTerm := ⟨⟨table.name, f⟩, s.direction, true⟩
  match table.schema.identifier? with
  | some key =>
    if key.name = f.name then return [first]
    else return [first, ⟨⟨table.name, key⟩, .ascending, false⟩]
  | none => return [first]

end Sorting

/-- What is read of the rows that are selected. -/
inductive Reading where
  | count
  | rows
  /-- The rows from an offset on, as many as a limit allows. -/
  | window (offset limit : Int)

def Reading.params : Reading → List Value
  | count | rows => []
  | window offset limit => [.int limit, .int offset]

structure Statement where
  table : Table
  clause : Clause
  terms : List OrderTerm
  reading : Reading

/-- Why a value cannot be bound. -/
def Value.bindFault? (l : Limits) : Value → Option Fault
  | int n => if fitsInt64 n then none else some .integerOverflow
  | text t => if Text.size t ≤ l.textSize then none else some .textTooLarge
  | _ => none

namespace Statement

def params (st : Statement) : List Value := st.clause.params ++ st.reading.params

def fits (st : Statement) (l : Limits) : Bool :=
  st.clause.depth ≤ l.depth && st.params.length ≤ l.params && st.terms.length ≤ l.orderTerms

/-- Why a statement is refused whatever the rows are. It is looked at as a
whole before values are bound to it. -/
def fault? (st : Statement) (l : Limits) : Option Fault :=
  if st.fits l then st.params.findSome? (Value.bindFault? l) else some .statementRefused

end Statement

end RecordQuery
