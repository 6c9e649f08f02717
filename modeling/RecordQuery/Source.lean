import RecordQuery.Specification

namespace RecordQuery

/-!
# Sources and listings

A source is a collection that can be narrowed to what a specification
asks for, put in order, counted, and read page by page. A listing narrows,
counts, orders and reads one page, in this order.
-/

class Source (σ : Type) (ρ : outParam Type) where
  /-- Narrows a source to what the filters and the quick search accept. -/
  restrict : σ → Specification → Outcome σ
  orderBy : σ → Sorting → Outcome σ
  count : σ → Outcome Nat
  /-- The items from an offset on, as many as a limit allows. -/
  page : σ → Int → Int → Outcome (List ρ)

structure Listing (ρ : Type) where
  items : List ρ
  totalCount : Nat
  pagination : Pagination
  sort : Sorting

namespace Listing

def pageCount {ρ : Type} (l : Listing ρ) : Outcome Int :=
  RecordQuery.pageCount l.totalCount l.pagination.size

def map {ρ τ : Type} (f : ρ → τ) (l : Listing ρ) : Listing τ := { l with items := l.items.map f }

@[simp] theorem items_map {ρ τ : Type} (f : ρ → τ) (l : Listing ρ) :
    (l.map f).items = l.items.map f := rfl

end Listing

namespace Specification

variable {σ ρ : Type} [Source σ ρ]

def list (s : Specification) (source : σ) : Outcome (Listing ρ) := do
  let matching ← Source.restrict source s
  let total ← Source.count matching
  let ordered ← Source.orderBy matching s.sort
  let items ← Source.page ordered s.pagination.offset s.pagination.limit
  return ⟨items, total, s.pagination, s.sort⟩

end Specification

end RecordQuery
