import RecordQuery.Error

namespace RecordQuery.Runs

/-!
# Searching a run

A run is a stretch of items that are in order. The place of an item in it
is searched with a question to the places, which are numbered: whether
what stands there belongs before the item. The question may fail, and
where the answers do not fit to an order the place that is found depends
on the places that were asked; it is always one of the run or its end.
-/

abbrev Question := Nat → Outcome Bool

/-- Asks the item at a place; there is nothing to be said of places outside. -/
def at? {α : Type} (items : List α) (q : α → Outcome Bool) : Question := fun i ↦
  match items[i]? with
  | some a => q a
  | none => .ok false

/-- The first place from `lo` up to `hi` that does not belong before the
item, by halving the range. -/
def bisect (q : Question) (lo hi : Nat) : Outcome Nat :=
  if lo < hi then do
    if ← q (lo + (hi - lo) / 2) then bisect q (lo + (hi - lo) / 2 + 1) hi
    else bisect q lo (lo + (hi - lo) / 2)
  else .ok lo
termination_by hi - lo
decreasing_by all_goals omega

/-- Goes on over distances 1, 3, 7, 15, … as long as they are below a limit
and the answer is yes: the last distance with a yes, and the next one. -/
def stride (q : Question) (limit last next : Nat) : Outcome (Nat × Nat) :=
  if h : last < next ∧ next < limit then do
    if ← q next then stride q limit next (2 * next + 1)
    else .ok (last, next)
  else .ok (last, min next limit)
termination_by limit - next
decreasing_by omega

/-- The first of some places that does not belong before the item. The
search starts at a hint and goes away from it in growing steps, then
halves the last step. -/
def gallop (q : Question) (size hint : Nat) : Outcome Nat := do
  if ← q hint then
    let (last, next) ← stride (fun i ↦ q (hint + i)) (size - hint) 0 1
    bisect q (hint + last + 1) (hint + next)
  else
    let (last, next) ← stride (fun i ↦ (q (hint - i)).map (!·)) (hint + 1) 0 1
    bisect q (hint + 1 - next) (hint - last)

end RecordQuery.Runs
