import RecordQuery.Runs.Merge

namespace RecordQuery.Runs

/-!
# Sorting by runs

Items are sorted by finding runs in them, lengthening the short ones item
by item, and merging neighbours. Items that stand in an order to each
other come out in it, and those of equal rank keep their places. Of other
items, too, it is settled where they come out: by the pairs that are
asked about. The first pair without an answer ends the sort.
-/

variable {α : Type}

/-- How many items go on in the direction of a run whose last item is given. -/
def continuation (before : Before α) (falling : Bool) (last : α) : List α → Outcome Nat
  | [] => .ok 0
  | a :: rest => do
    if (← before a last) = falling then return (← continuation before falling a rest) + 1
    else return 0

/-- The run at the front and the items behind it. A run in which every item
has to stand before the previous one is turned round. -/
def front (before : Before α) : List α → Outcome (List α × List α)
  | a :: b :: rest => do
    let falling ← before b a
    let size := (← continuation before falling b rest) + 2
    let run := (a :: b :: rest).take size
    return (if falling then run.reverse else run, (a :: b :: rest).drop size)
  | short => .ok (short, [])

def insert (before : Before α) (run : List α) (a : α) : Outcome (List α) := do
  let place ← bisect (at? run fun x ↦ (before a x).map (!·)) 0 run.length
  return run.take place ++ a :: run.drop place

def runLimit : Nat := 64

/-- The least length of a run among so many items: their number is halved
until it is below the limit, and one more if that left a remainder. -/
def leastLength (count : Nat) : Nat := go count 0 count
where
  go (count remainder : Nat) : Nat → Nat
    | 0 => count + remainder
    | fuel + 1 =>
      if count < runLimit then count + remainder
      else go (count / 2) (max remainder (count % 2)) fuel

/-- The depth of the boundary between two neighbouring runs in the tree that
halves the whole: the first binary place in which the middles of the two
runs, as shares of the whole, are different. -/
def depth (total start first second : Nat) : Nat :=
  go (2 * start + first) (2 * start + 2 * first + second) (2 * Nat.log2 total + 2)
where
  go (a b : Nat) : Nat → Nat
    | 0 => 0
    | fuel + 1 =>
      if total ≤ a then go (2 * (a - total)) (2 * (b - total)) fuel + 1
      else if total ≤ b then 1
      else go (2 * a) (2 * b) fuel + 1

/-- A run that waits to be merged, and the depth of its boundary to the next. -/
structure Pending (α : Type) where
  items : List α
  depth : Nat

/-- What is known while the runs are collected; the last run comes first. -/
structure Collection (α : Type) where
  pending : List (Pending α)
  patience : Nat

namespace Collection

/-- Merges a run with those before it whose boundaries are deeper than a given depth. -/
def settle (before : Before α) (depth patience : Nat) (run : List α) :
    List (Pending α) → Outcome (Collection α)
  | [] => .ok ⟨[⟨run, depth⟩], patience⟩
  | p :: rest =>
    if depth < p.depth then do
      let (merged, patience) ← merge before patience p.items run
      settle before depth patience merged rest
    else .ok ⟨⟨run, depth⟩ :: p :: rest, patience⟩

/-- Adds a run behind the others, out of so many items in all. -/
def add (before : Before α) (total : Nat) (run : List α) (c : Collection α) :
    Outcome (Collection α) := do
  match c.pending with
  | [] => return ⟨[⟨run, 0⟩], c.patience⟩
  | last :: rest =>
    let start := (rest.map fun p ↦ p.items.length).sum
    let boundary := depth total start last.items.length run.length
    let c ← settle before boundary c.patience last.items rest
    return ⟨⟨run, 0⟩ :: c.pending, c.patience⟩

def mergeAll (before : Before α) (patience : Nat) : Nat → List (Pending α) → Outcome (List α)
  | _, [] => .ok []
  | _, [p] => .ok p.items
  | 0, ps => .ok (ps.reverse.flatMap Pending.items)
  | fuel + 1, [b, a] => do
    let (merged, patience) ← merge before patience a.items b.items
    mergeAll before patience fuel [⟨merged, a.depth⟩]
  | fuel + 1, c :: b :: a :: rest => do
    if a.items.length < c.items.length then
      let (merged, patience) ← merge before patience a.items b.items
      mergeAll before patience fuel (c :: ⟨merged, a.depth⟩ :: rest)
    else
      let (merged, patience) ← merge before patience b.items c.items
      mergeAll before patience fuel (⟨merged, b.depth⟩ :: a :: rest)

/-- Collects the runs of items. Every run has an item, so that the fuel is the number of items. -/
def gather (before : Before α) (total least : Nat) :
    Nat → List α → Collection α → Outcome (Collection α)
  | _, [], c => .ok c
  | 0, items, c => .ok { c with pending := ⟨items, 0⟩ :: c.pending }
  | fuel + 1, items, c => do
    let (run, rest) ← front before items
    let short := least - run.length
    let run ← (rest.take short).foldlM (insert before) run
    gather before total least fuel (rest.drop short) (← add before total run c)

end Collection

def sort (before : Before α) (items : List α) : Outcome (List α) := do
  let count := items.length
  let c ← Collection.gather before count (leastLength count) count items ⟨[], shortestStreak⟩
  Collection.mergeAll before c.patience count c.pending

end RecordQuery.Runs
