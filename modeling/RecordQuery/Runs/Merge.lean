import RecordQuery.Runs.Search

namespace RecordQuery.Runs

/-!
# Merging two runs

Two runs are merged from the front or from the back, the next item of
either in turn. If one of them keeps winning, the place of the other's
next item is searched and all items before it are taken at once. How long
a winning streak has to be for that is the patience, which grows where
searching does not pay and shrinks where it does.
-/

variable {α : Type}

/-- Whether an item has to stand before another. -/
abbrev Before (α : Type) := α → α → Outcome Bool

def shortestStreak : Nat := 7

/-- A merge under way. Left and right are what is left of the earlier and
the later run; from the back these lists, too, begin at the back. -/
structure Merge (α : Type) where
  backward : Bool
  left : List α
  right : List α
  /-- What is merged, the last item first. -/
  done : List α
  leftWins : Nat
  rightWins : Nat
  patience : Nat

namespace Merge

/-- The run that is taken from first runs out, or one item of the other is left. -/
def hasEnded (m : Merge α) : Bool :=
  if m.backward then m.left.isEmpty || m.right.length ≤ 1
  else m.right.isEmpty || m.left.length ≤ 1

/-- The merged items in their order, and the patience that is left. -/
def finish (m : Merge α) : List α × Nat :=
  let merged := m.done.reverse ++ (if m.backward then m.left ++ m.right else m.right ++ m.left)
  (if m.backward then merged.reverse else merged, m.patience)

def takeLeft (count : Nat) (m : Merge α) : Merge α :=
  { m with left := m.left.drop count, done := (m.left.take count).reverse ++ m.done }

def takeRight (count : Nat) (m : Merge α) : Merge α :=
  { m with right := m.right.drop count, done := (m.right.take count).reverse ++ m.done }

/-- Takes the next item of one side, which adds to its winning streak and ends the other's. -/
def advance (rightWins : Bool) (m : Merge α) : Merge α :=
  if rightWins then { m.takeRight 1 with leftWins := 0, rightWins := m.rightWins + 1 }
  else { m.takeLeft 1 with leftWins := m.leftWins + 1, rightWins := 0 }

/-- How many items of one side come before a place. From the back these are the ones behind it. -/
def streak (m : Merge α) (items : List α) (q : α → Outcome Bool) : Outcome Nat :=
  let size := items.length
  if m.backward then
    (gallop (at? items.reverse q) size (size - 1)).map fun place ↦ size - place
  else gallop (at? items q) size 0

mutual

/-- Takes one item after the other. Every step uses up an item, so that the
fuel is the number of items. -/
def single (before : Before α) : Nat → Merge α → Outcome (List α × Nat)
  | 0, m => .ok m.finish
  | fuel + 1, m =>
    match m.left, m.right with
    | x :: _, y :: _ => do
      let m := m.advance ((← before y x) != m.backward)
      if m.hasEnded then return m.finish
      else if m.patience ≤ max m.leftWins m.rightWins then
        streaks before fuel { m with patience := m.patience + 1 }
      else single before fuel m
    | _, _ => .ok m.finish

/-- Takes streaks of items, as long as one of them is long enough. -/
def streaks (before : Before α) : Nat → Merge α → Outcome (List α × Nat)
  | 0, m => .ok m.finish
  | fuel + 1, m =>
    match m.right with
    | [] => .ok m.finish
    | y :: _ => do
      let m := { m with patience := max 1 (m.patience - 1) }
      let leftStreak ← m.streak m.left fun x ↦ (before y x).map (!·)
      let m := m.takeLeft leftStreak
      if m.hasEnded then return m.finish
      let m := m.takeRight 1
      if m.hasEnded then return m.finish
      match m.left with
      | [] => .ok m.finish
      | x :: _ => do
        let rightStreak ← m.streak m.right fun y ↦ before y x
        let m := m.takeRight rightStreak
        if m.hasEnded then return m.finish
        let m := m.takeLeft 1
        if m.hasEnded then return m.finish
        if shortestStreak ≤ max leftStreak rightStreak then streaks before fuel m
        else
          single before fuel
            { m with leftWins := 0, rightWins := 0, patience := m.patience + 1 }

end

/-- Merges from the side of the shorter run. The first item of the later run
is known to come first, and the last one of the earlier run to come last. -/
def run (before : Before α) (patience : Nat) (a b : List α) : Outcome (List α × Nat) :=
  let m : Merge α :=
    if a.length ≤ b.length then Merge.takeRight 1 ⟨false, a, b, [], 0, 0, patience⟩
    else Merge.takeLeft 1 ⟨true, a.reverse, b.reverse, [], 0, 0, patience⟩
  if m.hasEnded then .ok m.finish else single before (a.length + b.length) m

end Merge

/-- Merges two runs, of which the first stands before the second. Items that
are in place already, at the front of the first and at the end of the
second run, are left there. -/
def merge (before : Before α) (patience : Nat) (a b : List α) : Outcome (List α × Nat) :=
  match b with
  | [] => .ok (a, patience)
  | y :: _ => do
    let start ← gallop (at? a fun x ↦ (before y x).map (!·)) a.length 0
    let left := a.drop start
    match left.getLast? with
    | none => return (a ++ b, patience)
    | some x =>
      let stop ← gallop (at? b fun y ↦ before y x) b.length (b.length - 1)
      if stop = 0 then return (a ++ b, patience)
      let (merged, patience) ← Merge.run before patience left (b.take stop)
      return (a.take start ++ merged ++ b.drop stop, patience)

end RecordQuery.Runs
