import RecordQuery.Database.Clause

namespace RecordQuery

/-!
# What the database takes

A clause is read as a tree: what stands on one side of a sign is one level
below it, and connectives are read from the left. The database takes trees
up to a depth, so many values and terms to order by in one statement, and
texts up to a size. Patterns have a lower size, which is looked at only
where a row is compared with them. A database may be built with other
limits than the usual ones.
-/

structure Limits where
  depth : Nat
  params : Nat
  orderTerms : Nat
  /-- The bytes of a text that is bound. -/
  textSize : Nat
  /-- The bytes of a pattern. -/
  patternSize : Nat
  deriving DecidableEq, Repr

def Limits.standard : Limits := ⟨1000, 32766, 2000, 1000000000, 50000⟩

/-- The bytes of a text. -/
def Text.size (t : Text) : Nat := (t.map Char.utf8Size).sum

/-- The depth of a sign between two sides. -/
def depthOver (a b : Nat) : Nat := max a b + 1

/-- The depth of a chain of connectives between parts of the given depths. -/
def chainDepth : List Nat → Nat
  | [] => 0
  | d :: ds => ds.foldl depthOver d

namespace Column

/-- A column is named by two names with a point between them. -/
def depth : Nat := depthOver 1 1

def textDepth (c : Column) : Nat := if c.field.type = .text then depth else depth + 1

end Column

namespace Atom

def boundDepth : Nat := depthOver Column.depth 1

/-- The needle in lower case with the wildcards joined to it. -/
def patternDepth (o : Operator) : Nat :=
  let joined (wild : Bool) (d : Nat) : Nat := if wild then depthOver d 1 else d
  joined (wildcards o).2 (joined (wildcards o).1 2)

def depth (c : Column) : Atom → Nat
  | isNull | isBool _ _ | compare _ _ => boundDepth
  | isText _ _ => boundDepth + 1
  | within affirmed _ _ =>
    let range := depthOver boundDepth boundDepth
    if affirmed then range else range + 1
  | like o _ => depthOver (c.textDepth + 1) (patternDepth o)

def isOverlong (l : Limits) : Atom → Bool
  | like o needle => l.patternSize < Text.size (pattern o needle)
  | _ => false

end Atom

namespace Term

def depth (t : Term) : Nat := t.atom.depth t.column

/-- The parts of a term between which there is a connective of conjunctions. -/
def conjunctDepths (t : Term) : List Nat :=
  match t.atom with
  | .within true _ _ => [Atom.boundDepth, Atom.boundDepth]
  | _ => [t.depth]

end Term

namespace Clause

def groupDepths (group : List Term) : List Nat :=
  match group with
  | [t] => t.conjunctDepths
  | group => [chainDepth (group.map Term.depth)]

def depth (c : Clause) : Nat :=
  if c.isNever then depthOver 1 1
  else
    match c with
    | [] => 1
    | groups => chainDepth (groups.flatMap groupDepths)

/-- Whether a row is compared with a pattern that is too long. The terms of
a group are looked at up to the first that is true. -/
def groupStrains (l : Limits) (r : Record) : List Term → Bool
  | [] => false
  | t :: ts => t.atom.isOverlong l || (t.holds r != some true && groupStrains l r ts)

/-- The groups of a clause are looked at up to the first that is not true. -/
def strains (l : Limits) (r : Record) : Clause → Bool
  | [] => false
  | group :: groups =>
    groupStrains l r group ||
      (Truth.any (group.map fun t ↦ t.holds r) = some true && strains l r groups)

/-- A pattern is too long for the rows that are compared with it. -/
def isLong (c : Clause) (l : Limits) : Bool :=
  !c.isNever && c.any fun group ↦ group.any fun t ↦ t.atom.isOverlong l

end Clause

end RecordQuery
