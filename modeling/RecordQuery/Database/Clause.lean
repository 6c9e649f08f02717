import RecordQuery.Catalog
import RecordQuery.Database.Cell
import RecordQuery.Database.Pattern
import RecordQuery.Record

namespace RecordQuery

/-!
# Clauses

The condition of a specification as a clause of a database statement: text
with a question mark for every value that is left to be bound. A clause is
true, false or unknown on a row; unknown is what a comparison with a
missing value is.
-/

/-- A column of a table, which holds the values of a field. -/
structure Column where
  table : Text
  field : Field
  deriving DecidableEq, Repr

namespace Column

def text (c : Column) : Text := c.table ++ '.' :: c.field.column

/-- The column as a text; columns of other types are cast. -/
def asText (c : Column) : Text :=
  if c.field.type = .text then c.text
  else "CAST(".toList ++ c.text ++ " AS VARCHAR)".toList

def cell (c : Column) (r : Record) : Cell := Cell.ofValue (r.value c.field.name)

end Column

/-- True, false or, without a value, unknown. -/
abbrev Truth := Option Bool

namespace Truth

def not (t : Truth) : Truth := Option.map (!·) t

def and : Truth → Truth → Truth
  | some false, _ | _, some false => some false
  | some true, some true => some true
  | _, _ => none

def or : Truth → Truth → Truth
  | some true, _ | _, some true => some true
  | some false, some false => some false
  | _, _ => none

def all (ts : List Truth) : Truth := ts.foldr and (some true)

def any (ts : List Truth) : Truth := ts.foldr or (some false)

@[simp] theorem and_eq_true_iff {s t : Truth} :
    s.and t = some true ↔ s = some true ∧ t = some true := by
  rcases s with _ | (_ | _) <;> rcases t with _ | (_ | _) <;> simp [and]

@[simp] theorem or_eq_true_iff {s t : Truth} :
    s.or t = some true ↔ s = some true ∨ t = some true := by
  rcases s with _ | (_ | _) <;> rcases t with _ | (_ | _) <;> simp [or]

theorem all_eq_true_iff {ts : List Truth} : all ts = some true ↔ ∀ t ∈ ts, t = some true := by
  induction ts with
  | nil => simp [all]
  | cons t ts ih =>
      have h : all (t :: ts) = t.and (all ts) := rfl
      simp [h, ih]

theorem any_eq_true_iff {ts : List Truth} : any ts = some true ↔ ∃ t ∈ ts, t = some true := by
  induction ts with
  | nil => simp [any]
  | cons t ts ih =>
      have h : any (t :: ts) = t.or (any ts) := rfl
      simp only [h, or_eq_true_iff, ih, List.mem_cons, exists_eq_or_imp]

end Truth

inductive Comparison where
  | equal | notEqual | greater | greaterOrEqual | less | lessOrEqual
  deriving DecidableEq, Repr

namespace Comparison

def symbol : Comparison → Text
  | equal => "=".toList
  | notEqual => "!=".toList
  | greater => ">".toList
  | greaterOrEqual => ">=".toList
  | less => "<".toList
  | lessOrEqual => "<=".toList

def holds : Comparison → Ordering → Bool
  | equal, o => o = .eq
  | notEqual, o => o ≠ .eq
  | greater, o => o = .gt
  | greaterOrEqual, o => o ≠ .lt
  | less, o => o = .lt
  | lessOrEqual, o => o ≠ .gt

/-- Unknown if either side is missing. -/
def compare (c : Comparison) (a b : Cell) : Truth :=
  match a, b with
  | .null, _ | _, .null => none
  | a, b => some (c.holds (a.order b))

def ofEquality (affirmed : Bool) : Comparison := if affirmed then equal else notEqual

end Comparison

/-- What a clause says of one column. -/
inductive Atom where
  | isNull
  /-- Equality with a truth value, affirmed or denied; truth values are written into the text. -/
  | isBool (affirmed b : Bool)
  /-- Equality with a text in lower case, affirmed or denied. -/
  | isText (affirmed : Bool) (t : Text)
  | compare (c : Comparison) (v : Value)
  /-- From one moment on and before another, affirmed or denied. -/
  | within (affirmed : Bool) (start finish : Moment)
  /-- A needle in the text of the column, where a textual operator looks for it. -/
  | like (o : Operator) (needle : Text)

namespace Atom

def boolText (b : Bool) : Text := if b then ['1'] else ['0']

def bound (c : Text) (o : Comparison) : Text := c ++ ' ' :: o.symbol ++ " ?".toList

/-- What stands before and after the needle in a pattern. -/
def wildcards : Operator → Bool × Bool
  | .startsWith => (false, true)
  | .endsWith => (true, false)
  | _ => (true, true)

def likeText (c : Column) (o : Operator) : Text :=
  "(lower(".toList ++ c.asText ++ ") LIKE ".toList ++
    (if (wildcards o).1 then "'%' || ".toList else []) ++ "lower(?)".toList ++
    (if (wildcards o).2 then " || '%'".toList else []) ++ " ESCAPE '/')".toList

def text (c : Column) : Atom → Text
  | isNull => c.text ++ " IS NULL".toList
  | isBool affirmed b =>
    c.text ++ ' ' :: (Comparison.ofEquality affirmed).symbol ++ ' ' :: boolText b
  | isText affirmed _ =>
    bound ("lower(".toList ++ c.text ++ [')']) (Comparison.ofEquality affirmed)
  | compare o _ => bound c.text o
  | within affirmed _ _ =>
    let range := bound c.text .greaterOrEqual ++ " AND ".toList ++ bound c.text .less
    if affirmed then range else "NOT (".toList ++ range ++ [')']
  | like o _ => likeText c o

/-- The values to be bound, in the order of the question marks. -/
def params : Atom → List Value
  | isNull | isBool _ _ => []
  | isText _ t => [.text t]
  | compare _ v => [v]
  | within _ start finish => [.moment start, .moment finish]
  | like _ needle => [.text (Pattern.escaped needle)]

def pattern (o : Operator) (needle : Text) : Text :=
  (if (wildcards o).1 then ['%'] else []) ++ Text.basicLower (Pattern.escaped needle) ++
    (if (wildcards o).2 then ['%'] else [])

def lowered (a : Cell) : Cell :=
  match a.toText? with
  | some t => .text (Text.basicLower t)
  | none => .null

def holds : Atom → Cell → Truth
  | isNull, a => some (a = .null)
  | isBool affirmed b, a =>
    (Comparison.ofEquality affirmed).compare a (Cell.ofValue (.bool b))
  | isText affirmed t, a => (Comparison.ofEquality affirmed).compare (lowered a) (.text t)
  | compare o v, a => o.compare a (Cell.ofValue v)
  | within affirmed start finish, a =>
    let inside := (Comparison.greaterOrEqual.compare a (Cell.ofValue (.moment start))).and
      (Comparison.less.compare a (Cell.ofValue (.moment finish)))
    if affirmed then inside else inside.not
  | like o needle, a => a.toText?.map fun t ↦ Pattern.isLike (pattern o needle) (Text.basicLower t)

def ofEquality (f : Field) (affirmed : Bool) (t : Text) : Outcome Atom :=
  match f.type, Literal.dateOnly? t with
  | .text, _ => .ok (.isText affirmed (Text.lower t))
  | .datetime, some d =>
    match d.next? with
    | some e => .ok (.within affirmed (Moment.midnightOf d) (Moment.midnightOf e))
    | none => .error .dateOverflow
  | _, _ => (f.read t).map fun v ↦
    match v with
    | .bool b => .isBool affirmed b
    | v => .compare (Comparison.ofEquality affirmed) v

/-- A relation in which truth values stand to none. -/
def ofComparison (c : Comparison) (v : Value) : Outcome Atom :=
  match v with
  | .bool _ => .error .orderedBoolean
  | v => .ok (.compare c v)

/-- The atoms of which one has to hold; a missing value is not equal to anything. -/
def ofOperator (f : Field) (o : Operator) (t : Text) : Outcome (List Atom) :=
  match o with
  | .equals => (ofEquality f true t).map ([·])
  | .notEquals => (ofEquality f false t).map ([.isNull, ·])
  | .contains | .startsWith | .endsWith => .ok [.like o t]
  | .greaterThan => do return [← ofComparison .greater (← f.read t)]
  | .greaterOrEqual => do return [← ofComparison .greaterOrEqual (← f.read t)]
  | .lessThan => do return [← ofComparison .less (← f.read t)]
  | .lessOrEqual => do return [← ofComparison .lessOrEqual (← f.read t)]

end Atom

structure Term where
  column : Column
  atom : Atom

namespace Term

def text (t : Term) : Text := t.atom.text t.column

def holds (t : Term) (r : Record) : Truth := t.atom.holds (t.column.cell r)

end Term

/-- Terms of which one has to hold, and of such groups all. -/
abbrev Clause := List (List Term)

namespace Clause

def groupText (group : List Term) : Text := Text.joinWith " OR ".toList (group.map Term.text)

/-- A group among others is put in parentheses unless it is a single term. -/
def enclosed (group : List Term) : Text :=
  match group with
  | [t] => t.text
  | group => '(' :: groupText group ++ [')']

/-- No group at all is always true, and a group without terms makes the clause false. -/
def isNever (c : Clause) : Bool := c.any List.isEmpty

def text (c : Clause) : Text :=
  if c.isNever then "0 = 1".toList
  else
    match c with
    | [] => ['1']
    | [group] => groupText group
    | groups => Text.joinWith " AND ".toList (groups.map enclosed)

def params (c : Clause) : List Value :=
  if c.isNever then [] else c.flatten.flatMap fun t ↦ t.atom.params

def holds (c : Clause) (r : Record) : Truth :=
  Truth.all (c.map fun group ↦ Truth.any (group.map fun t ↦ t.holds r))

/-- A row is selected if the clause is true of it; unknown does not do. -/
def selects (c : Clause) (r : Record) : Bool := c.holds r = some true

end Clause

namespace Filter

def group (table : Table) (f : Filter) : Outcome (List Term) := do
  let field ← table.schema.require .unresolvedFilterField f.field
  let atoms ← f.values.mapM (Atom.ofOperator field f.operator)
  return atoms.flatten.map (Term.mk ⟨table.name, field⟩)

end Filter

namespace Search

def group (table : Table) (s : Search) : Outcome (List Term) := do
  let fields ← s.fields.mapM (table.schema.require .invalidSearchColumn)
  return fields.map fun f ↦ ⟨⟨table.name, f⟩, .like .contains s.value⟩

end Search

namespace Specification

def clause (table : Table) (s : Specification) : Outcome Clause := do
  let groups ← s.filters.mapM (Filter.group table)
  match s.search with
  | none => return groups
  | some q => return groups ++ [← q.group table]

end Specification

end RecordQuery
