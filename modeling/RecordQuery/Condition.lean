import RecordQuery.Record
import RecordQuery.Value.Text

namespace RecordQuery

/-!
# Conditions on records

The filters and the quick search of a specification as one condition: all
of some alternatives hold, and an alternative holds if one of its branches
does. A branch tests the value of one field. Conditions are decided from
left to right, and what is not looked at cannot fail.
-/

/-- A test of a field value. A missing value passes none but a negated test. -/
inductive Test where
  | textIs (t : Text)
  | equals (v : Value)
  /-- From one moment on and before another. -/
  | within (start finish : Moment)
  | ordered (o : Operator) (v : Value)
  /-- The text of the value, in lower case, against a needle. -/
  | finds (o : Operator) (needle : Text)
  | not (t : Test)

namespace Operator

/-- The relations between a value and a literal that an ordering operator accepts. -/
def accepts : Operator → Relation → Bool
  | greaterThan, .greater => true
  | greaterOrEqual, .greater | greaterOrEqual, .equal => true
  | lessThan, .less => true
  | lessOrEqual, .less | lessOrEqual, .equal => true
  | _, _ => false

/-- How a textual operator looks for a needle in a text. -/
def finds : Operator → Text → Text → Bool
  | startsWith => Text.hasPrefix
  | endsWith => Text.hasSuffix
  | _ => Text.hasInfix

end Operator

def Value.searchText (v : Value) : Outcome Text := v.plain.map Text.lower

namespace Test

def holds : Test → Value → Outcome Bool
  | .not t, v => (holds t v).map (!·)
  | _, .null => .ok false
  | .textIs t, v => v.searchText.map fun u ↦ decide (u = t)
  | .equals w, v => .ok (Value.equals v w)
  | .within start finish, v => do
    match ← Value.compareTo (.moment start) v with
    | .less | .equal => return (← Value.compareTo v (.moment finish)) = .less
    | _ => return false
  | .ordered o w, v => (Value.compareTo v w).map o.accepts
  | .finds o needle, v => v.searchText.map (o.finds needle)

theorem holds_textIs {v : Value} (h : v.isNull = false) (t : Text) :
    (textIs t).holds v = v.searchText.map fun u ↦ decide (u = t) := by
  cases v with
  | null => cases h
  | _ => rfl

theorem holds_finds {v : Value} (h : v.isNull = false) (o : Operator) (needle : Text) :
    (finds o needle).holds v = v.searchText.map (o.finds needle) := by
  cases v with
  | null => cases h
  | _ => rfl

theorem holds_ordered {v : Value} (h : v.isNull = false) (o : Operator) (w : Value) :
    (ordered o w).holds v = (Value.compareTo v w).map o.accepts := by
  cases v with
  | null => cases h
  | _ => rfl

/-- Equality with a literal. A text equals another in any letter case, and
a moment equals a date if it falls on that day in UTC. -/
def ofEquality (f : Field) (t : Text) : Outcome Test :=
  match f.type, Literal.dateOnly? t with
  | .text, _ => .ok (.textIs (Text.lower t))
  | .datetime, some d =>
    match d.next? with
    | some e => .ok (.within (Moment.midnightOf d) (Moment.midnightOf e))
    | none => .error .dateOverflow
  | _, _ => (f.read t).map .equals

def ofOperator (f : Field) (o : Operator) (t : Text) : Outcome Test :=
  match o with
  | .equals => ofEquality f t
  | .notEquals => (ofEquality f t).map .not
  | .contains | .startsWith | .endsWith => .ok (.finds o (Text.lower t))
  | .greaterThan | .greaterOrEqual | .lessThan | .lessOrEqual =>
    (f.read t).map (.ordered o)

end Test

structure Branch where
  field : Text
  test : Test

namespace Branch

def holds (b : Branch) (r : Record) : Outcome Bool := b.test.holds (r.value b.field)

end Branch

/-- One branch at least holds. -/
abbrev Alternative := List Branch

namespace Alternative

def holds (a : Alternative) (r : Record) : Outcome Bool := a.anyM fun b ↦ b.holds r

end Alternative

/-- All alternatives hold. -/
abbrev Condition := List Alternative

namespace Condition

def holds (c : Condition) (r : Record) : Outcome Bool := c.allM fun a ↦ a.holds r

end Condition

/-- The items that pass a check, in order; the first check that fails ends it. -/
def keepWhere {α : Type} (p : α → Outcome Bool) : List α → Outcome (List α)
  | [] => .ok []
  | a :: as => do
    let keep ← p a
    let rest ← keepWhere p as
    return if keep then a :: rest else rest

@[simp] theorem keepWhere_nil {α : Type} (p : α → Outcome Bool) : keepWhere p [] = .ok [] := rfl

/-- Where no check fails, keeping is filtering. -/
theorem keepWhere_eq_filter {α : Type} {p : α → Outcome Bool} {q : α → Bool} {items : List α}
    (h : ∀ a ∈ items, p a = .ok (q a)) : keepWhere p items = .ok (items.filter q) := by
  induction items with
  | nil => rfl
  | cons a as ih =>
      have ha := h a (by simp)
      have hr := ih fun b hb ↦ h b (by simp [hb])
      cases hq : q a <;> simp [keepWhere, ha, hr, hq, bind, Except.bind, pure, Except.pure]

namespace Filter

def alternative (schema : Schema) (f : Filter) : Outcome Alternative := do
  let field ← schema.require .unresolvedFilterField f.field
  f.values.mapM fun t ↦ (Test.ofOperator field f.operator t).map (Branch.mk field.name)

end Filter

namespace Search

def alternative (schema : Schema) (s : Search) : Outcome Alternative := do
  let fields ← s.fields.mapM (schema.require .invalidSearchColumn)
  fields.mapM fun f ↦ (Test.ofOperator f .contains s.value).map (Branch.mk f.name)

end Search

namespace Specification

def condition (schema : Schema) (s : Specification) : Outcome Condition := do
  let alternatives ← s.filters.mapM (Filter.alternative schema)
  match s.search with
  | none => return alternatives
  | some q => return alternatives ++ [← q.alternative schema]

end Specification

end RecordQuery
