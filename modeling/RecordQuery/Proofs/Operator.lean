import RecordQuery.Condition
import RecordQuery.Database.Clause
import RecordQuery.Proofs.Calendar.Day
import RecordQuery.Proofs.Literal

namespace RecordQuery

/-!
# What operators are compiled to

The tests and the atoms of an operator and a literal, side by side. An
equality folds a text, takes a day up to the next one, and reads every
other literal as a value of the field. An ordering reads its literal, and
a textual operator takes it as it is.
-/

/-! ## Comparisons -/

theorem Comparison.compare_eq {a b : Cell} (ha : a ≠ .null) (hb : b ≠ .null) (c : Comparison) :
    c.compare a b = some (c.holds (a.order b)) := by
  unfold compare
  split
  · exact absurd rfl ha
  · exact absurd rfl hb
  · rfl

theorem Comparison.holds_ofEquality (affirmed : Bool) (o : Ordering) :
    (ofEquality affirmed).holds o = (decide (o = .eq) == affirmed) := by
  cases affirmed <;> cases o <;> rfl

/-! ## Equalities -/

/-- The atom of an equality with a value. -/
def Atom.ofValue (affirmed : Bool) : Value → Atom
  | .bool b => .isBool affirmed b
  | v => .compare (Comparison.ofEquality affirmed) v

theorem Atom.holds_ofValue (affirmed : Bool) (w : Value) (c : Cell) :
    (ofValue affirmed w).holds c =
      (Comparison.ofEquality affirmed).compare c (Cell.ofValue w) := by
  unfold ofValue
  split <;> rfl

/-- Whether a cell stands between two moments, affirmed or denied. -/
theorem Atom.holds_within (affirmed : Bool) (start finish : Moment) {c : Cell} (hc : c ≠ .null) :
    (within affirmed start finish).holds c =
      some ((Comparison.greaterOrEqual.holds (c.order (Cell.ofValue (.moment start))) &&
        Comparison.less.holds (c.order (Cell.ofValue (.moment finish)))) == affirmed) := by
  have hmoment : ∀ t : Moment, Cell.ofValue (.moment t) ≠ .null := nofun
  simp only [holds, Comparison.compare_eq hc (hmoment _)]
  generalize Comparison.greaterOrEqual.holds _ = lower, Comparison.less.holds _ = upper
  cases lower <;> cases upper <;> cases affirmed <;> rfl

/-- The ways in which an equality between a field and a literal is compiled. -/
inductive Field.Equality (f : Field) (t : Text) : Prop
  | folded (htype : f.type = .text)
      (htest : Test.ofEquality f t = .ok (.textIs (Text.lower t)))
      (hatom : ∀ affirmed, Atom.ofEquality f affirmed t = .ok (.isText affirmed (Text.lower t)))
  | day {d e : Date} (htype : f.type = .datetime) (hd : Literal.dateOnly? t = some d)
      (he : d.next? = some e)
      (htest : Test.ofEquality f t = .ok (.within (Moment.midnightOf d) (Moment.midnightOf e)))
      (hatom : ∀ affirmed, Atom.ofEquality f affirmed t =
        .ok (.within affirmed (Moment.midnightOf d) (Moment.midnightOf e)))
  | lastDay (htype : f.type = .datetime) (hd : Literal.dateOnly? t = some Date.last)
      (htest : Test.ofEquality f t = .error .dateOverflow)
      (hatom : ∀ affirmed, Atom.ofEquality f affirmed t = .error .dateOverflow)
  | read (htype : f.type ≠ .text) (hd : f.type = .datetime → Literal.dateOnly? t = none)
      (htest : Test.ofEquality f t = (f.read t).map .equals)
      (hatom : ∀ affirmed,
        Atom.ofEquality f affirmed t = (f.read t).map (Atom.ofValue affirmed))

theorem Field.equality (f : Field) (t : Text) : f.Equality t := by
  by_cases htext : f.type = .text
  · apply Equality.folded htext
    · simp [Test.ofEquality, htext]
    · simp [Atom.ofEquality, htext]
  · by_cases hdate : f.type = .datetime → Literal.dateOnly? t = none
    · apply Equality.read htext hdate
      · unfold Test.ofEquality
        split
        · next h => exact absurd h htext
        · next h hd => exact absurd (hdate h) (by simp [hd])
        · rfl
      · intro affirmed
        unfold Atom.ofEquality
        split
        · next h => exact absurd h htext
        · next h hd => exact absurd (hdate h) (by simp [hd])
        · rfl
    · obtain ⟨htype, hsome⟩ := Classical.not_imp.mp hdate
      obtain ⟨d, hd⟩ := Option.ne_none_iff_exists'.mp hsome
      cases he : d.next? with
      | none =>
          apply Equality.lastDay htype (Date.next?_eq_none_iff.mp he ▸ hd)
          · simp [Test.ofEquality, htype, hd, he]
          · simp [Atom.ofEquality, htype, hd, he]
      | some e =>
          apply Equality.day htype hd he
          · simp [Test.ofEquality, htype, hd, he]
          · simp [Atom.ofEquality, htype, hd, he]

/-! ## Kinds of operators -/

namespace Operator

def isEquality : Operator → Bool
  | equals | notEquals => true
  | _ => false

/-- Operators that ask which of two values is the greater one. -/
def isOrdering : Operator → Bool
  | greaterThan | greaterOrEqual | lessThan | lessOrEqual => true
  | _ => false

/-- The comparison that a database makes for an operator on values. -/
def comparison : Operator → Comparison
  | notEquals => .notEqual
  | greaterThan => .greater
  | greaterOrEqual => .greaterOrEqual
  | lessThan => .less
  | lessOrEqual => .lessOrEqual
  | _ => .equal

theorem comparison_equals : equals.comparison = .equal := rfl

variable {f : Field} {o : Operator} {t : Text}

theorem isEquality_of_isOrdering (h : o.isOrdering = true) : o.isEquality = false := by
  cases o with
  | greaterThan | greaterOrEqual | lessThan | lessOrEqual => rfl
  | equals | notEquals | contains | startsWith | endsWith => cases h

theorem accepts_ofOrdering (h : o.isOrdering = true) (r : Ordering) :
    o.accepts (.ofOrdering r) = o.comparison.holds r := by
  cases o with
  | greaterThan | greaterOrEqual | lessThan | lessOrEqual => cases r <;> rfl
  | equals | notEquals | contains | startsWith | endsWith => cases h

theorem test_of_isOrdering (h : o.isOrdering = true) :
    Test.ofOperator f o t = (f.read t).map (.ordered o) := by
  cases o with
  | greaterThan | greaterOrEqual | lessThan | lessOrEqual => rfl
  | equals | notEquals | contains | startsWith | endsWith => cases h

theorem atoms_of_isOrdering (h : o.isOrdering = true) :
    Atom.ofOperator f o t =
      f.read t >>= fun v ↦ Atom.ofComparison o.comparison v >>= fun a ↦ pure [a] := by
  cases o with
  | greaterThan | greaterOrEqual | lessThan | lessOrEqual => rfl
  | equals | notEquals | contains | startsWith | endsWith => cases h

theorem test_of_isTextual (h : o.isTextual = true) :
    Test.ofOperator f o t = .ok (.finds o (Text.lower t)) := by
  cases o with
  | contains | startsWith | endsWith => rfl
  | equals | notEquals | greaterThan | greaterOrEqual | lessThan | lessOrEqual => cases h

theorem atoms_of_isTextual (h : o.isTextual = true) : Atom.ofOperator f o t = .ok [.like o t] := by
  cases o with
  | contains | startsWith | endsWith => rfl
  | equals | notEquals | greaterThan | greaterOrEqual | lessThan | lessOrEqual => cases h

end Operator

end RecordQuery
