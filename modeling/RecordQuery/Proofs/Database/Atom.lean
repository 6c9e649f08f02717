import RecordQuery.Proofs.Database.Cell
import RecordQuery.Proofs.Database.Pattern
import RecordQuery.Proofs.Operator
import RecordQuery.Proofs.Value.Plain

namespace RecordQuery

/-!
# Tests and atoms

A test of a value and the atoms for the same operator and literal agree on
everything that a column can hold: where the test is passed one of the
atoms is true, and nowhere else.
-/

open Outcome Text

/-! ## Values in columns -/

/-- What a column of a type holds, besides missing values. -/
inductive Value.IsStorable : FieldType → Value → Prop
  | text {t : Text} (h : t.IsBasic) : IsStorable .text (text t)
  | int {n : Int} (h : fitsInt64 n = true) : IsStorable .int (int n)
  | decimal (d : Decimal) : IsStorable .decimal (decimal d)
  | bool (b : Bool) : IsStorable .bool (bool b)
  | date (d : Date) : IsStorable .date (date d)
  | moment {t : Moment} (h : t.offset = none) : IsStorable .datetime (moment t)

namespace Value

variable {type : FieldType} {v : Value}

def fitsColumn : FieldType → Value → Bool
  | .text, .text t => decide t.IsBasic
  | .int, .int n => fitsInt64 n
  | .decimal, .decimal _ | .bool, .bool _ | .date, .date _ => true
  | .datetime, .moment t => t.offset.isNone
  | _, _ => false

theorem fitsColumn_eq_true_iff : fitsColumn type v = true ↔ IsStorable type v := by
  constructor
  · intro h
    unfold fitsColumn at h
    split at h
    · exact .text (of_decide_eq_true h)
    · exact .int h
    · exact .decimal _
    · exact .bool _
    · exact .date _
    · exact .moment (Option.isNone_iff_eq_none.mp h)
    · cases h
  · intro h
    cases h with
    | text h => exact decide_eq_true h
    | int h => exact h
    | decimal d => rfl
    | bool b => rfl
    | date d => rfl
    | moment h => exact Option.isNone_iff_eq_none.mpr h

instance : Decidable (IsStorable type v) := decidable_of_iff _ fitsColumn_eq_true_iff

end Value

namespace Value.IsStorable

variable {type : FieldType} {v : Value}

theorem isNull_eq (h : IsStorable type v) : v.isNull = false := by cases h <;> rfl

theorem isOf (h : IsStorable type v) (htype : type ≠ .decimal) : IsOf type v := by
  cases h with
  | text h => exact .text _
  | int h => exact .int _
  | decimal d => exact absurd rfl htype
  | bool b => exact .bool b
  | date d => exact .date d
  | moment h => exact .moment (by rw [Moment.offsetMicros, h])

/-- A text, a whole number or a date is searched in the text to which its cell is cast. -/
theorem exists_plain_eq (h : IsStorable type v) (htype : type ∈ [FieldType.text, .int, .date]) :
    ∃ t, v.plain = .ok t ∧ (Cell.ofValue v).toText? = some t ∧ t.IsBasic := by
  cases h with
  | text h => exact ⟨_, rfl, rfl, h⟩
  | @int n h => exact ⟨_, plain_int (natAbs_lt_intBound h), rfl, (isPlain_ofInt n).isBasic⟩
  | date d => exact ⟨_, rfl, rfl, d.isPlain_text.isBasic⟩
  | decimal d => exact absurd htype (by decide)
  | bool b => exact absurd htype (by decide)
  | moment h => exact absurd htype (by decide)

end Value.IsStorable

/-! ## Literals -/

/-- A literal with which an operator means the same to records in memory and to a database. -/
def Operator.IsPortable (o : Operator) (type : FieldType) (t : Text) : Prop :=
  t.IsBasic ∧
    match type with
    | .text | .int | .date => True
    | .bool => o = .equals ∨ o = .notEquals
    | .datetime => o.isTextual = false ∧ ∀ m, Literal.moment? t = some m → m.offsetMicros = 0
    | _ => False

instance {o : Operator} {type : FieldType} {t : Text} : Decidable (o.IsPortable type t) :=
  match type with
  | .text | .int | .date => inferInstanceAs (Decidable (t.IsBasic ∧ True))
  | .bool => inferInstanceAs (Decidable (t.IsBasic ∧ (o = .equals ∨ o = .notEquals)))
  | .datetime => inferInstanceAs (Decidable
      (t.IsBasic ∧ o.isTextual = false ∧ ∀ m ∈ Literal.moment? t, m.offsetMicros = 0))
  | .float | .decimal | .uuid | .bytes | .any | .other =>
    inferInstanceAs (Decidable (t.IsBasic ∧ False))

/-- An operator compares a literal with the cells of a column as it does with values in memory. -/
def Operator.ComparesAlike (o : Operator) (type : FieldType) (t : Text) : Prop :=
  match type with
  | .text | .int | .date => True
  | .bool => o = .equals ∨ o = .notEquals
  | .datetime => o.isTextual = false ∧ ∀ m, Literal.moment? t = some m → m.offsetMicros = 0
  | _ => False

instance {o : Operator} {type : FieldType} {t : Text} : Decidable (o.ComparesAlike type t) :=
  match type with
  | .text | .int | .date => inferInstanceAs (Decidable True)
  | .bool => inferInstanceAs (Decidable (o = .equals ∨ o = .notEquals))
  | .datetime => inferInstanceAs (Decidable
      (o.isTextual = false ∧ ∀ m ∈ Literal.moment? t, m.offsetMicros = 0))
  | .float | .decimal | .uuid | .bytes | .any | .other => inferInstanceAs (Decidable False)

theorem Operator.IsPortable.comparesAlike {o : Operator} {type : FieldType} {t : Text}
    (h : o.IsPortable type t) : o.ComparesAlike type t := h.2

namespace Operator.ComparesAlike

variable {f : Field} {o : Operator} {t : Text}

theorem ne_decimal {type : FieldType} (h : o.ComparesAlike type t) : type ≠ .decimal := by
  rintro rfl
  exact h

theorem ne_bool {type : FieldType} (h : o.ComparesAlike type t) (hequals : o ≠ .equals)
    (hnotEquals : o ≠ .notEquals) : type ≠ .bool := by
  rintro rfl
  exact h.elim hequals hnotEquals

/-- A textual operator looks into texts, whole numbers and dates. -/
theorem mem_of_isTextual {type : FieldType} (h : o.ComparesAlike type t)
    (ho : o.isTextual = true) : type ∈ [FieldType.text, .int, .date] := by
  cases type with
  | text | int | date => decide
  | bool => rcases h with rfl | rfl <;> cases ho
  | datetime =>
      rw [h.1] at ho
      cases ho
  | float | decimal | uuid | bytes | any | other => exact h.elim

theorem isOf_of_read (h : o.ComparesAlike f.type t) {v : Value} (hv : f.read t = .ok v) :
    Value.IsOf f.type v := by
  have hread := Field.read_eq_ok_iff.mp hv
  cases htype : f.type with
  | text =>
      rw [htype] at hread
      cases hread
      exact .text t
  | int =>
      rw [htype] at hread
      obtain ⟨n, -, rfl⟩ := map_eq_ok_iff.mp hread
      exact .int n
  | bool =>
      rw [htype] at hread
      obtain ⟨b, -, rfl⟩ := map_eq_ok_iff.mp hread
      exact .bool b
  | date =>
      rw [htype] at hread
      obtain ⟨d, -, rfl⟩ := map_eq_ok_iff.mp hread
      exact .date d
  | datetime =>
      rw [htype] at h hread
      obtain ⟨m, hm, rfl⟩ := map_eq_ok_iff.mp hread
      exact .moment (h.2 m (Literal.ofOption_eq_ok_iff.mp hm))
  | float | decimal | uuid | bytes | any | other =>
      rw [htype] at h
      exact h.elim

end Operator.ComparesAlike

/-! ## Comparisons -/

theorem Text.order_swap (s t : Text) : order t s = (order s t).swap := by
  rw [order_eq_compare, order_eq_compare, ← Std.OrientedOrd.eq_swap]

/-! ## Equality -/

/-- A test that agrees with an atom which affirms or denies it. -/
structure Test.Matches (type : FieldType) (affirmed : Bool) (test : Test) (a : Atom) : Prop where
  test_null : test.holds .null = .ok false
  atom_null : a.holds .null = none
  agree : ∀ v, v.IsStorable type →
    ∃ b, test.holds v = .ok b ∧ a.holds (Cell.ofValue v) = some (b == affirmed)

section

variable {affirmed : Bool}

theorem Test.matches_textIs {t : Text} :
    Matches .text affirmed (.textIs (lower t)) (.isText affirmed (lower t)) := by
  refine ⟨rfl, rfl, fun v hv ↦ ?_⟩
  cases hv with
  | @text s hs =>
      refine ⟨decide (lower s = lower t), rfl, ?_⟩
      have hatom : (Atom.isText affirmed (lower t)).holds (.text s) =
          some ((Comparison.ofEquality affirmed).holds (order (basicLower s) (lower t))) := rfl
      rw [Cell.ofValue, hatom, Comparison.holds_ofEquality, lower_eq_basicLower hs]
      simp only [order_eq_eq_iff]

theorem Test.matches_equals {type : FieldType} {w : Value} (hw : w.IsOf type)
    (htype : type ≠ .decimal) {a : Atom}
    (ha : a.holds = fun c ↦ (Comparison.ofEquality affirmed).compare c (Cell.ofValue w)) :
    Matches type affirmed (.equals w) a := by
  refine ⟨rfl, by rw [ha]; rfl, fun v hv ↦ ?_⟩
  have hv := hv.isOf htype
  refine ⟨Value.equals v w, ?_, ?_⟩
  · cases hv <;> rfl
  · have hequals : decide ((Cell.ofValue v).order (Cell.ofValue w) = .eq) = Value.equals v w := by
      rw [Bool.eq_iff_iff, decide_eq_true_iff, Value.equals_iff hv hw]
    rw [ha]
    dsimp only
    rw [Comparison.compare_eq hv.ofValue_ne_null hw.ofValue_ne_null,
      Comparison.holds_ofEquality, hequals]

theorem Test.matches_within {start finish : Moment} (hstart : start.offsetMicros = 0)
    (hfinish : finish.offsetMicros = 0) :
    Matches .datetime affirmed (.within start finish) (.within affirmed start finish) := by
  refine ⟨rfl, by cases affirmed <;> rfl, fun v hv ↦ ?_⟩
  cases hv with
  | @moment m hm =>
      have hv : Value.IsOf .datetime (.moment m) := .moment (by rw [Moment.offsetMicros, hm])
      have hlower : Value.compareTo (.moment start) (.moment m) =
          .ok (.ofOrdering (order (Cell.momentText start) (Cell.momentText m))) :=
        Value.compareTo_eq (.moment hstart) hv
      have hupper : Value.compareTo (.moment m) (.moment finish) =
          .ok (.ofOrdering (order (Cell.momentText m) (Cell.momentText finish))) :=
        Value.compareTo_eq hv (.moment hfinish)
      have hcompare : ∀ (c : Comparison) (t : Moment),
          c.compare (Cell.ofValue (.moment m)) (Cell.ofValue (.moment t)) =
            some (c.holds (order (Cell.momentText m) (Cell.momentText t))) := fun _ _ ↦ rfl
      simp only [Test.holds, hlower, hupper, Atom.holds, hcompare,
        order_swap (Cell.momentText start)]
      cases order (Cell.momentText start) (Cell.momentText m) <;>
        cases order (Cell.momentText m) (Cell.momentText finish) <;>
          cases affirmed <;> exact ⟨_, rfl, rfl⟩

end

section

variable {f : Field} {t : Text}

theorem Test.alike_ofEquality {o : Operator} (h : o.ComparesAlike f.type t) (affirmed : Bool) :
    Alike (Matches f.type affirmed) (ofEquality f t) (Atom.ofEquality f affirmed t) := by
  cases f.equality t with
  | folded htype htest hatom =>
      rw [htest, hatom, htype]
      exact .ok matches_textIs
  | day htype _ _ htest hatom =>
      rw [htest, hatom, htype]
      exact .ok (matches_within rfl rfl)
  | lastDay _ _ htest hatom =>
      rw [htest, hatom]
      exact .error _
  | read _ _ htest hatom =>
      rw [htest, hatom]
      apply Alike.of_same
      intro w hw
      exact matches_equals (h.isOf_of_read hw) h.ne_decimal
        (funext fun c ↦ Atom.holds_ofValue affirmed w c)

end

theorem Atom.ofComparison_eq {type : FieldType} {w : Value} (hw : w.IsOf type)
    (htype : type ≠ .bool) (c : Comparison) : ofComparison c w = .ok (.compare c w) := by
  cases hw with
  | bool b => exact absurd rfl htype
  | text | int | date | moment => rfl

/-! ## Operators -/

/-- A test is passed by what a column can hold where one of some atoms is true of it. -/
def Test.Agrees (type : FieldType) (test : Test) (atoms : List Atom) : Prop :=
  ∀ v, v = .null ∨ v.IsStorable type →
    ∃ b, test.holds v = .ok b ∧
      (Truth.any (atoms.map fun a ↦ a.holds (Cell.ofValue v)) = some true ↔ b = true)

namespace Test

variable {type : FieldType}

theorem Matches.agrees {test : Test} {a : Atom} (h : Matches type true test a) :
    Agrees type test [a] := by
  rintro v (rfl | hv)
  · refine ⟨false, h.test_null, ?_⟩
    simp [Truth.any_eq_true_iff, Cell.ofValue, h.atom_null]
  · obtain ⟨b, htest, hatom⟩ := h.agree v hv
    exact ⟨b, htest, by simp [Truth.any_eq_true_iff, hatom]⟩

theorem Matches.agrees_not {test : Test} {a : Atom} (h : Matches type false test a)
    (htype : type ≠ .decimal) : Agrees type (.not test) [.isNull, a] := by
  rintro v (rfl | hv)
  · refine ⟨true, by rw [holds, h.test_null]; rfl, ?_⟩
    simp [Truth.any_eq_true_iff, Atom.holds, Cell.ofValue]
  · obtain ⟨b, htest, hatom⟩ := h.agree v hv
    have hnull : Atom.isNull.holds (Cell.ofValue v) = some false := by
      simp [Atom.holds, (hv.isOf htype).ofValue_ne_null]
    refine ⟨!b, by rw [holds, htest]; rfl, ?_⟩
    simp [Truth.any_eq_true_iff, hnull, hatom]

theorem agrees_ordered {o : Operator} {c : Comparison} {w : Value} (hw : w.IsOf type)
    (htype : type ≠ .decimal) (hoc : ∀ r, o.accepts (.ofOrdering r) = c.holds r) :
    Agrees type (.ordered o w) [.compare c w] := by
  rintro v (rfl | hv)
  · refine ⟨false, rfl, ?_⟩
    simp [Truth.any_eq_true_iff, Atom.holds, Cell.ofValue, Comparison.compare]
  · have hv := hv.isOf htype
    refine ⟨c.holds ((Cell.ofValue v).order (Cell.ofValue w)), ?_, ?_⟩
    · have htest : (ordered o w).holds v = (Value.compareTo v w).map o.accepts := by
        cases hv <;> rfl
      rw [htest, Value.compareTo_eq hv hw, ← hoc]
      rfl
    · simp [Truth.any_eq_true_iff, Atom.holds,
        Comparison.compare_eq hv.ofValue_ne_null hw.ofValue_ne_null]

theorem agrees_finds {t : Text} (ht : t.IsBasic) (htype : type ∈ [FieldType.text, .int, .date])
    (o : Operator) : Agrees type (.finds o (lower t)) [.like o t] := by
  rintro v (rfl | hv)
  · exact ⟨false, rfl, by simp [Truth.any_eq_true_iff, Atom.holds, Cell.ofValue, Cell.toText?]⟩
  · obtain ⟨u, hplain, htext, hbasic⟩ := hv.exists_plain_eq htype
    refine ⟨o.finds (lower t) (lower u), ?_, ?_⟩
    · rw [holds_finds hv.isNull_eq, Value.searchText, hplain]
      rfl
    · simp [Truth.any_eq_true_iff, Atom.holds, htext, Pattern.isLike_pattern ht hbasic,
        lower_eq_basicLower ht, lower_eq_basicLower hbasic]

/-- A test and the atoms that are made for the same operator and literal agree, or cannot be
made for the same cause. -/
theorem alike_ofOperator {f : Field} {o : Operator} {t : Text} (h : o.ComparesAlike f.type t)
    (hneedle : o.isTextual = true → t.IsBasic) :
    Alike (Agrees f.type) (ofOperator f o t) (Atom.ofOperator f o t) := by
  have hordered (ho : o.isOrdering = true) :
      Alike (Agrees f.type) (ofOperator f o t) (Atom.ofOperator f o t) := by
    rw [Operator.test_of_isOrdering ho, Operator.atoms_of_isOrdering ho]
    cases hread : f.read t with
    | error e => exact .error e
    | ok w =>
        have hw := h.isOf_of_read hread
        have hbool : f.type ≠ .bool :=
          h.ne_bool (by rintro rfl; cases ho) (by rintro rfl; cases ho)
        change Alike _ (.ok (ordered o w)) (Atom.ofComparison o.comparison w >>= fun a ↦ pure [a])
        rw [Atom.ofComparison_eq hw hbool o.comparison]
        exact .ok (agrees_ordered hw h.ne_decimal (Operator.accepts_ofOrdering ho))
  cases o with
  | equals => exact (alike_ofEquality h true).map_right fun _ _ hmatches ↦ hmatches.agrees
  | notEquals =>
      exact (alike_ofEquality h false).map fun _ _ hmatches ↦ hmatches.agrees_not h.ne_decimal
  | contains | startsWith | endsWith =>
      exact .ok (agrees_finds (hneedle rfl) (h.mem_of_isTextual rfl) _)
  | greaterThan | greaterOrEqual | lessThan | lessOrEqual => exact hordered rfl

end Test

end RecordQuery
