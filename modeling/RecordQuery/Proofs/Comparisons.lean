import RecordQuery.Proofs.Database.WallClock

namespace RecordQuery

/-!
# Comparisons

Of less, equal and greater exactly one holds between a value and a literal
of its type, and the other comparisons follow from these. A day is no
literal of this kind: an equality takes the whole of it, an ordering its
first moment.
-/

open Outcome

/-! ## Equality and order -/

namespace Value

theorem numbersEqual_iff (v w : Value) :
    numbersEqual v w = true ↔ relateNumbers v w = .ok .equal := by
  unfold numbersEqual relateNumbers
  split
  · next x y hx hy =>
      cases hrelation : x.relate y with
      | unordered => cases v.isDecimal || w.isDecimal <;> simp
      | less | equal | greater => simp
  · exact iff_of_false nofun nofun

/-- Values of one type other than moments are equal where a comparison finds them so. -/
theorem equals_iff_compareTo {type : FieldType} {v w : Value} (hv : HasType type v)
    (hw : HasType type w) (htype : type ≠ .datetime) :
    equals v w = true ↔ compareTo v w = .ok .equal := by
  have hequal : ∀ o : Ordering,
      (.ok (.ofOrdering o) : Outcome Relation) = .ok .equal ↔ o = .eq := by
    intro o
    cases o <;> simp [Relation.ofOrdering]
  cases hv with
  | text s =>
      cases hw with
      | text t =>
          change decide (s = t) = true ↔ Except.ok (Relation.ofOrdering (Text.order s t)) = _
          rw [hequal, Text.order_eq_eq_iff, decide_eq_true_iff]
  | int m =>
      cases hw with
      | int n =>
          change decide (m = n) = true ↔ Except.ok (Relation.ofOrdering (compare m n)) = _
          rw [hequal, compare_eq_iff_eq, decide_eq_true_iff]
  | @float x hx => cases hw with | @float y hy => exact numbersEqual_iff (float x) (float y)
  | decimal d => cases hw with | decimal e => exact numbersEqual_iff (decimal d) (decimal e)
  | bool a => cases hw with | bool b => exact numbersEqual_iff (bool a) (bool b)
  | date d =>
      cases hw with
      | date e =>
          change decide (d = e) = true ↔ Except.ok (Relation.ofOrdering (Date.order d e)) = _
          rw [hequal, Date.order_eq_eq_iff, decide_eq_true_iff]
  | moment | zoned => exact absurd rfl htype
  | uuid u =>
      cases hw with
      | uuid x =>
          change decide (u = x) = true ↔ Except.ok (Relation.ofOrdering (Uuid.order u x)) = _
          rw [hequal, Uuid.order, compare_eq_iff_eq, decide_eq_true_iff]
          exact ⟨congrArg Uuid.number, fun h ↦ by cases u; cases x; cases h; rfl⟩

theorem HasType.keepOrder_of_ne (hv : HasType type v) (htype : type ≠ .datetime) :
    keepOrder v w = true := by
  cases hv with
  | moment | zoned => exact absurd rfl htype
  | _ => rfl

theorem equals_eq_linearOrder {type : FieldType} {v w : Value} (hv : HasType type v)
    (hw : HasType type w) (htype : type ≠ .datetime) :
    equals v w = decide (linearOrder v w = .eq) := by
  rw [Bool.eq_iff_iff, equals_iff_compareTo hv hw htype,
    compareTo_eq_linearOrder hv hw (hv.keepOrder_of_ne htype), decide_eq_true_iff]
  cases linearOrder v w <;> simp [Relation.ofOrdering]

end Value

/-! ## Literals and values of a field -/

namespace Field

variable {f : Field} {t : Text} {v w : Value}

/-- A literal for a field that can hold some value is read as a value of the same type. -/
theorem hasType_of_read_of_hasType (hw : f.read t = .ok w) (hv : v.HasType f.type) :
    w.HasType f.type := by
  rcases hasType_of_read hw with hw | rfl
  · exact hw
  · have hread := read_eq_ok_iff.mp hw
    generalize f.type = type at hv hread
    cases hv with
    | text s => exact .text t
    | int | decimal | bool | date | moment | zoned | uuid | float =>
        obtain ⟨_, -, hread⟩ := map_eq_ok_iff.mp hread
        cases hread

/-- No literal is a moment in a zone. -/
theorem keepOrder_of_read (hw : f.read t = .ok w) (hv : v.HasType f.type) :
    Value.keepOrder v w = true := by
  by_cases htype : f.type = .datetime
  · obtain ⟨m, -, rfl⟩ := (read_moment_iff htype).mp hw
    rw [htype] at hv
    cases hv <;> rfl
  · exact hv.keepOrder_of_ne htype

theorem compareTo_of_read (hw : f.read t = .ok w) (hv : v.HasType f.type) :
    Value.compareTo v w = .ok (.ofOrdering (Value.linearOrder v w)) :=
  Value.compareTo_eq_linearOrder hv (hasType_of_read_of_hasType hw hv) (keepOrder_of_read hw hv)

theorem equals_of_read (hw : f.read t = .ok w) (hv : v.HasType f.type) :
    Value.equals v w = (!v.isAmbiguous && decide (Value.linearOrder v w = .eq)) := by
  by_cases htype : f.type = .datetime
  · obtain ⟨m, -, rfl⟩ := (read_moment_iff htype).mp hw
    obtain ⟨s, hs⟩ := (htype ▸ hv).exists_moment?_eq
    have hequal : decide (Moment.order s m = .eq) = decide (s.instant = m.instant) :=
      decide_eq_decide.mpr compare_eq_iff_eq
    rw [Value.equals_of_moment? hs, Value.linearOrder_of_moment? hs rfl, hequal]
  · have hclear : v.isAmbiguous = false := by
      cases v with
      | zoned x =>
          generalize f.type = type at hv htype
          cases hv
          exact absurd rfl htype
      | _ => rfl
    rw [Value.equals_eq_linearOrder hv (hasType_of_read_of_hasType hw hv) htype, hclear]
    rfl

end Field

/-! ## One test -/

namespace Operator

/-- Whether an operator accepts a value by how it stands to a literal. What is ambiguous is equal
to nothing. -/
def judges (o : Operator) (ambiguous : Bool) (r : Ordering) : Bool :=
  if ambiguous && o.isEquality then decide (o = .notEquals) else o.comparison.holds r

theorem judges_of_isOrdering {o : Operator} (h : o.isOrdering = true) (ambiguous : Bool)
    (r : Ordering) : o.judges ambiguous r = o.comparison.holds r := by
  rw [judges, isEquality_of_isOrdering h, Bool.and_false]
  rfl

end Operator

namespace Test

section

variable {f : Field} {t : Text} {v w : Value}

theorem holds_equals_of_hasType {type : FieldType} (hv : v.HasType type) (w : Value) :
    (equals w).holds v = .ok (Value.equals v w) := by
  cases hv <;> rfl

theorem holds_ordered_of_read (hw : f.read t = .ok w) (hv : v.HasType f.type) {o : Operator}
    (ho : o.isOrdering = true) :
    (ordered o w).holds v = .ok (o.comparison.holds (Value.linearOrder v w)) := by
  rw [holds_ordered hv.isNull_eq, Field.compareTo_of_read hw hv, ← Operator.accepts_ofOrdering ho]
  rfl

end

/-- An equality with a literal that is not a text or a day is one with the value that is read. -/
theorem ofEquality_of_read {f : Field} {t : Text} {w : Value} (htext : f.type ≠ .text)
    (hday : f.type = .datetime → Literal.dateOnly? t = none) (hw : f.read t = .ok w) :
    ofEquality f t = .ok (.equals w) := by
  cases f.equality t with
  | folded htype _ _ => exact absurd htype htext
  | day htype hd _ _ _ | lastDay htype hd _ _ => cases (hday htype).symm.trans hd
  | read _ _ htest _ =>
      rw [htest, hw]
      rfl

/-- A literal that is not a text or a day is compared in the linear order of values. -/
theorem exists_ofOperator_eq {f : Field} {t : Text} {w : Value} (htext : f.type ≠ .text)
    (hday : f.type = .datetime → Literal.dateOnly? t = none) (hw : f.read t = .ok w)
    {o : Operator} (ho : o.isTextual = false) : ∃ test, ofOperator f o t = .ok test ∧
      test.holds .null = .ok (decide (o = .notEquals)) ∧ ∀ v : Value, v.HasType f.type →
        test.holds v = .ok (o.judges v.isAmbiguous (Value.linearOrder v w)) := by
  have hequality := ofEquality_of_read htext hday hw
  have hequals : ∀ v : Value, v.HasType f.type → (equals w).holds v =
      .ok (!v.isAmbiguous && decide (Value.linearOrder v w = .eq)) := fun v hv ↦ by
    rw [holds_equals_of_hasType hv, Field.equals_of_read hw hv]
  have hordering (ho : o.isOrdering = true) : ∃ test, ofOperator f o t = .ok test ∧
      test.holds .null = .ok false ∧ ∀ v : Value, v.HasType f.type →
        test.holds v = .ok (o.judges v.isAmbiguous (Value.linearOrder v w)) := by
    refine ⟨.ordered o w, ?_, rfl, fun v hv ↦ ?_⟩
    · rw [Operator.test_of_isOrdering ho, hw]
      rfl
    · rw [holds_ordered_of_read hw hv ho, Operator.judges_of_isOrdering ho]
  cases o with
  | equals =>
      refine ⟨_, hequality, rfl, fun v hv ↦ ?_⟩
      rw [hequals v hv]
      cases v.isAmbiguous <;> rfl
  | notEquals =>
      refine ⟨.not (.equals w), by rw [ofOperator, hequality]; rfl, rfl, fun v hv ↦ ?_⟩
      rw [holds, hequals v hv]
      cases v.isAmbiguous <;> cases Value.linearOrder v w <;> rfl
  | greaterThan | greaterOrEqual | lessThan | lessOrEqual => exact hordering rfl
  | contains | startsWith | endsWith => cases ho

end Test

/-! ## Days and their first moments -/

/-- What is equal to a literal for a moment, or lies within a day, is a moment. -/
theorem Test.exists_moment?_of_holds {f : Field} {t : Text} {test : Test} {v : Value}
    (htype : f.type = .datetime) (h : ofEquality f t = .ok test) (hv : test.holds v = .ok true) :
    ∃ w, v.moment? = some w := by
  cases f.equality t with
  | folded htext _ _ => cases htext.symm.trans htype
  | day _ _ _ htest _ =>
      obtain rfl := Except.ok.inj (htest.symm.trans h)
      cases v with
      | moment w => exact ⟨w, rfl⟩
      | zoned w => exact ⟨w.moment, rfl⟩
      | _ => cases hv
  | lastDay _ _ htest _ => cases htest.symm.trans h
  | read _ _ htest _ =>
      obtain ⟨u, hu, rfl⟩ := map_eq_ok_iff.mp (htest.symm.trans h)
      obtain ⟨m, -, rfl⟩ := (Field.read_moment_iff htype).mp hu
      cases v with
      | moment w => exact ⟨w, rfl⟩
      | zoned w => exact ⟨w.moment, rfl⟩
      | _ => cases hv

/-- The moment that a literal stands for is the first of those that are equal to the literal, and
if the literal is no day it is the only one. -/
theorem Operator.instant_le_of_acceptsAt {t : Text} {m w : Moment}
    (hm : Literal.moment? t = some m) (h : equals.acceptsAt Moment.instant t (.moment w) = true) :
    m.instant ≤ w.instant ∧ (Literal.dateOnly? t = none → w.instant = m.instant) := by
  cases hd : Literal.dateOnly? t with
  | none =>
      rw [acceptsAt_moment (fun _ ↦ hd) hm, comparison_equals, Comparison.equal_holds,
        decide_eq_true_iff] at h
      exact ⟨h.ge, fun _ ↦ h⟩
  | some d =>
      obtain rfl : Moment.midnightOf d = m := by
        rw [Literal.moment?, hd] at hm
        exact Option.some.inj hm
      rw [acceptsAt_day hd, decide_eq_true_iff] at h
      refine ⟨?_, fun hnone ↦ absurd hnone (Option.some_ne_none d)⟩
      rw [Moment.instant_midnightOf, Moment.wallMicros_midnightOf]
      unfold microsPerDay at h ⊢
      omega

/-- Of less, equal and greater one is what an order comes to. -/
theorem Operator.existsUnique_holds (r : Ordering) :
    ∃! o : Operator, o ∈ [lessThan, equals, greaterThan] ∧ o.comparison.holds r = true := by
  have hthree : ∀ {o : Operator}, o ∈ [lessThan, equals, greaterThan] →
      o = lessThan ∨ o = equals ∨ o = greaterThan := by simp
  cases r with
  | lt =>
      refine ⟨lessThan, ⟨by decide, rfl⟩, ?_⟩
      rintro o ⟨ho, hholds⟩
      rcases hthree ho with rfl | rfl | rfl
      · rfl
      · cases hholds
      · cases hholds
  | eq =>
      refine ⟨equals, ⟨by decide, rfl⟩, ?_⟩
      rintro o ⟨ho, hholds⟩
      rcases hthree ho with rfl | rfl | rfl
      · cases hholds
      · rfl
      · cases hholds
  | gt =>
      refine ⟨greaterThan, ⟨by decide, rfl⟩, ?_⟩
      rintro o ⟨ho, hholds⟩
      rcases hthree ho with rfl | rfl | rfl
      · cases hholds
      · cases hholds
      · rfl

/-! ## Filters with one value -/

theorem Catalog.resolve?_createdAt : customers.schema.resolve? "createdAt".toList =
    some (field "created_at" .datetime) := by decide

theorem Alternative.holds_singleton (b : Branch) (r : Record) : holds [b] r = b.holds r := by
  rw [holds, List.anyM_cons]
  cases b.holds r with
  | error e => rfl
  | ok accepted => cases accepted <;> rfl

theorem Alternative.holds_ordered_moment {name : Text} {r : Record} {w : Moment}
    (hw : (r.value name).moment? = some w) (o : Operator) (m : Moment) :
    holds [⟨name, .ordered o (.moment m)⟩] r =
      .ok (o.accepts (.ofOrdering (compare w.instant m.instant))) := by
  have hcompare : Value.compareTo (r.value name) (.moment m) = .ok (.ofOrdering (w.order m)) :=
    Value.compareTo_of_moment? hw rfl (Value.keepOrder_moment hw m)
  rw [holds_singleton, Branch.holds, Test.holds_ordered (Value.isNull_of_moment? hw), hcompare,
    Moment.order]
  rfl

namespace Filter

variable {schema : Schema} {name t : Text} {f : Field}

theorem alternative_singleton (hfield : schema.resolve? name = some f) (o : Operator) :
    alternative schema ⟨name, [t], o⟩ =
      (Test.ofOperator f o t).map fun test ↦ [⟨f.name, test⟩] := by
  rw [alternative_eq hfield, List.mapM_cons, List.mapM_nil]
  cases Test.ofOperator f o t <;> rfl

section

variable {m : Moment} {o : Operator}

theorem alternative_equals_day (hfield : schema.resolve? name = some f) (htype : f.type = .datetime)
    {d next : Date} (hd : Literal.dateOnly? t = some d) (hnext : d.next? = some next) :
    alternative schema ⟨name, [t], .equals⟩ =
      .ok [⟨f.name, .within (Moment.midnightOf d) (Moment.midnightOf next)⟩] := by
  have htest : Test.ofEquality f t =
      .ok (.within (Moment.midnightOf d) (Moment.midnightOf next)) := by
    simp [Test.ofEquality, htype, hd, hnext]
  rw [alternative_singleton hfield, Test.ofOperator, htest]
  rfl

theorem alternative_equals_moment (hfield : schema.resolve? name = some f)
    (htype : f.type = .datetime) (hd : Literal.dateOnly? t = none)
    (hm : Literal.moment? t = some m) :
    alternative schema ⟨name, [t], .equals⟩ = .ok [⟨f.name, .equals (.moment m)⟩] := by
  have hread : f.read t = .ok (.moment m) := (Field.read_moment_iff htype).mpr ⟨m, hm, rfl⟩
  have htest : Test.ofEquality f t = .ok (.equals (.moment m)) := by
    simp [Test.ofEquality, htype, hd, hread, Except.map]
  rw [alternative_singleton hfield, Test.ofOperator, htest]
  rfl

theorem alternative_ordering_moment (hfield : schema.resolve? name = some f)
    (htype : f.type = .datetime) (ho : o.isOrdering = true) (hm : Literal.moment? t = some m) :
    alternative schema ⟨name, [t], o⟩ = .ok [⟨f.name, .ordered o (.moment m)⟩] := by
  rw [alternative_singleton hfield, Operator.test_of_isOrdering ho,
    (Field.read_moment_iff htype).mpr ⟨m, hm, rfl⟩]
  rfl

end

/-- Comparisons follow the linear order of values. Between a value of a record and a literal of its
type one of less, equal and greater holds, and the others are put together from these, unless the
value is a moment that the clocks of its zone show twice or never; such a moment is equal to
nothing. To a missing value everything is unequal. -/
theorem comparisons_coherent (hfield : schema.resolve? name = some f) (htext : f.type ≠ .text)
    (hday : f.type = .datetime → Literal.dateOnly? t = none) {w : Value} (hw : f.read t = .ok w) :
    ∃ a : Operator → Alternative,
      (∀ o, o.isTextual = false → alternative schema ⟨name, [t], o⟩ = .ok (a o)) ∧
      ∀ r : Record,
        ((r.value f.name).HasType f.type → ∃ accepts : Operator → Bool,
          (∀ o, o.isTextual = false → (a o).holds r = .ok (accepts o)) ∧
          (∀ o, accepts o =
            o.judges (r.value f.name).isAmbiguous (Value.linearOrder (r.value f.name) w)) ∧
          accepts .lessOrEqual = !accepts .greaterThan ∧
          accepts .greaterOrEqual = !accepts .lessThan ∧
          accepts .notEquals = !accepts .equals ∧
          ((r.value f.name).isAmbiguous = false →
            (∃! o, o ∈ [.lessThan, .equals, .greaterThan] ∧ accepts o = true) ∧
            (accepts .greaterOrEqual && accepts .lessOrEqual) = accepts .equals) ∧
          ((r.value f.name).isAmbiguous = true → accepts .equals = false ∧
            (accepts .lessThan && accepts .greaterThan) = false)) ∧
        (r.value f.name = .null → ∀ o, o.isTextual = false →
          (a o).holds r = .ok (decide (o = .notEquals))) := by
  have htests : ∀ o : Operator, ∃ test, o.isTextual = false → Test.ofOperator f o t = .ok test ∧
      test.holds .null = .ok (decide (o = .notEquals)) ∧ ∀ v : Value, v.HasType f.type →
        test.holds v = .ok (o.judges v.isAmbiguous (Value.linearOrder v w)) := by
    intro o
    cases ho : o.isTextual with
    | true => exact ⟨.equals w, nofun⟩
    | false =>
        obtain ⟨test, htest⟩ := Test.exists_ofOperator_eq htext hday hw ho
        exact ⟨test, fun _ ↦ htest⟩
  choose test htest using htests
  refine ⟨fun o ↦ [⟨f.name, test o⟩], fun o ho ↦ ?_, fun r ↦ ⟨fun hr ↦ ?_, fun hr o ho ↦ ?_⟩⟩
  · rw [alternative_singleton hfield, (htest o ho).1]
    rfl
  · refine ⟨fun o ↦ o.judges (r.value f.name).isAmbiguous
      (Value.linearOrder (r.value f.name) w), fun o ho ↦ ?_, fun _ ↦ rfl, ?_⟩
    · rw [Alternative.holds_singleton]
      exact (htest o ho).2.2 _ hr
    · generalize Value.linearOrder (r.value f.name) w = order
      cases (r.value f.name).isAmbiguous with
      | true => cases order <;> decide
      | false =>
          have hjudges : ∀ o : Operator, o.judges false order = o.comparison.holds order :=
            fun _ ↦ rfl
          simp only [hjudges]
          have hone := Operator.existsUnique_holds order
          cases order <;> exact ⟨rfl, rfl, rfl, fun _ ↦ ⟨hone, rfl⟩, nofun⟩
  · rw [Alternative.holds_singleton, Branch.holds, hr]
    exact (htest o ho).2.1

/-- Ten o'clock five hours east of UTC is the moment of five o'clock without an offset. -/
theorem comparisons_coherent_east :
    let t := "2024-02-29T10:00:00+05:00".toList
    let at_ (hour : Nat) (h : IsClock hour 0 0 0) : Record :=
      [("created_at".toList, .moment ⟨⟨2024, 2, 29, by decide⟩, ⟨hour, 0, 0, 0, h⟩, none⟩)]
    ∃ a : Operator → Alternative,
      (∀ o, o.isTextual = false →
        alternative Catalog.customers.schema ⟨"createdAt".toList, [t], o⟩ = .ok (a o)) ∧
      (∀ r ∈ [at_ 4 (by decide), at_ 5 (by decide), at_ 6 (by decide)],
        ∃ accepts : Operator → Bool,
          (∀ o, o.isTextual = false → (a o).holds r = .ok (accepts o)) ∧
          (∃! o, o ∈ [.lessThan, .equals, .greaterThan] ∧ accepts o = true) ∧
          accepts .lessOrEqual = !accepts .greaterThan) ∧
      (a .equals).holds (at_ 5 (by decide)) = .ok true ∧ (a .notEquals).holds [] = .ok true := by
  intro t at_
  have hday : Literal.dateOnly? t = none := by decide
  have hmoment : Literal.moment? t = some ⟨⟨2024, 2, 29, by decide⟩, ⟨10, 0, 0, 0, by decide⟩,
      some ⟨18000000000, by decide⟩⟩ := by decide
  have hread := (Field.read_moment_iff (f := Catalog.field "created_at" .datetime) rfl).mpr
    ⟨_, hmoment, rfl⟩
  obtain ⟨a, ha, hholds⟩ :=
    comparisons_coherent Catalog.resolve?_createdAt (by decide) (fun _ ↦ hday) hread
  have htyped : ∀ r ∈ [at_ 4 (by decide), at_ 5 (by decide), at_ 6 (by decide)],
      (r.value "created_at".toList).HasType .datetime ∧
        (r.value "created_at".toList).isAmbiguous = false := by
    simp only [List.forall_mem_cons]
    exact ⟨⟨.moment _, rfl⟩, ⟨.moment _, rfl⟩, ⟨.moment _, rfl⟩, List.forall_mem_nil _⟩
  refine ⟨a, ha, fun r hr ↦ ?_, ?_, (hholds []).2 rfl .notEquals rfl⟩
  · obtain ⟨htype, hclear⟩ := htyped r hr
    obtain ⟨accepts, haccepts, -, hle, -, -, hone, -⟩ := (hholds r).1 htype
    exact ⟨accepts, haccepts, (hone hclear).1, hle⟩
  · have hequals := alternative_equals_moment Catalog.resolve?_createdAt rfl hday hmoment
    rw [← Except.ok.inj (hequals.symm.trans (ha .equals rfl))]
    rfl

/-- Half past two, which the clocks in Berlin showed twice, is neither less than the same moment in
UTC nor equal to it nor greater. A moment in a field of dates has no order to a date. -/
theorem comparisons_putBack :
    let half : ZonedMoment := ⟨.berlin, ⟨2024, 10, 27, by decide⟩, ⟨2, 30, 0, 0, by decide⟩, false⟩
    let noon : Moment := ⟨⟨2024, 2, 29, by decide⟩, ⟨12, 0, 0, 0, by decide⟩, none⟩
    let accepts (name t : String) (o : Operator) (v : Value) : Outcome Bool := do
      let a ← alternative Catalog.customers.schema ⟨name.toList, [t.toList], o⟩
      a.holds [(name.toList, v)]
    (∀ o ∈ [.lessThan, .equals, .greaterThan],
        accepts "created_at" "2024-10-27T00:30:00Z" o (.zoned half) = .ok false) ∧
      (∀ o ∈ [.lessOrEqual, .greaterOrEqual],
        accepts "created_at" "2024-10-27T00:30:00Z" o (.zoned half) = .ok true) ∧
      accepts "signed_on" "2024-02-29" .equals (.moment noon) = .ok false ∧
      ∀ o ∈ [.lessThan, .lessOrEqual, .greaterOrEqual, .greaterThan],
        accepts "signed_on" "2024-02-29" o (.moment noon) = .error .incomparable := by
  decide +kernel

/-- Whatever is equal to a literal for a moment is not less, and it is not greater either if the
literal is no day. What lies within a day is greater than the day, except for its midnight. -/
theorem orderings_of_equals (hfield : schema.resolve? name = some f) (htype : f.type = .datetime)
    {a : Alternative} (ha : alternative schema ⟨name, [t], .equals⟩ = .ok a) :
    ∃ m, Literal.moment? t = some m ∧ ∃ b : Operator → Alternative,
      (∀ o, o.isOrdering = true → alternative schema ⟨name, [t], o⟩ = .ok (b o)) ∧
      ∀ r : Record, a.holds r = .ok true → ∃ w, (r.value f.name).moment? = some w ∧
        (b .greaterOrEqual).holds r = .ok true ∧ (b .lessThan).holds r = .ok false ∧
        (b .lessOrEqual).holds r = .ok (decide (w.instant = m.instant)) ∧
        (b .greaterThan).holds r = .ok (!decide (w.instant = m.instant)) ∧
        (Literal.dateOnly? t = none → w.instant = m.instant) := by
  rw [alternative_singleton hfield] at ha
  obtain ⟨test, htest, rfl⟩ := map_eq_ok_iff.mp ha
  obtain ⟨v, hv⟩ : Succeeds (f.read t) := (Test.succeeds_ofOperator_iff.mp ⟨test, htest⟩).1 rfl
  obtain ⟨m, hm, rfl⟩ := (Field.read_moment_iff htype).mp hv
  refine ⟨m, hm, fun o ↦ [⟨f.name, .ordered o (.moment m)⟩],
    fun o ho ↦ alternative_ordering_moment hfield htype ho hm, fun r hr ↦ ?_⟩
  rw [Alternative.holds_singleton, Branch.holds] at hr
  obtain ⟨w, hw⟩ := Test.exists_moment?_of_holds htype htest hr
  rw [Test.holds_ofEquality_moment htype htest hw, Except.ok.injEq, Bool.and_eq_true] at hr
  obtain ⟨hle, heq⟩ := Operator.instant_le_of_acceptsAt hm hr.2
  refine ⟨w, hw, ?_⟩
  simp only [Alternative.holds_ordered_moment hw]
  rcases hle.eq_or_lt with h | h
  · rw [compare_eq_iff_eq.mpr h.symm, decide_eq_true h.symm]
    exact ⟨rfl, rfl, rfl, rfl, heq⟩
  · rw [compare_gt_iff_gt.mpr h, decide_eq_false h.ne']
    exact ⟨rfl, rfl, rfl, rfl, heq⟩

/-- Five o'clock without an offset is ten o'clock five hours east of UTC, and not greater. -/
theorem orderings_of_equals_east :
    let t := "2024-02-29T10:00:00+05:00".toList
    let row : Record := [("created_at".toList,
      .moment ⟨⟨2024, 2, 29, by decide⟩, ⟨5, 0, 0, 0, by decide⟩, none⟩)]
    ∃ b : Operator → Alternative,
      (∀ o, o.isOrdering = true →
        alternative Catalog.customers.schema ⟨"createdAt".toList, [t], o⟩ = .ok (b o)) ∧
      (b .lessOrEqual).holds row = .ok true ∧ (b .greaterThan).holds row = .ok false := by
  intro t row
  have hday : Literal.dateOnly? t = none := by decide
  have hmoment : Literal.moment? t = some ⟨⟨2024, 2, 29, by decide⟩, ⟨10, 0, 0, 0, by decide⟩,
      some ⟨18000000000, by decide⟩⟩ := by decide
  have hequals := alternative_equals_moment Catalog.resolve?_createdAt rfl hday hmoment
  obtain ⟨m, -, b, hb, horderings⟩ := orderings_of_equals Catalog.resolve?_createdAt rfl hequals
  obtain ⟨w, -, -, -, hle, hgt, hexact⟩ := horderings row (by rfl)
  have hsame : w.instant = m.instant := hexact hday
  rw [decide_eq_true hsame] at hle hgt
  exact ⟨b, hb, hle, hgt⟩

/-- Seven o'clock is equal to its day and greater than its day at once, and not less or equal. -/
theorem greater_and_equal_to_day :
    let t := "2024-02-29".toList
    let row : Record := [("created_at".toList,
      .moment ⟨⟨2024, 2, 29, by decide⟩, ⟨7, 0, 0, 0, by decide⟩, none⟩)]
    ∃ a : Operator → Alternative,
      (∀ o ∈ [.equals, .lessOrEqual, .greaterThan],
        alternative Catalog.customers.schema ⟨"createdAt".toList, [t], o⟩ = .ok (a o)) ∧
      (a .equals).holds row = .ok true ∧ (a .lessOrEqual).holds row = .ok false ∧
      (a .greaterThan).holds row = .ok true := by
  intro t row
  let day : Date := ⟨2024, 2, 29, by decide⟩
  let next : Date := ⟨2024, 3, 1, by decide⟩
  let seven : Moment := ⟨day, ⟨7, 0, 0, 0, by decide⟩, none⟩
  have hday : Literal.dateOnly? t = some day := by decide
  have hmoment : Literal.moment? t = some (Moment.midnightOf day) := by rw [Literal.moment?, hday]
  have hrow : (row.value "created_at".toList).moment? = some seven := rfl
  have hnext : day.next? = some next := by decide
  have hstart : (Moment.midnightOf day).instant = (day.dayNumber * microsPerDay : Nat) := by
    rw [Moment.instant_midnightOf, Moment.wallMicros_midnightOf]
  have hdate : seven.date = day := rfl
  have hclock : seven.clock.micros = 25200000000 := by decide
  have hseven : seven.instant = (Moment.midnightOf day).instant + 25200000000 := by
    rw [hstart, Value.instant_eq rfl, Moment.wallMicros, hdate, hclock]
    omega
  have hend : (Moment.midnightOf next).instant = (Moment.midnightOf day).instant + 86400000000 := by
    rw [hstart, Moment.instant_midnightOf, Moment.wallMicros_midnightOf,
      Date.dayNumber_of_next? hnext]
    unfold microsPerDay
    omega
  have hafter : compare seven.instant (Moment.midnightOf day).instant = .gt :=
    compare_gt_iff_gt.mpr (by omega)
  let test (o : Operator) : Test :=
    if o = .equals then .within (Moment.midnightOf day) (Moment.midnightOf next)
    else .ordered o (.moment (Moment.midnightOf day))
  refine ⟨fun o ↦ [⟨"created_at".toList, test o⟩], ?_, ?_, ?_, ?_⟩
  · simp only [List.forall_mem_cons]
    exact ⟨alternative_equals_day Catalog.resolve?_createdAt rfl hday hnext,
      alternative_ordering_moment Catalog.resolve?_createdAt rfl rfl hmoment,
      alternative_ordering_moment Catalog.resolve?_createdAt rfl rfl hmoment,
      List.forall_mem_nil _⟩
  · change Alternative.holds [⟨_, .within _ _⟩] row = _
    rw [Alternative.holds_singleton, Branch.holds, Test.holds_within hrow,
      decide_eq_true (by omega), decide_eq_true (by omega)]
    rfl
  · refine (Alternative.holds_ordered_moment hrow .lessOrEqual (Moment.midnightOf day)).trans ?_
    rw [hafter]
    rfl
  · refine (Alternative.holds_ordered_moment hrow .greaterThan (Moment.midnightOf day)).trans ?_
    rw [hafter]
    rfl

end Filter

end RecordQuery
