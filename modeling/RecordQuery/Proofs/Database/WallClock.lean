import RecordQuery.Proofs.Database.Cell
import RecordQuery.Proofs.Database.Stored
import RecordQuery.Proofs.Duality

namespace RecordQuery

/-!
# Wall clocks

To records in memory the moment of a literal is a moment in time. A
database has the wall clocks of moments only, so that it reads a literal
without its offset. The two agree on literals in UTC, and on days.
-/

open Outcome

/-! ## Operators on moments -/

namespace Comparison

theorem equal_holds (a b : Int) : equal.holds (Ord.compare a b) = decide (a = b) := by
  simp [holds]

theorem less_holds (a b : Int) : less.holds (Ord.compare a b) = decide (a < b) := by
  simp [holds, compare_lt_iff_lt]

theorem greaterOrEqual_holds (a b : Int) :
    greaterOrEqual.holds (Ord.compare a b) = decide (b ≤ a) := by
  simp [holds, compare_lt_iff_lt]

end Comparison

namespace Operator

/-- Whether an operator and a literal accept the value of a field of moments, for moments that are
told by their places in time. An equality with a day asks whether the place lies within the day.
Whatever is no moment is unequal to the literal. -/
def acceptsAt (place : Moment → Int) (o : Operator) (t : Text) : Value → Bool
  | .moment w =>
    if o.isEquality && Literal.isDateOnly t then
      decide (∃ d ∈ Literal.dateOnly? t, place w / microsPerDay = d.dayNumber) ==
        decide (o = .equals)
    else
      match Literal.moment? t with
      | some m => o.comparison.holds (compare (place w) (place m))
      | none => decide (o = .notEquals)
  | _ => decide (o = .notEquals)

variable {place : Moment → Int} {o : Operator} {t : Text}

theorem acceptsAt_null : o.acceptsAt place t .null = decide (o = .notEquals) := rfl

theorem acceptsAt_day {d : Date} (hd : Literal.dateOnly? t = some d) (w : Moment) :
    equals.acceptsAt place t (.moment w) = decide (place w / microsPerDay = d.dayNumber) := by
  simp [acceptsAt, isEquality, Literal.isDateOnly, hd]

theorem acceptsAt_moment (h : o.isEquality = true → Literal.dateOnly? t = none) {m : Moment}
    (hm : Literal.moment? t = some m) (w : Moment) :
    o.acceptsAt place t (.moment w) = o.comparison.holds (compare (place w) (place m)) := by
  rw [acceptsAt, hm, if_neg]
  rw [Bool.and_eq_true]
  rintro ⟨ho, hday⟩
  rw [Literal.isDateOnly, h ho] at hday
  cases hday

theorem acceptsAt_null_of_isOrdering (h : o.isOrdering = true) :
    o.acceptsAt place t .null = false := by
  rw [acceptsAt_null, decide_eq_false]
  rintro rfl
  cases h

theorem acceptsAt_of_isOrdering (h : o.isOrdering = true) {m : Moment}
    (hm : Literal.moment? t = some m) (w : Moment) :
    o.acceptsAt place t (.moment w) = o.comparison.holds (compare (place w) (place m)) := by
  refine acceptsAt_moment (fun hequality ↦ ?_) hm w
  rw [isEquality_of_isOrdering h] at hequality
  cases hequality

theorem acceptsAt_notEquals (w : Moment) :
    notEquals.acceptsAt place t (.moment w) = !equals.acceptsAt place t (.moment w) := by
  simp only [acceptsAt, isEquality, Bool.true_and]
  split
  · simp
  · cases Literal.moment? t with
    | some m => simp [comparison, Comparison.holds]
    | none => rfl

end Operator

section

variable {f : Field} {o : Operator} {t : Text}

/-! ## Records in memory -/

theorem Moment.decide_within_day {d e : Date} (h : d.next? = some e) (micros : Int) :
    (decide ((midnightOf d).wallMicros ≤ micros) &&
      decide (micros < (midnightOf e).wallMicros)) =
        decide (micros / microsPerDay = d.dayNumber) := by
  rw [Bool.eq_iff_iff, Bool.and_eq_true, decide_eq_true_iff, decide_eq_true_iff,
    decide_eq_true_iff, within_day_iff h]

/-- A moment whose clocks show it twice or never is equal to no moment, but it lies within a day. -/
theorem Test.holds_ofEquality_moment (htype : f.type = .datetime) {test : Test}
    (h : ofEquality f t = .ok test) {v : Value} {w : Moment} (hv : v.moment? = some w) :
    test.holds v = .ok ((Literal.isDateOnly t || !v.isAmbiguous) &&
      Operator.equals.acceptsAt Moment.instant t (.moment w)) := by
  cases f.equality t with
  | folded htext _ _ => cases htext.symm.trans htype
  | day _ hd he htest _ =>
      obtain rfl := Except.ok.inj (htest.symm.trans h)
      rw [holds_within hv, Moment.instant_midnightOf, Moment.instant_midnightOf,
        Moment.decide_within_day he, Operator.acceptsAt_day hd, Literal.isDateOnly, hd]
      rfl
  | lastDay _ _ htest _ => cases htest.symm.trans h
  | read _ hd htest _ =>
      obtain ⟨u, hu, rfl⟩ := map_eq_ok_iff.mp (htest.symm.trans h)
      obtain ⟨m, hm, rfl⟩ := (Field.read_moment_iff htype).mp hu
      have hequals : (equals (.moment m)).holds v = .ok (Value.equals v (.moment m)) := by
        cases v with
        | null => cases hv
        | _ => rfl
      rw [hequals, Value.equals_of_moment? hv, Literal.isDateOnly, hd htype,
        Operator.acceptsAt_moment (fun _ ↦ hd htype) hm, Operator.comparison_equals,
        Comparison.equal_holds]
      rfl

theorem Test.holds_null_of_ofEquality {test : Test} (h : ofEquality f t = .ok test) :
    test.holds .null = .ok false := by
  cases f.equality t with
  | folded _ htest _ =>
      cases htest.symm.trans h
      rfl
  | day _ _ _ htest _ =>
      cases htest.symm.trans h
      rfl
  | lastDay _ _ htest _ => cases htest.symm.trans h
  | read _ _ htest _ =>
      obtain ⟨v, -, rfl⟩ := map_eq_ok_iff.mp (htest.symm.trans h)
      rfl

theorem Test.holds_ofOperator_moment (htype : f.type = .datetime) (ho : o.isTextual = false)
    {test : Test} (h : ofOperator f o t = .ok test) {v : Value}
    (hv : v = .null ∨ ∃ w, v = .moment w) :
    test.holds v = .ok (o.acceptsAt Moment.instant t v) := by
  have hordered (ho : o.isOrdering = true) :
      test.holds v = .ok (o.acceptsAt Moment.instant t v) := by
    rw [Operator.test_of_isOrdering ho] at h
    obtain ⟨u, hu, rfl⟩ := map_eq_ok_iff.mp h
    obtain ⟨m, hm, rfl⟩ := (Field.read_moment_iff htype).mp hu
    rcases hv with rfl | ⟨w, rfl⟩
    · rw [Operator.acceptsAt_null_of_isOrdering ho]
      rfl
    · rw [Operator.acceptsAt_of_isOrdering ho hm, ← Operator.accepts_ofOrdering ho]
      simp only [holds, Value.compareTo_moment, Moment.order]
      rfl
  cases o with
  | equals =>
      rcases hv with rfl | ⟨w, rfl⟩
      · exact holds_null_of_ofEquality h
      · rw [holds_ofEquality_moment htype h rfl]
        simp [Value.isAmbiguous]
  | notEquals =>
      obtain ⟨equality, hequality, rfl⟩ := map_eq_ok_iff.mp h
      rcases hv with rfl | ⟨w, rfl⟩
      · rw [holds, holds_null_of_ofEquality hequality]
        rfl
      · rw [holds, holds_ofEquality_moment htype hequality rfl, Operator.acceptsAt_notEquals]
        simp [Value.isAmbiguous, Except.map]
  | contains | startsWith | endsWith => cases ho
  | greaterThan | greaterOrEqual | lessThan | lessOrEqual => exact hordered rfl

/-! ## Databases -/

theorem Cell.order_moment (w m : Moment) :
    (ofValue (.moment w)).order (ofValue (.moment m)) = compare w.wallMicros m.wallMicros :=
  order_momentText w m

theorem Atom.holds_ofEquality_moment (htype : f.type = .datetime) {affirmed : Bool} {a : Atom}
    (h : ofEquality f affirmed t = .ok a) (w : Moment) :
    a.holds (Cell.ofValue (.moment w)) =
      some (Operator.equals.acceptsAt Moment.wallMicros t (.moment w) == affirmed) := by
  have hw : Cell.ofValue (.moment w) ≠ .null := nofun
  cases f.equality t with
  | folded htext _ _ => cases htext.symm.trans htype
  | day _ hd he _ hatom =>
      obtain rfl := Except.ok.inj ((hatom affirmed).symm.trans h)
      rw [holds_within affirmed _ _ hw, Cell.order_moment, Cell.order_moment,
        Comparison.greaterOrEqual_holds, Comparison.less_holds, Moment.decide_within_day he,
        Operator.acceptsAt_day hd]
  | lastDay _ _ _ hatom => cases (hatom affirmed).symm.trans h
  | read _ hd _ hatom =>
      obtain ⟨v, hv, rfl⟩ := map_eq_ok_iff.mp ((hatom affirmed).symm.trans h)
      obtain ⟨m, hm, rfl⟩ := (Field.read_moment_iff htype).mp hv
      rw [holds_ofValue, Comparison.compare_eq hw (Field.ofValue_ne_null_of_read hv),
        Comparison.holds_ofEquality, Cell.order_moment,
        Operator.acceptsAt_moment (fun _ ↦ hd htype) hm, Operator.comparison_equals,
        Comparison.holds]

theorem Atom.any_equals_moment (htype : f.type = .datetime) {atoms : List Atom}
    (h : ofOperator f .equals t = .ok atoms) {v : Value} (hv : v = .null ∨ ∃ w, v = .moment w) :
    decide (Truth.any (atoms.map fun a ↦ a.holds (Cell.ofValue v)) = some true) =
      Operator.equals.acceptsAt Moment.wallMicros t v := by
  obtain ⟨a, ha, rfl⟩ := map_eq_ok_iff.mp h
  rw [List.map_singleton, Truth.any_cons, Truth.any_nil]
  rcases hv with rfl | ⟨w, rfl⟩
  · obtain ⟨equal, hequal⟩ := f.exists_equal t
    have hnull : a.holds (Cell.ofValue .null) = none := (hequal true a ha).1
    rw [hnull]
    rfl
  · rw [holds_ofEquality_moment htype ha]
    cases Operator.equals.acceptsAt Moment.wallMicros t (.moment w) <;> rfl

theorem Atom.any_ofOperator_moment (htype : f.type = .datetime) (ho : o.isTextual = false)
    {atoms : List Atom} (h : ofOperator f o t = .ok atoms) {v : Value}
    (hv : v = .null ∨ ∃ w, v = .moment w) :
    decide (Truth.any (atoms.map fun a ↦ a.holds (Cell.ofValue v)) = some true) =
      o.acceptsAt Moment.wallMicros t v := by
  have hordered (ho : o.isOrdering = true) :
      decide (Truth.any (atoms.map fun a ↦ a.holds (Cell.ofValue v)) = some true) =
        o.acceptsAt Moment.wallMicros t v := by
    rw [Operator.atoms_of_isOrdering ho] at h
    obtain ⟨u, hu, h⟩ := bind_eq_ok_iff.mp h
    obtain ⟨m, hm, rfl⟩ := (Field.read_moment_iff htype).mp hu
    obtain rfl : [compare o.comparison (.moment m)] = atoms := Except.ok.inj h
    rw [List.map_singleton, Truth.any_cons, Truth.any_nil]
    rcases hv with rfl | ⟨w, rfl⟩
    · rw [Operator.acceptsAt_null_of_isOrdering ho]
      rfl
    · have hw : Cell.ofValue (.moment w) ≠ .null := nofun
      rw [Operator.acceptsAt_of_isOrdering ho hm, holds,
        Comparison.compare_eq hw (Field.ofValue_ne_null_of_read hu), Cell.order_moment]
      cases o.comparison.holds (Ord.compare w.wallMicros m.wallMicros) <;> rfl
  cases o with
  | equals => exact any_equals_moment htype h hv
  | notEquals =>
      obtain ⟨as, has⟩ := Atom.succeeds_equals ⟨atoms, h⟩
      rw [any_notEquals has h, any_equals_moment htype has hv]
      rcases hv with rfl | ⟨w, rfl⟩
      · rfl
      · simp [Operator.acceptsAt_notEquals]
  | contains | startsWith | endsWith => cases ho
  | greaterThan | greaterOrEqual | lessThan | lessOrEqual => exact hordered rfl

/-! ## Filters -/

/-- Literals in UTC stand at one place in time and on the wall clock. -/
theorem Operator.acceptsAt_congr (h : ∀ m ∈ Literal.moment? t, m.offsetMicros = 0)
    {v : Value} (hv : v = .null ∨ ∃ w, v = .moment w) :
    o.acceptsAt Moment.instant t v.stored = o.acceptsAt Moment.wallMicros t v.stored := by
  rcases hv with rfl | ⟨w, rfl⟩
  · rfl
  · have hplace : (⟨w.date, w.clock, none⟩ : Moment).instant =
        (⟨w.date, w.clock, none⟩ : Moment).wallMicros := Value.instant_eq rfl
    rw [Value.stored, acceptsAt, acceptsAt, hplace]
    cases hm : Literal.moment? t with
    | none => rfl
    | some m =>
        dsimp only
        rw [Value.instant_eq (h m hm)]

end

namespace Filter

variable {table : Table} {name : Text} {f : Field} {o : Operator} {vs : List Text}

theorem holds_moments {schema : Schema} (hfield : schema.resolve? name = some f)
    (htype : f.type = .datetime) (ho : o.isTextual = false) {a : Alternative}
    (ha : alternative schema ⟨name, vs, o⟩ = .ok a) {r : Record}
    (hr : r.value f.name = .null ∨ ∃ w, r.value f.name = .moment w) :
    a.holds r = .ok (vs.any fun t ↦ o.acceptsAt Moment.instant t (r.value f.name)) :=
  holds_alternative hfield ha fun _ _ _ h ↦ Test.holds_ofOperator_moment htype ho h hr

theorem selects_moments (hfield : table.schema.resolve? name = some f)
    (htype : f.type = .datetime) (ho : o.isTextual = false) {group : List Term}
    (hgroup : Filter.group table ⟨name, vs, o⟩ = .ok group) {r : Record}
    (hr : r.value f.name = .null ∨ ∃ w, r.value f.name = .moment w) :
    Clause.selects [group] r =
      vs.any fun t ↦ o.acceptsAt Moment.wallMicros t (r.value f.name) :=
  selects_group hfield hgroup fun _ _ _ h ↦ Atom.any_ofOperator_moment htype ho h hr

/-- A filter on moments that can be compiled for records in memory can be compiled for a database,
which reads the wall clocks of its literals where records in memory are compared with moments in
time. Without offsets in the literals this is the same. -/
theorem moments_selected (hfield : table.schema.resolve? name = some f)
    (htype : f.type = .datetime) (ho : o.isTextual = false) {a : Alternative}
    (ha : alternative table.schema ⟨name, vs, o⟩ = .ok a) {r : Record}
    (hr : r.value f.name = .null ∨ ∃ w, r.value f.name = .moment w) :
    ∃ group, Filter.group table ⟨name, vs, o⟩ = .ok group ∧
      a.holds r.stored =
        .ok (vs.any fun t ↦ o.acceptsAt Moment.instant t (r.value f.name).stored) ∧
      Clause.selects [group] r =
        (vs.any fun t ↦ o.acceptsAt Moment.wallMicros t (r.value f.name).stored) ∧
      ((∀ t ∈ vs, ∀ m ∈ Literal.moment? t, m.offsetMicros = 0) →
        a.holds r.stored = .ok (Clause.selects [group] r)) := by
  have hgroup : Succeeds (Filter.group table ⟨name, vs, o⟩) := by
    have hvalues := (succeeds_alternative_iff_values (f := ⟨name, vs, o⟩) hfield).mp ⟨a, ha⟩
    refine (succeeds_group_iff_values (f := ⟨name, vs, o⟩) hfield).mpr fun t ht ↦ ?_
    obtain ⟨hread, hday⟩ := Test.succeeds_ofOperator_iff.mp (hvalues t ht)
    refine Atom.succeeds_ofOperator_iff.mpr ⟨hread, hday, fun _ ↦ ?_⟩
    rw [htype]
    exact nofun
  have hstored : r.stored.value f.name = .null ∨ ∃ w, r.stored.value f.name = .moment w := by
    rw [Record.value_stored]
    rcases hr with hr | ⟨w, hr⟩ <;> rw [hr]
    · exact Or.inl rfl
    · exact Or.inr ⟨_, rfl⟩
  have hplace : ∀ t, o.acceptsAt Moment.wallMicros t (r.value f.name).stored =
      o.acceptsAt Moment.wallMicros t (r.value f.name) := by
    intro t
    rcases hr with hr | ⟨w, hr⟩ <;> rw [hr] <;> rfl
  obtain ⟨group, hgroup⟩ := hgroup
  have hmemory := holds_moments hfield htype ho ha hstored
  have hdatabase := selects_moments hfield htype ho hgroup hr
  rw [Record.value_stored] at hmemory
  simp only [← hplace] at hdatabase
  refine ⟨group, hgroup, hmemory, hdatabase, fun hutc ↦ ?_⟩
  rw [hmemory, hdatabase, Except.ok.injEq, Bool.eq_iff_iff, List.any_eq_true, List.any_eq_true]
  exact exists_congr fun t ↦ and_congr_right fun ht ↦ by
    rw [Operator.acceptsAt_congr (hutc t ht) hr]

/-- A row of seven o'clock, and five o'clock in UTC. -/
theorem moments_selected_utc :
    let row : Record := [("created_at".toList, .moment ⟨⟨2024, 2, 29, by decide⟩,
      ⟨7, 0, 0, 0, by decide⟩, none⟩)]
    let filter : Filter :=
      ⟨"createdAt".toList, ["2024-02-29T05:00:00Z".toList], .greaterThan⟩
    ∃ a group, filter.alternative Catalog.customers.schema = .ok a ∧
      filter.group Catalog.customers = .ok group ∧
      a.holds row.stored = .ok (Clause.selects [group] row) := by
  intro row filter
  have hfield : Catalog.customers.schema.resolve? "createdAt".toList =
      some (Catalog.field "created_at" .datetime) := by decide +kernel
  have hrow : row.value "created_at".toList = .moment ⟨⟨2024, 2, 29, by decide⟩,
      ⟨7, 0, 0, 0, by decide⟩, none⟩ := rfl
  have halternative : ∃ a, filter.alternative Catalog.customers.schema = .ok a := ⟨_, rfl⟩
  obtain ⟨a, ha⟩ := halternative
  obtain ⟨group, hgroup, -, -, hutc⟩ := moments_selected hfield rfl rfl ha (Or.inr ⟨_, hrow⟩)
  exact ⟨a, group, ha, hgroup, hutc (by decide +kernel)⟩

/-- Ten o'clock five hours east of UTC is before seven o'clock in UTC, but not on the wall clock. -/
theorem moments_selected_east :
    let row : Record := [("created_at".toList, .moment ⟨⟨2024, 2, 29, by decide⟩,
      ⟨7, 0, 0, 0, by decide⟩, none⟩)]
    let filter : Filter :=
      ⟨"createdAt".toList, ["2024-02-29T10:00:00+05:00".toList], .greaterThan⟩
    ∃ a group, filter.alternative Catalog.customers.schema = .ok a ∧
      filter.group Catalog.customers = .ok group ∧
      a.holds row.stored = .ok true ∧ Clause.selects [group] row = false := by
  intro row filter
  have hfield : Catalog.customers.schema.resolve? "createdAt".toList =
      some (Catalog.field "created_at" .datetime) := by decide +kernel
  have hrow : row.value "created_at".toList = .moment ⟨⟨2024, 2, 29, by decide⟩,
      ⟨7, 0, 0, 0, by decide⟩, none⟩ := rfl
  have hstored : row.stored.value "created_at".toList = row.value "created_at".toList := rfl
  have halternative : ∃ a, filter.alternative Catalog.customers.schema = .ok a := ⟨_, rfl⟩
  have hgroup : ∃ group, filter.group Catalog.customers = .ok group := ⟨_, rfl⟩
  obtain ⟨a, ha⟩ := halternative
  obtain ⟨group, hgroup⟩ := hgroup
  refine ⟨a, group, ha, hgroup, ?_, ?_⟩
  · rw [holds_moments hfield rfl rfl ha (Or.inr ⟨_, hstored.trans hrow⟩)]
    decide +kernel
  · rw [selects_moments hfield rfl rfl hgroup (Or.inr ⟨_, hrow⟩)]
    decide +kernel

end Filter

end RecordQuery
