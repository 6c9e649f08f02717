import RecordQuery.Proofs.Compilable
import RecordQuery.Proofs.Database.Cell

namespace RecordQuery

/-!
# Equality and inequality

An inequality with some values accepts what is unequal to one of them, to
records in memory and to a database alike. A missing value is unequal to
every value. To a database an equality with it is unknown, but an
inequality never is.
-/

open Outcome

/-! ## Tests -/

/-- A value for an equality by a field of some type: moments stand beside moments, and for texts
there has to be one. -/
structure Value.IsEquatable (type : FieldType) (v : Value) : Prop where
  eq_null_or_moment : type = .datetime → v = .null ∨ ∃ m, v.moment? = some m
  succeeds_plain : type = .text → Succeeds v.plain

theorem Value.isEquatable_of_hasType {type : FieldType} {v : Value}
    (h : v = .null ∨ v.HasType type) : v.IsEquatable type := by
  constructor
  · rintro rfl
    exact h.imp_right HasType.exists_moment?_eq
  · rintro rfl
    rcases h with rfl | h
    · exact succeeds_ok _
    · cases h
      exact succeeds_ok _

section

variable {f : Field} {t : Text} {test : Test} {v : Value}

theorem Test.holds_within {w : Moment} (hv : v.moment? = some w) (start finish : Moment) :
    (within start finish).holds v =
      .ok (decide (start.instant ≤ w.instant) && decide (w.instant < finish.instant)) := by
  have hstart : Value.compareTo (.moment start) v = .ok (.ofOrdering (start.order w)) :=
    Value.compareTo_of_moment? rfl hv rfl
  have hfinish : Value.compareTo v (.moment finish) = .ok (.ofOrdering (w.order finish)) :=
    Value.compareTo_of_moment? hv rfl (Value.keepOrder_moment hv finish)
  have horders : (within start finish).holds v =
      .ok (decide (start.order w ≠ .gt) && decide (w.order finish = .lt)) := by
    cases v with
    | moment x | zoned x =>
        simp only [holds, hstart, hfinish]
        cases start.order w <;> cases w.order finish <;> rfl
    | _ => cases hv
  simp only [horders, Moment.order, ne_eq, compare_gt_iff_gt, compare_lt_iff_lt, not_lt]

theorem Test.succeeds_textIs (h : Succeeds v.plain) (t : Text) : Succeeds ((textIs t).holds v) := by
  cases hnull : v.isNull with
  | true =>
      cases v with
      | null => exact succeeds_ok _
      | _ => cases hnull
  | false =>
      rw [holds_textIs hnull, succeeds_map_iff, Value.searchText, succeeds_map_iff]
      exact h

theorem Test.succeeds_finds (h : Succeeds v.plain) (o : Operator) (needle : Text) :
    Succeeds ((finds o needle).holds v) := by
  cases hnull : v.isNull with
  | true =>
      cases v with
      | null => exact succeeds_ok _
      | _ => cases hnull
  | false =>
      rw [holds_finds hnull, succeeds_map_iff, Value.searchText, succeeds_map_iff]
      exact h

theorem Test.exists_holds_ofEquality (h : ofEquality f t = .ok test)
    (hv : v.IsEquatable f.type) : ∃ b, test.holds v = .ok b := by
  cases f.equality t with
  | folded htype htest _ =>
      obtain rfl := Except.ok.inj (htest.symm.trans h)
      exact succeeds_textIs (hv.succeeds_plain htype) _
  | @day d e htype _ _ htest _ =>
      obtain rfl := Except.ok.inj (htest.symm.trans h)
      rcases hv.eq_null_or_moment htype with rfl | ⟨m, hm⟩
      · exact ⟨_, rfl⟩
      · exact ⟨_, holds_within hm _ _⟩
  | lastDay _ _ htest _ => cases htest.symm.trans h
  | read _ _ htest _ =>
      obtain ⟨w, -, rfl⟩ := map_eq_ok_iff.mp (htest.symm.trans h)
      cases v <;> exact ⟨_, rfl⟩

end

/-! ## Atoms -/

theorem Value.HasType.ofValue_ne_null {type : FieldType} {v : Value} (h : v.HasType type) :
    Cell.ofValue v ≠ .null := by
  cases h with
  | @float x hx =>
      cases x with
      | finite negative m q => cases m <;> exact nofun
      | infinite negative => cases hx
      | nan => cases hx
  | decimal d =>
      have hcell : Cell.ofValue (.decimal d) = Cell.ofDecimal d := rfl
      rcases Cell.ofDecimal_eq d with ⟨n, h, -⟩ | h <;> rw [hcell, h] <;> exact nofun
  | text | int | bool | date | moment | zoned | uuid => exact nofun

theorem Field.ofValue_ne_null_of_read {f : Field} {t : Text} {v : Value} (h : f.read t = .ok v) :
    Cell.ofValue v ≠ .null := by
  rcases hasType_of_read h with htype | rfl
  · exact htype.ofValue_ne_null
  · exact nofun

theorem Atom.lowered_ne_null {c : Cell} (h : c ≠ .null) : lowered c ≠ .null := by
  cases c with
  | null => exact absurd rfl h
  | integer n => exact nofun
  | real x => exact nofun
  | text t => exact nofun

/-- What is equal to a literal is told by the cells that are not missing, whether an atom affirms
or denies it. -/
theorem Field.exists_equal (f : Field) (t : Text) :
    ∃ equal : Cell → Bool, ∀ affirmed a, Atom.ofEquality f affirmed t = .ok a →
      a.holds .null = none ∧ ∀ c, c ≠ .null → a.holds c = some (equal c == affirmed) := by
  cases f.equality t with
  | folded _ _ hatom =>
      refine ⟨fun c ↦ decide ((Atom.lowered c).order (.text (Text.lower t)) = .eq), ?_⟩
      intro affirmed a ha
      obtain rfl := Except.ok.inj ((hatom affirmed).symm.trans ha)
      refine ⟨rfl, fun c hc ↦ ?_⟩
      have htext : Cell.text (Text.lower t) ≠ .null := nofun
      rw [Atom.holds, Comparison.compare_eq (Atom.lowered_ne_null hc) htext,
        Comparison.holds_ofEquality]
  | @day d e _ _ _ _ hatom =>
      refine ⟨fun c ↦
        Comparison.greaterOrEqual.holds (c.order (Cell.ofValue (.moment (Moment.midnightOf d)))) &&
          Comparison.less.holds (c.order (Cell.ofValue (.moment (Moment.midnightOf e)))), ?_⟩
      intro affirmed a ha
      obtain rfl := Except.ok.inj ((hatom affirmed).symm.trans ha)
      exact ⟨by cases affirmed <;> rfl, fun c hc ↦ Atom.holds_within affirmed _ _ hc⟩
  | lastDay _ _ _ hatom =>
      refine ⟨fun _ ↦ false, fun affirmed a ha ↦ ?_⟩
      cases (hatom affirmed).symm.trans ha
  | read _ _ _ hatom =>
      cases hread : f.read t with
      | error e =>
          refine ⟨fun _ ↦ false, fun affirmed a ha ↦ ?_⟩
          rw [hatom, hread] at ha
          cases ha
      | ok v =>
          refine ⟨fun c ↦ decide (c.order (Cell.ofValue v) = .eq), fun affirmed a ha ↦ ?_⟩
          rw [hatom, hread] at ha
          obtain rfl := Except.ok.inj ha
          simp only [Atom.holds_ofValue]
          refine ⟨rfl, fun c hc ↦ ?_⟩
          rw [Comparison.compare_eq hc (ofValue_ne_null_of_read hread),
            Comparison.holds_ofEquality]

theorem Atom.succeeds_equals {f : Field} {t : Text} (h : Succeeds (ofOperator f .notEquals t)) :
    Succeeds (ofOperator f .equals t) := by
  have hatom : Succeeds (ofEquality f false t) := succeeds_map_iff.mp h
  rw [(f.succeeds_equality_iff t).2, ← (f.succeeds_equality_iff t).2 true] at hatom
  exact succeeds_map_iff.mpr hatom

/-- Where an equality is true, the inequality is false; everywhere else it is true. -/
theorem Atom.any_notEquals {f : Field} {t : Text} {as bs : List Atom}
    (has : ofOperator f .equals t = .ok as) (hbs : ofOperator f .notEquals t = .ok bs) (c : Cell) :
    Truth.any (bs.map fun a ↦ a.holds c) =
      some (!decide (Truth.any (as.map fun a ↦ a.holds c) = some true)) := by
  obtain ⟨equal, hequal⟩ := f.exists_equal t
  obtain ⟨a, ha, rfl⟩ := map_eq_ok_iff.mp has
  obtain ⟨b, hb, rfl⟩ := map_eq_ok_iff.mp hbs
  have hnull : Atom.isNull.holds c = some (decide (c = .null)) := rfl
  simp only [List.map_cons, List.map_nil, Truth.any_cons, Truth.any_nil, hnull]
  by_cases hc : c = .null
  · subst hc
    rw [(hequal true a ha).1]
    rfl
  · rw [(hequal true a ha).2 c hc, (hequal false b hb).2 c hc, decide_eq_false hc]
    cases equal c <;> rfl

/-! ## Filters -/

namespace Filter

variable {name : Text} {f : Field} {r : Record} {vs : List Text}

theorem holds_notEquals {schema : Schema} (hfield : schema.resolve? name = some f)
    (hr : (r.value f.name).IsEquatable f.type) {a : Alternative}
    (ha : alternative schema ⟨name, vs, .notEquals⟩ = .ok a) :
    ∃ equal : Text → Bool,
      (∀ t ∈ vs, ∃ e, alternative schema ⟨name, [t], .equals⟩ = .ok e ∧
        e.holds r = .ok (equal t)) ∧
      a.holds r = .ok (vs.any fun t ↦ !equal t) := by
  have hvalues := (succeeds_alternative_iff_values (f := ⟨name, vs, .notEquals⟩) hfield).mp ⟨a, ha⟩
  have hequal : ∀ t, ∃ b, ∀ test, Test.ofEquality f t = .ok test →
      test.holds (r.value f.name) = .ok b := by
    intro t
    cases htest : Test.ofEquality f t with
    | error e => exact ⟨false, nofun⟩
    | ok test =>
        obtain ⟨b, hb⟩ := Test.exists_holds_ofEquality htest hr
        exact ⟨b, fun _ h ↦ Except.ok.inj h ▸ hb⟩
  choose equal hequal using hequal
  refine ⟨equal, fun t ht ↦ ?_, ?_⟩
  · have htest : Succeeds (Test.ofEquality f t) := succeeds_map_iff.mp (hvalues t ht)
    obtain ⟨e, he⟩ := (succeeds_alternative_iff_values (f := ⟨name, [t], .equals⟩) hfield).mpr
      (List.forall_mem_singleton.mpr htest)
    refine ⟨e, he, ?_⟩
    rw [holds_alternative hfield he fun t _ ↦ hequal t, List.any_cons, List.any_nil, Bool.or_false]
  · apply holds_alternative hfield ha
    intro t _ test htest
    obtain ⟨equality, hequality, rfl⟩ := map_eq_ok_iff.mp htest
    rw [Test.holds, hequal t equality hequality]
    rfl

theorem any_notEquals {table : Table} (hfield : table.schema.resolve? name = some f)
    {group : List Term} (hgroup : Filter.group table ⟨name, vs, .notEquals⟩ = .ok group) :
    ∃ equal : Text → Bool,
      (∀ t ∈ vs, ∃ e, Filter.group table ⟨name, [t], .equals⟩ = .ok e ∧
        Clause.selects [e] r = equal t) ∧
      Clause.holds [group] r = some (vs.any fun t ↦ !equal t) := by
  have hvalues :=
    (succeeds_group_iff_values (f := ⟨name, vs, .notEquals⟩) hfield).mp ⟨group, hgroup⟩
  have hequals : ∀ t ∈ vs, Succeeds (Atom.ofOperator f .equals t) :=
    fun t ht ↦ Atom.succeeds_equals (hvalues t ht)
  have hequal : ∀ t, ∃ b, ∀ as, Atom.ofOperator f .equals t = .ok as →
      decide (Truth.any (as.map fun a ↦ a.holds (Cell.ofValue (r.value f.name))) = some true) =
        b := by
    intro t
    cases has : Atom.ofOperator f .equals t with
    | error e => exact ⟨false, nofun⟩
    | ok as =>
        refine ⟨decide (Truth.any (as.map fun a ↦ a.holds (Cell.ofValue (r.value f.name))) =
          some true), fun bs hbs ↦ ?_⟩
        obtain rfl := Except.ok.inj hbs
        rfl
  choose equal hequal using hequal
  refine ⟨equal, fun t ht ↦ ?_, ?_⟩
  · obtain ⟨e, he⟩ := (succeeds_group_iff_values (f := ⟨name, [t], .equals⟩) hfield).mpr
      (List.forall_mem_singleton.mpr (hequals t ht))
    refine ⟨e, he, ?_⟩
    rw [selects_group hfield he fun t _ ↦ hequal t, List.any_cons, List.any_nil, Bool.or_false]
  · rw [Clause.holds_singleton, ← Truth.any_map_some]
    apply any_group hfield hgroup
    intro t ht bs hbs
    obtain ⟨as, has⟩ := hequals t ht
    rw [Atom.any_notEquals has hbs, hequal t as has]

/-- An inequality that can be compiled for records in memory, or for a database, accepts a record
if one of the equalities with its values rejects it. -/
theorem notEquals_dual {table : Table} (hfield : table.schema.resolve? name = some f)
    (hr : (r.value f.name).IsEquatable f.type) (vs : List Text) :
    (∀ a, alternative table.schema ⟨name, vs, .notEquals⟩ = .ok a → ∃ equal : Text → Bool,
      (∀ t ∈ vs, ∃ e, alternative table.schema ⟨name, [t], .equals⟩ = .ok e ∧
        e.holds r = .ok (equal t)) ∧
      a.holds r = .ok (vs.any fun t ↦ !equal t)) ∧
    ∀ group, Filter.group table ⟨name, vs, .notEquals⟩ = .ok group → ∃ equal : Text → Bool,
      (∀ t ∈ vs, ∃ e, Filter.group table ⟨name, [t], .equals⟩ = .ok e ∧
        Clause.selects [e] r = equal t) ∧
      Clause.holds [group] r = some (vs.any fun t ↦ !equal t) :=
  ⟨fun _ ha ↦ holds_notEquals hfield hr ha, fun _ hgroup ↦ any_notEquals hfield hgroup⟩

/-- A row of the leap day, and two days to one of which it belongs. -/
theorem notEquals_dual_leapDay :
    let row : Record := [("created_at".toList, .moment ⟨⟨2024, 2, 29, by decide⟩,
      ⟨7, 0, 0, 0, by decide⟩, none⟩)]
    let days := ["2024-02-29".toList, "2024-03-01".toList]
    (∃ a, ∃ equal : Text → Bool,
      alternative Catalog.customers.schema ⟨"createdAt".toList, days, .notEquals⟩ = .ok a ∧
      (∀ t ∈ days, ∃ e,
        alternative Catalog.customers.schema ⟨"createdAt".toList, [t], .equals⟩ = .ok e ∧
        e.holds row = .ok (equal t)) ∧
      a.holds row = .ok (days.any fun t ↦ !equal t)) ∧
    ∃ g, ∃ equal : Text → Bool,
      group Catalog.customers ⟨"createdAt".toList, days, .notEquals⟩ = .ok g ∧
      (∀ t ∈ days, ∃ e, group Catalog.customers ⟨"createdAt".toList, [t], .equals⟩ = .ok e ∧
        Clause.selects [e] row = equal t) ∧
      Clause.holds [g] row = some (days.any fun t ↦ !equal t) := by
  intro row days
  have hfield : Catalog.customers.schema.resolve? "createdAt".toList =
      some (Catalog.field "created_at" .datetime) := by decide +kernel
  have hequatable : (row.value "created_at".toList).IsEquatable .datetime :=
    Value.isEquatable_of_hasType (Or.inr (.moment _))
  obtain ⟨hmemory, hdatabase⟩ := notEquals_dual hfield hequatable days
  have halternative : ∃ a, alternative Catalog.customers.schema
      ⟨"createdAt".toList, days, .notEquals⟩ = .ok a := ⟨_, rfl⟩
  have hgroup : ∃ g, group Catalog.customers ⟨"createdAt".toList, days, .notEquals⟩ = .ok g :=
    ⟨_, rfl⟩
  obtain ⟨a, ha⟩ := halternative
  obtain ⟨g, hg⟩ := hgroup
  obtain ⟨equal, hequal, hholds⟩ := hmemory a ha
  obtain ⟨equal', hequal', hholds'⟩ := hdatabase g hg
  exact ⟨⟨a, equal, ha, hequal, hholds⟩, ⟨g, equal', hg, hequal', hholds'⟩⟩

end Filter

end RecordQuery
