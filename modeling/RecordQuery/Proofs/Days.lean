import RecordQuery.Proofs.Calendar.Spelling
import RecordQuery.Proofs.Calendar.Utc
import RecordQuery.Proofs.Comparisons

namespace RecordQuery

/-!
# Equality with a day

A day may be written in any of its forms, between blanks. A moment is equal
to it if a calendar in UTC shows that day.
-/

open Outcome

/-! ## Literals for days -/

theorem Date.IsSpelling.isBlank_of_mem {d : Date} {extended : Bool} {s : Text}
    (hs : d.IsSpelling extended s) : ∀ c ∈ s, Text.isBlank c = false ∧ c ≠ 'T' := by
  have hdigits : ∀ k < 10, Text.isBlank (Nat.digitChar k) = false ∧ Nat.digitChar k ≠ 'T' := by
    decide
  intro c hc
  rcases hs.forall_mem c hc with ⟨k, hk, rfl⟩ | rfl | rfl
  · exact hdigits k hk
  · decide
  · decide

namespace Literal

open Text

variable {d : Date} {t : Text}

/-- A day in one of its forms, between blanks. -/
def IsDay (t : Text) (d : Date) : Prop :=
  ∃ before s after extended, t = before ++ s ++ after ∧ d.IsSpelling extended s ∧
    (∀ c ∈ before, isBlank c = true) ∧ ∀ c ∈ after, isBlank c = true

/-- What is read as a day without a time is written in one of the forms of the day, but for two
bytes that the forms without hyphens may leave over. -/
theorem dateOnly?_eq_some_iff : dateOnly? t = some d ↔
    ('T' ∉ trim t ∧ ' ' ∉ trim t) ∧
      ∃ extended s rest, trim t = s ++ rest ∧ d.IsSpelling extended s ∧
        (rest = [] ∨ extended = false ∧ (utf8 (trim t)).length = 10 ∧ (utf8 rest).length = 2) := by
  rw [← Iso.date?_eq_some_iff, dateOnly?, ← not_or]
  exact Option.ite_none_left_eq_some

theorem dateOnly?_of_trim {extended : Bool} {s : Text} (hs : d.IsSpelling extended s)
    (ht : trim t = s) : dateOnly? t = some d := by
  rw [dateOnly?_eq_some_iff, ht]
  refine ⟨⟨fun h ↦ (hs.isBlank_of_mem _ h).2 rfl, fun h ↦ ?_⟩, ?_⟩
  · exact absurd (hs.isBlank_of_mem _ h).1 (by decide)
  · exact ⟨extended, s, [], (List.append_nil s).symm, hs, .inl rfl⟩

theorem IsDay.dateOnly?_eq (h : IsDay t d) : dateOnly? t = some d := by
  obtain ⟨before, s, after, extended, rfl, hs, hbefore, hafter⟩ := h
  exact dateOnly?_of_trim hs
    (trim_append_append hbefore (fun c hc ↦ (hs.isBlank_of_mem c hc).1) hafter)

end Literal

/-! ## Filters -/

namespace Filter

variable {schema : Schema} {name : Text} {f : Field}

theorem holds_equals_day (hfield : schema.resolve? name = some f) (htype : f.type = .datetime)
    {t : Text} {d : Date} (hd : Literal.dateOnly? t = some d) {a : Alternative}
    (ha : alternative schema ⟨name, [t], .equals⟩ = .ok a) {r : Record} {w : Moment}
    (hr : (r.value f.name).moment? = some w) : a.holds r = .ok (decide (w.dayInUtc? = some d)) := by
  rw [alternative_singleton hfield] at ha
  obtain ⟨test, htest, rfl⟩ := map_eq_ok_iff.mp ha
  have hday : decide (w.dayInUtc? = some d) =
      Operator.equals.acceptsAt Moment.instant t (.moment w) := by
    rw [Operator.acceptsAt_day hd, decide_eq_decide, Moment.dayInUtc?_eq_some_iff]
  rw [Alternative.holds_singleton, Branch.holds, Test.holds_ofEquality_moment htype htest hr,
    Literal.isDateOnly, hd, hday]
  rfl

/-- To a literal for a day, in whatever form it is written, those moments are equal at which a
calendar in UTC shows the day. Literals to which one moment is equal are for one day, and literals
for one day ask the same. -/
theorem equals_day (hfield : schema.resolve? name = some f) (htype : f.type = .datetime) :
    (∀ t d, Literal.IsDay t d → Literal.dateOnly? t = some d) ∧
    ∀ t d, Literal.dateOnly? t = some d → d ≠ Date.last →
      ∃ a, alternative schema ⟨name, [t], .equals⟩ = .ok a ∧
        (∀ r w, (r.value f.name).moment? = some w →
          a.holds r = .ok (decide (w.dayInUtc? = some d))) ∧
        ∀ u e b, Literal.dateOnly? u = some e →
          alternative schema ⟨name, [u], .equals⟩ = .ok b → (d = e → a = b) ∧
            ∀ r w, (r.value f.name).moment? = some w → a.holds r = .ok true →
              b.holds r = .ok true → d = e := by
  refine ⟨fun t d ↦ Literal.IsDay.dateOnly?_eq, fun t d hd hlast ↦ ?_⟩
  obtain ⟨next, hnext⟩ := Option.ne_none_iff_exists'.mp (mt Date.next?_eq_none_iff.mp hlast)
  have hday : ∀ {u}, Literal.dateOnly? u = some d → alternative schema ⟨name, [u], .equals⟩ =
      .ok [⟨f.name, .within (Moment.midnightOf d) (Moment.midnightOf next)⟩] :=
    fun hu ↦ alternative_equals_day hfield htype hu hnext
  refine ⟨_, hday hd, fun r w ↦ holds_equals_day hfield htype hd (hday hd), fun u e b hu hb ↦
    ⟨?_, fun r w hr hat hbt ↦ ?_⟩⟩
  · rintro rfl
    exact Except.ok.inj ((hday hu).symm.trans hb)
  · rw [holds_equals_day hfield htype hd (hday hd) hr, Except.ok.injEq, decide_eq_true_iff] at hat
    rw [holds_equals_day hfield htype hu hb hr, Except.ok.injEq, decide_eq_true_iff, hat] at hbt
    exact Option.some.inj hbt

/-- The leap day in four forms. Half past four on the next morning, five hours east of UTC, is
still on that day, and the midnight after it is not. -/
theorem equals_day_leap :
    let day : Date := ⟨2024, 2, 29, by decide⟩
    let next : Date := ⟨2024, 3, 1, by decide⟩
    let at_ (w : Moment) : Record := [("created_at".toList, .moment w)]
    ∀ t ∈ ["2024-02-29".toList, "20240229".toList, "2024-W09-4".toList, " 2024W094\t".toList],
      Literal.dateOnly? t = some day ∧
        ∃ a, alternative Catalog.customers.schema ⟨"createdAt".toList, [t], .equals⟩ = .ok a ∧
          a.holds (at_ ⟨next, ⟨4, 30, 0, 0, by decide⟩, some ⟨18000000000, by decide⟩⟩) = .ok true ∧
          a.holds (at_ (Moment.midnightOf next)) = .ok false := by
  intro day next at_ t ht
  have hread : ∀ t ∈ ["2024-02-29".toList, "20240229".toList, "2024-W09-4".toList,
      " 2024W094\t".toList], Literal.dateOnly? t = some day := by decide
  obtain ⟨a, ha, hholds, -⟩ :=
    (equals_day Catalog.resolve?_createdAt rfl).2 t day (hread t ht) (by decide)
  have hmorning : (⟨next, ⟨4, 30, 0, 0, by decide⟩, some ⟨18000000000, by decide⟩⟩ :
      Moment).dayInUtc? = some day := by decide
  have hmidnight : (Moment.midnightOf next).dayInUtc? ≠ some day := by decide
  refine ⟨hread t ht, a, ha, ?_, ?_⟩
  · rw [hholds _ _ rfl, decide_eq_true hmorning]
  · rw [hholds _ _ rfl, decide_eq_false hmidnight]

end Filter

end RecordQuery
