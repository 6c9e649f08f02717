import RecordQuery.Proofs.Calendar.Written
import RecordQuery.Proofs.Comparisons
import RecordQuery.Proofs.Days
import RecordQuery.Proofs.IntegerLiteral
import RecordQuery.Proofs.Number.Written
import RecordQuery.Proofs.Uuid

namespace RecordQuery

/-!
# Values read from their own texts

A field of some type reads the text of a value of that type, between
blanks, as a value that is equal to it. One kind of values is lost: a
moment whose offset from UTC is less than a second is read as if it had
been in UTC. A moment in a zone is read with its offset, and equal to that
unless the clocks of the zone show it twice or never.
-/

open Text

/-! ## Values and their texts -/

namespace Moment

/-- An offset of less than a second that is not zero. -/
def hasBriefOffset (t : Moment) : Bool :=
  match t.offset with
  | some o => o.micros ≠ 0 && o.micros.natAbs < 1000000
  | none => false

/-- What is read of a written moment: the moment, placed in UTC if it has no offset or one that is
not read. -/
def readBack (t : Moment) : Moment :=
  if t.hasBriefOffset then { t with offset := some Offset.utc } else t.inUtc

theorem inUtc_map_readBack (t : Moment) :
    inUtc ⟨t.date, t.clock, t.offset.map Offset.readBack⟩ = t.readBack := by
  obtain ⟨d, c, _ | o⟩ := t
  · rfl
  · obtain ⟨micros, hlt⟩ := o
    by_cases hsmall : micros.natAbs < 1000000
    · by_cases hzero : micros = 0
      · subst hzero
        rfl
      · simp [readBack, hasBriefOffset, Offset.readBack, inUtc, hsmall, hzero]
    · simp [readBack, hasBriefOffset, Offset.readBack, inUtc, hsmall]

theorem text_subset_figures (t : Moment) : t.text 'T' ⊆ figures :=
  List.Subset.trans (t.text_subset 'T')
    (List.cons_subset.mpr ⟨by decide, List.Subset.refl figures⟩)

/-- What is read is the same moment, unless the offset is lost. -/
theorem instant_readBack_iff (t : Moment) :
    t.instant = t.readBack.instant ↔ t.hasBriefOffset = false := by
  cases hbrief : t.hasBriefOffset with
  | false =>
      rw [readBack, hbrief, if_neg Bool.false_ne_true, instant_inUtc]
      simp
  | true =>
      obtain ⟨d, c, _ | o⟩ := t
      · cases hbrief
      · have hne : o.micros ≠ 0 := by
          simp only [hasBriefOffset, Bool.and_eq_true, decide_eq_true_eq] at hbrief
          exact hbrief.1
        rw [readBack, hbrief, if_pos rfl]
        simpa [instant, offsetMicros, wallMicros, Offset.utc] using hne

end Moment

namespace Value

/-- The text of a value by itself, in which a letter stands between the date and the time. -/
def written : Value → Outcome Text
  | moment t => .ok (t.text 'T')
  | zoned t => .ok (t.moment.text 'T')
  | v => v.plain

/-- The values that a field of some type is made for: whole numbers of 64 bits, decimals of any
exponent that a decimal can have, truth values, days, moments and identifiers. -/
inductive IsWritable : FieldType → Value → Prop
  | int {n : Int} (h : fitsInt64 n = true) : IsWritable .int (int n)
  | decimal {d : Decimal} (h : d.inRange = true) : IsWritable .decimal (decimal d)
  | bool (b : Bool) : IsWritable .bool (bool b)
  | date (d : Date) : IsWritable .date (date d)
  | moment (t : Moment) : IsWritable .datetime (moment t)
  | zoned (t : ZonedMoment) : IsWritable .datetime (zoned t)
  | uuid (u : Uuid) : IsWritable .uuid (uuid u)

def hasBriefOffset : Value → Bool
  | moment t => t.hasBriefOffset
  | zoned t => t.moment.hasBriefOffset
  | _ => false

def readBack : Value → Value
  | moment t => moment t.readBack
  | zoned t => moment t.moment.readBack
  | v => v

variable {type : FieldType} {v : Value}

theorem IsWritable.hasType (h : v.IsWritable type) : v.HasType type := by
  cases h with
  | int h => exact .int _
  | decimal h => exact .decimal _
  | bool b => exact .bool b
  | date d => exact .date d
  | moment t => exact .moment t
  | zoned t => exact .zoned t
  | uuid u => exact .uuid u

theorem IsWritable.exists_written (h : v.IsWritable type) :
    ∃ u, v.written = .ok u ∧ ∀ c ∈ u, isBlank c = false := by
  have hsubset : ∀ {t : Text}, t ⊆ figures → ∀ c ∈ t, isBlank c = false :=
    forall_mem_of_subset_figures (by decide)
  cases h with
  | int h => exact ⟨_, plain_int (natAbs_lt_intBound h), hsubset (ofInt_subset_figures _)⟩
  | decimal h => exact ⟨_, rfl, hsubset (Decimal.text_subset_figures _)⟩
  | bool b =>
      have hletters : ∀ b, (boolText b).all (fun c ↦ !isBlank c) = true := by decide
      exact ⟨_, rfl, fun c hc ↦ (Bool.not_eq_true' _).mp (List.all_eq_true.mp (hletters b) c hc)⟩
  | date d => exact ⟨_, rfl, hsubset d.text_subset_figures⟩
  | moment t => exact ⟨_, rfl, hsubset t.text_subset_figures⟩
  | zoned t => exact ⟨_, rfl, hsubset t.moment.text_subset_figures⟩
  | uuid u => exact ⟨_, rfl, hsubset u.text_subset_figures⟩

theorem equals_self (h : v.HasType type) (htype : type ≠ .datetime) : v.equals v = true := by
  have hself : linearOrder v v = .eq := Std.ReflCmp.compare_self
  rw [equals_eq_linearOrder h h htype, decide_eq_true hself]

/-- A moment is equal to what is read of its text, unless its offset is lost or it is ambiguous. -/
theorem equals_moment_readBack {m : Moment} (hv : v.moment? = some m) :
    v.equals (moment m.readBack) = (!v.isAmbiguous && !m.hasBriefOffset) := by
  have hsame : decide (m.instant = m.readBack.instant) = !m.hasBriefOffset := by
    rw [Bool.eq_iff_iff, decide_eq_true_iff, m.instant_readBack_iff, Bool.not_eq_true']
  rw [equals_of_moment? hv, hsame]

/-- A value is equal to what is read of its text, unless its offset is lost or the clocks of its
zone show it twice or never. -/
theorem equals_readBack (h : v.IsWritable type) :
    v.equals v.readBack = (!v.isAmbiguous && !v.hasBriefOffset) := by
  cases h with
  | moment t => exact equals_moment_readBack rfl
  | zoned t => exact equals_moment_readBack rfl
  | int h => exact equals_self (.int _) nofun
  | decimal h => exact equals_self (.decimal _) nofun
  | bool b => exact equals_self (.bool b) nofun
  | date d => exact equals_self (.date d) nofun
  | uuid u => exact equals_self (.uuid u) nofun

end Value

/-! ## Reading -/

namespace Literal

theorem withPoints_of_subset {t : Text} (h : t ⊆ figures) : withPoints t = t := by
  have hne : ∀ c ∈ t, c ≠ ',' := forall_mem_of_subset_figures (by decide) h
  exact (List.map_congr_left fun c hc ↦ if_neg (hne c hc)).trans (List.map_id t)

theorem zulu_of_notMem {t : Text} (h : 'Z' ∉ t) : date?.zulu t = t := by
  induction t with
  | nil => rfl
  | cons c t ih =>
      obtain ⟨hc, ht⟩ := not_or.mp (mt List.mem_cons.mpr h)
      have hne : c ≠ 'Z' := Ne.symm hc
      have hrest : date?.zulu t = t := ih ht
      simp only [date?.zulu] at hrest ⊢
      rw [List.flatMap_cons, if_neg hne, hrest]
      rfl

theorem length_ofInt_le {n : Int} (h : fitsInt64 n = true) : (Text.ofInt n).length ≤ 20 := by
  obtain ⟨hmin, hmax⟩ := fitsInt64_iff.mp h
  rw [int64Min] at hmin
  rw [int64Max] at hmax
  cases n with
  | ofNat k =>
      rw [Int.ofNat_eq_natCast] at hmax
      have hlength : (Text.ofNat k).length ≤ 19 := Text.length_ofNat_le (by decide) (by omega)
      exact Nat.le_succ_of_le hlength
  | negSucc k =>
      have hlength : (Text.ofNat (k + 1)).length ≤ 19 := Text.length_ofNat_le (by decide) (by omega)
      exact Nat.succ_le_succ hlength

theorem int_ofInt {n : Int} (h : fitsInt64 n = true) : int (Text.ofInt n) = .ok n := by
  have hnumeral := isWholeNumeral_ofInt n
  have hseparator : '_' ∉ Text.ofInt n := fun h ↦ absurd (ofInt_subset_figures n h) (by decide)
  have hzero : ∀ c ∈ Text.ofInt n, Text.digitValue? c = some 0 → c = '0' :=
    forall_mem_of_subset_figures (by decide) (ofInt_subset_figures n)
  have hdigits : digitsIn (Text.ofInt n) ≤ digitLimit :=
    Nat.le_trans (List.length_filter_le _ _) (Nat.le_trans (length_ofInt_le h) (by decide))
  exact int_eq_ok_iff.mpr ⟨⟨hnumeral, hdigits, h⟩, hnumeral.length_significant_le h
    hseparator hzero⟩

theorem date?_of_dateOnly? {t : Text} {d : Date} (h : dateOnly? t = some d) : date? t = some d := by
  unfold dateOnly? at h
  unfold date?
  dsimp only at h ⊢
  split at h
  · cases h
  · next hday => rwa [if_neg hday]

theorem moment?_of_trim {t : Text} {m : Moment} (ht : Text.trim t = m.text 'T') :
    dateOnly? t = none ∧ moment? t = some m.readBack := by
  have hletter : 'T' ∈ Text.trim t := by
    rw [ht]
    simp [Moment.text]
  have hday : dateOnly? t = none := if_pos (.inl hletter)
  have hzulu : 'Z' ∉ m.text 'T' := fun h ↦ absurd (m.text_subset_figures h) (by decide)
  rw [moment?, hday, ht, zulu_of_notMem hzulu]
  dsimp only
  rw [Iso.moment?_text, Option.map_some, Moment.inUtc_map_readBack]
  exact ⟨rfl, rfl⟩

/-- A written value is read, whatever blanks stand around it. -/
theorem read_of_trim {type : FieldType} {v : Value} (hv : v.IsWritable type) {t : Text}
    (ht : v.written = .ok (Text.trim t)) : read type t = .ok v.readBack := by
  cases hv with
  | @int n h =>
      have htext : Text.ofInt n = Text.trim t :=
        Except.ok.inj ((Value.plain_int (Value.natAbs_lt_intBound h)).symm.trans ht)
      have hint : int (withPoints (Text.trim t)) = .ok n := by
        rw [← htext, withPoints_of_subset (ofInt_subset_figures n), int_ofInt h]
      rw [read, hint]
      rfl
  | @decimal d h =>
      have htext : d.text = Text.trim t := Except.ok.inj ht
      have hdecimal : readDecimal? (withPoints (Text.trim t)) = some d := by
        rw [← htext, withPoints_of_subset d.text_subset_figures, Decimal.readDecimal?_text h]
      rw [read, hdecimal]
      rfl
  | bool b =>
      have htext : Value.boolText b = Text.trim t := Except.ok.inj ht
      have hbool : bool? t = some b := by
        rw [bool?, normalName, ← htext]
        cases b <;> decide
      rw [read, hbool]
      rfl
  | date d =>
      have hday : dateOnly? t = some d :=
        dateOnly?_of_trim d.isSpelling_text (Except.ok.inj ht).symm
      rw [read, date?_of_dateOnly? hday]
      rfl
  | moment | zoned =>
      rw [read, (moment?_of_trim (Except.ok.inj ht).symm).2]
      rfl
  | uuid u =>
      have htext : u.text = Text.trim t := Except.ok.inj ht
      have huuid : Uuid.read? (Text.trim t) = some u := by
        rw [← htext]
        exact u.read?_text
      rw [read, huuid]
      rfl

end Literal

/-! ## Equality with a written value -/

/-- A written value is no day to a field of moments. -/
theorem Value.IsWritable.dateOnly?_eq_none {v : Value} (hv : v.IsWritable .datetime) {t : Text}
    (ht : v.written = .ok (Text.trim t)) : Literal.dateOnly? t = none := by
  cases hv with
  | moment | zoned => exact (Literal.moment?_of_trim (Except.ok.inj ht).symm).1

theorem Test.ofEquality_written {f : Field} {v : Value} (hv : v.IsWritable f.type) {t : Text}
    (ht : v.written = .ok (Text.trim t)) : ofEquality f t = .ok (.equals v.readBack) := by
  have htext : f.type ≠ .text := by
    intro htype
    cases htype ▸ hv
  have hday : f.type = .datetime → Literal.dateOnly? t = none :=
    fun htype ↦ (htype ▸ hv).dateOnly?_eq_none ht
  exact ofEquality_of_read htext hday (Field.read_eq_ok_iff.mpr (Literal.read_of_trim hv ht))

namespace Field

variable {f : Field} {v : Value} {before after : Text}

/-- The text of a value, between blanks, is read as that value, a moment without an offset being
placed in UTC and one in a zone at its offset; an offset of less than a second is lost. A filter
that asks for equality with the text accepts the records with the value, unless its offset is lost
or the clocks of its zone show it twice or never. -/
theorem read_written (hv : v.IsWritable f.type) (hbefore : ∀ c ∈ before, isBlank c = true)
    (hafter : ∀ c ∈ after, isBlank c = true) :
    ∃ u, v.written = .ok u ∧
      let t := before ++ u ++ after
      let equal := !v.isAmbiguous && !v.hasBriefOffset
      f.read t = .ok v.readBack ∧ v.equals v.readBack = equal ∧
        ∀ (schema : Schema) (name : Text), schema.resolve? name = some f →
          ∃ a, Filter.alternative schema ⟨name, [t], .equals⟩ = .ok a ∧
            ∀ r : Record, r.value f.name = v → a.holds r = .ok equal := by
  obtain ⟨u, hu, hblank⟩ := hv.exists_written
  have ht : v.written = .ok (Text.trim (before ++ u ++ after)) := by
    rw [trim_append_append hbefore hblank hafter, hu]
  have hequals := Value.equals_readBack hv
  refine ⟨u, hu, read_eq_ok_iff.mpr (Literal.read_of_trim hv ht), hequals,
    fun schema name hfield ↦ ⟨[⟨f.name, .equals v.readBack⟩], ?_, fun r hr ↦ ?_⟩⟩
  · rw [Filter.alternative_singleton hfield, Test.ofOperator, Test.ofEquality_written hv ht]
    rfl
  · rw [Alternative.holds_singleton, Branch.holds, hr, Test.holds_equals_of_hasType hv.hasType,
      hequals]

/-- The last second of a leap day, some hours and half a second west of UTC. -/
theorem read_written_leap :
    let createdAt : Field := Catalog.field "created_at" .datetime
    let w : Moment := ⟨⟨2024, 2, 29, by decide⟩, ⟨23, 59, 59, 1, by decide⟩,
      some ⟨-19815500000, by decide⟩⟩
    let t := " 2024-02-29T23:59:59.000001-05:30:15.500000\n".toList
    createdAt.read t = .ok (.moment w) ∧
      ∃ a, Filter.alternative Catalog.customers.schema ⟨"createdAt".toList, [t], .equals⟩ = .ok a ∧
        a.holds [("created_at".toList, .moment w)] = .ok true := by
  intro createdAt w t
  have hv : (Value.moment w).IsWritable createdAt.type := .moment w
  obtain ⟨u, hu, hread, -, hfilter⟩ := read_written hv
    (List.forall_mem_singleton.mpr (by decide : isBlank ' ' = true))
    (List.forall_mem_singleton.mpr (by decide : isBlank '\n' = true))
  have ht : [' '] ++ u ++ ['\n'] = t := by
    rw [← Except.ok.inj hu]
    decide
  obtain ⟨a, ha, hholds⟩ := hfilter _ _ Catalog.resolve?_createdAt
  rw [ht] at hread ha
  exact ⟨hread, a, ha, hholds _ rfl⟩

/-- An offset of half a second is read as none at all, and the moment is not equal to itself. -/
theorem read_written_brief :
    let createdAt : Field := Catalog.field "created_at" .datetime
    let w : Moment := ⟨⟨2024, 2, 29, by decide⟩, ⟨7, 0, 0, 0, by decide⟩,
      some ⟨500000, by decide⟩⟩
    let t := "2024-02-29T07:00:00+00:00:00.500000".toList
    (Value.moment w).written = .ok t ∧
      createdAt.read t = .ok (.moment { w with offset := some Offset.utc }) ∧
      ∃ a, Filter.alternative Catalog.customers.schema ⟨"createdAt".toList, [t], .equals⟩ = .ok a ∧
        a.holds [("created_at".toList, .moment w)] = .ok false := by
  intro createdAt w t
  have hday : Literal.dateOnly? t = none := by decide
  have hmoment : Literal.moment? t = some { w with offset := some Offset.utc } := by decide
  have hunequal :
      Value.equals (.moment w) (.moment { w with offset := some Offset.utc }) = false := by
    decide
  refine ⟨by decide, (read_moment_iff rfl).mpr ⟨_, hmoment, rfl⟩, _,
    Filter.alternative_equals_moment Catalog.resolve?_createdAt rfl hday hmoment, ?_⟩
  rw [Alternative.holds_singleton]
  exact congrArg Except.ok hunequal

end Field

end RecordQuery
