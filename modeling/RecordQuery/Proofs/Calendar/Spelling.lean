import RecordQuery.Proofs.Calendar.Digits
import RecordQuery.Proofs.Calendar.Week

namespace RecordQuery

/-!
# Written days

The forms in which a day is written, by month and by week, with and without
hyphens. A text is read as a day if it has one of these forms; after eight
characters without hyphens two bytes more are passed over.
-/

/-! ## Hyphens -/

namespace Iso

variable {t rest : Text}

/-- What stands between the parts of a date. -/
def separator (extended : Bool) : Text := if extended then ['-'] else []

theorem hyphen_eq_some_iff {extended : Bool} :
    hyphen extended t = some rest ↔ t = separator extended ++ rest := by
  cases extended with
  | false => simp [hyphen, separator]
  | true =>
      cases t with
      | nil => exact iff_of_false nofun nofun
      | cons c t =>
          by_cases hc : c = '-'
          · subst hc
            simp [hyphen, separator]
          · refine iff_of_false ?_ fun h ↦ hc (List.cons.inj h).1
            simp [hyphen, hc]

end Iso

/-! ## Forms of days -/

open Text in
/-- A day by month or by week, with hyphens or without. Of a week by itself Monday is meant. -/
inductive Date.IsSpelling (d : Date) (extended : Bool) : Text → Prop
  | month : d.IsSpelling extended (padded 4 d.year ++ (Iso.separator extended ++
      (padded 2 d.month ++ (Iso.separator extended ++ padded 2 d.day))))
  | week {y w k : Nat} (h : d.IsWeekDay y w k) : d.IsSpelling extended (padded 4 y ++
      (Iso.separator extended ++ 'W' :: (padded 2 w ++ (Iso.separator extended ++ padded 1 k))))
  | monday {y w : Nat} (h : d.IsWeekDay y w 1) : d.IsSpelling extended (padded 4 y ++
      (Iso.separator extended ++ 'W' :: padded 2 w))

/-- A digit, a hyphen or the sign of a week. -/
def Iso.IsDateChar (c : Char) : Prop := (∃ k < 10, c = Nat.digitChar k) ∨ c = '-' ∨ c = 'W'

theorem Date.IsSpelling.forall_mem {d : Date} {extended : Bool} {s : Text}
    (h : d.IsSpelling extended s) : ∀ c ∈ s, Iso.IsDateChar c := by
  have hpadded : ∀ width n, ∀ c ∈ Text.padded width n, Iso.IsDateChar c :=
    fun width n c hc ↦ .inl (Text.mem_padded hc)
  have hseparator : ∀ c ∈ Iso.separator extended, Iso.IsDateChar c := by
    cases extended with
    | false => exact nofun
    | true => exact fun c hc ↦ .inr (.inl (List.mem_singleton.mp hc))
  have hsign : Iso.IsDateChar 'W' := .inr (.inr rfl)
  cases h with
  | month =>
      simp only [List.forall_mem_append]
      exact ⟨hpadded _ _, hseparator, hpadded _ _, hseparator, hpadded _ _⟩
  | week =>
      simp only [List.forall_mem_append, List.forall_mem_cons]
      exact ⟨hpadded _ _, hseparator, hsign, hpadded _ _, hseparator, hpadded _ _⟩
  | monday =>
      simp only [List.forall_mem_append, List.forall_mem_cons]
      exact ⟨hpadded _ _, hseparator, hsign, hpadded _ _⟩

namespace Iso

open Text

variable {extended : Bool} {length y m w : Nat} {t : Text} {d : Date}

theorem head?_separator_append {c : Char} (hc : c ≠ '-') (t : Text) :
    (separator extended ++ c :: t).head? = some '-' ↔ extended = true := by
  cases extended with
  | false => exact iff_of_false (fun h ↦ hc (Option.some.inj h)) nofun
  | true => exact iff_of_true rfl rfl

theorem drop_separator_append (t : Text) :
    (if extended = true then (separator extended ++ t).drop 1 else separator extended ++ t) =
      t := by
  cases extended <;> rfl

theorem datePart_week (hy : y < 10 ^ 4) (hw : w < 10 ^ 2) :
    datePart length (padded 4 y ++ (separator extended ++ 'W' :: (padded 2 w ++ t))) =
      if (if extended then 8 else 7) < length then
        ((hyphen extended t).bind (digits 1)).bind fun (k, _) ↦ Date.ofWeek? y w k
      else Date.ofWeek? y w 1 := by
  have hweek := digits_padded (by decide) hw t
  rw [datePart, digits_padded (by decide) hy]
  simp only [head?_separator_append (by decide : 'W' ≠ '-'), drop_separator_append, hweek,
    Bool.decide_eq_true]
  cases (hyphen extended t).bind (digits 1) <;> rfl

theorem datePart_month (hy : y < 10 ^ 4) (hm : m < 10 ^ 2) :
    datePart length (padded 4 y ++ (separator extended ++ (padded 2 m ++ t))) =
      ((hyphen extended t).bind (digits 2)).bind fun (k, _) ↦ Date.of? y m k := by
  have hne : ∀ k < 10, Nat.digitChar k ≠ '-' ∧ Nat.digitChar k ≠ 'W' := by decide
  have hmonth := digits_padded (by decide) hm t
  obtain ⟨k, hk, t', ht'⟩ := exists_padded_eq_cons 2 m
  rw [ht', List.cons_append] at hmonth ⊢
  rw [datePart, digits_padded (by decide) hy]
  simp only [head?_separator_append (hne k hk).1, drop_separator_append, Bool.decide_eq_true]
  split
  · next h => exact absurd (List.cons.inj h).1 (hne k hk).2
  · rw [hmonth]
    dsimp only
    cases (hyphen extended t).bind (digits 2) <;> rfl

/-- What is read as a date begins with a year and a week or a month. -/
theorem exists_of_datePart (h : datePart length t = some d) :
    ∃ y < 10 ^ 4, ∃ extended,
      (∃ w < 10 ^ 2, ∃ rest,
        t = padded 4 y ++ (separator extended ++ 'W' :: (padded 2 w ++ rest))) ∨
      ∃ m < 10 ^ 2, ∃ rest, t = padded 4 y ++ (separator extended ++ (padded 2 m ++ rest)) := by
  rw [datePart] at h
  cases hyear : digits 4 t with
  | none =>
      rw [hyear] at h
      cases h
  | some yt =>
      obtain ⟨y, t₁⟩ := yt
      obtain ⟨hy, rfl⟩ := (digits_eq_some_iff (by decide)).mp hyear
      rw [hyear] at h
      have hsplit : t₁ = separator (t₁.head? = some '-') ++
          (if t₁.head? = some '-' then t₁.drop 1 else t₁) := by
        by_cases hhead : t₁.head? = some '-'
        · obtain ⟨t₂, rfl⟩ := List.head?_eq_some_iff.mp hhead
          rfl
        · simp [hhead, separator]
      refine ⟨y, hy, decide (t₁.head? = some '-'), ?_⟩
      dsimp only at h
      generalize (if t₁.head? = some '-' then t₁.drop 1 else t₁) = t₂ at h hsplit
      split at h
      · next t₃ =>
          cases hweek : digits 2 t₃ with
          | none =>
              rw [hweek] at h
              cases h
          | some wt =>
              obtain ⟨w, t₄⟩ := wt
              obtain ⟨hw, rfl⟩ := (digits_eq_some_iff (by decide)).mp hweek
              exact .inl ⟨w, hw, t₄, congrArg _ hsplit⟩
      · cases hmonth : digits 2 t₂ with
        | none =>
            rw [hmonth] at h
            cases h
        | some mt =>
            obtain ⟨m, t₃⟩ := mt
            obtain ⟨hm, rfl⟩ := (digits_eq_some_iff (by decide)).mp hmonth
            exact .inr ⟨m, hm, t₃, congrArg _ hsplit⟩

theorem length_utf8_separator_append (extended : Bool) (t : Text) :
    (utf8 (separator extended ++ t)).length = (if extended then 1 else 0) + (utf8 t).length := by
  cases extended with
  | false => exact (Nat.zero_add _).symm
  | true => exact length_utf8_cons (by decide) t

theorem length_utf8_week (hy : y < 10 ^ 4) (hw : w < 10 ^ 2) :
    (utf8 (padded 4 y ++ (separator extended ++ 'W' :: (padded 2 w ++ t)))).length =
      (if extended then 8 else 7) + (utf8 t).length := by
  rw [length_utf8_padded_append (by decide) hy, length_utf8_separator_append,
    length_utf8_cons (by decide), length_utf8_padded_append (by decide) hw]
  split <;> omega

theorem length_utf8_month (hy : y < 10 ^ 4) (hm : m < 10 ^ 2) :
    (utf8 (padded 4 y ++ (separator extended ++ (padded 2 m ++ t)))).length =
      (if extended then 7 else 6) + (utf8 t).length := by
  rw [length_utf8_padded_append (by decide) hy, length_utf8_separator_append,
    length_utf8_padded_append (by decide) hm]
  split <;> omega

theorem length_utf8_day {n k : Nat} (hn : 0 < n) (hk : k < 10 ^ n) :
    (utf8 (separator extended ++ (padded n k ++ t))).length =
      (if extended then 1 else 0) + n + (utf8 t).length := by
  rw [length_utf8_separator_append, length_utf8_padded_append hn hk, Nat.add_assoc]

theorem bind_digits_eq_some_iff {α : Type} {n : Nat} (hn : 0 < n) {g : Nat → Option α} {a : α} :
    (((hyphen extended t).bind (digits n)).bind fun (k, _) ↦ g k) = some a ↔
      ∃ k < 10 ^ n, ∃ rest, t = separator extended ++ (padded n k ++ rest) ∧ g k = some a := by
  simp only [Option.bind_eq_some_iff, hyphen_eq_some_iff, digits_eq_some_iff hn, Prod.exists]
  constructor
  · rintro ⟨k, rest, ⟨_, rfl, hk, rfl⟩, hg⟩
    exact ⟨k, hk, rest, rfl, hg⟩
  · rintro ⟨k, hk, rest, rfl, hg⟩
    exact ⟨k, rest, ⟨_, rfl, hk, rfl⟩, hg⟩

section

variable {s rest : Text} (hs : d.IsSpelling extended s)

include hs

theorem length_utf8_spelling (rest : Text) :
    (utf8 (s ++ rest)).length = (if extended then 10 else 8) + (utf8 rest).length ∨
      (utf8 (s ++ rest)).length = (if extended then 8 else 7) + (utf8 rest).length := by
  cases hs with
  | month =>
      left
      simp only [List.append_assoc]
      rw [length_utf8_month d.year_lt d.month_lt, length_utf8_day (by decide) d.day_lt]
      split <;> omega
  | week h =>
      left
      simp only [List.append_assoc, List.cons_append]
      rw [length_utf8_week h.year_lt h.week_lt, length_utf8_day (by decide) h.weekday_lt]
      split <;> omega
  | monday h =>
      right
      simp only [List.append_assoc, List.cons_append]
      exact length_utf8_week h.year_lt h.week_lt

theorem datePart_spelling (hrest : rest = [] ∨
      extended = false ∧ (utf8 (s ++ rest)).length = 10 ∧ (utf8 rest).length = 2) :
    datePart (utf8 (s ++ rest)).length (s ++ rest) = some d := by
  cases hs with
  | month =>
      simp only [List.append_assoc]
      rw [datePart_month d.year_lt d.month_lt]
      exact (bind_digits_eq_some_iff (by decide)).mpr ⟨d.day, d.day_lt, rest, rfl, d.of?_self⟩
  | week h =>
      simp only [List.append_assoc, List.cons_append]
      rw [datePart_week h.year_lt h.week_lt, length_utf8_week h.year_lt h.week_lt, if_pos]
      · exact (bind_digits_eq_some_iff (by decide)).mpr
          ⟨_, h.weekday_lt, rest, rfl, Date.ofWeek?_eq_some_iff.mpr h⟩
      · rw [length_utf8_day (by decide) h.weekday_lt]
        omega
  | monday h =>
      simp only [List.append_assoc, List.cons_append] at hrest ⊢
      rw [length_utf8_week h.year_lt h.week_lt] at hrest
      rw [datePart_week h.year_lt h.week_lt, length_utf8_week h.year_lt h.week_lt, if_neg]
      · exact Date.ofWeek?_eq_some_iff.mpr h
      · rcases hrest with rfl | ⟨rfl, hten, htwo⟩
        · exact Nat.lt_irrefl _
        · rw [if_neg (by decide)] at hten
          omega

end

/-- After a day without hyphens there is room for two bytes. -/
theorem rest_of_length {n : Nat} {rest : Text} (hn : n = 7 ∨ n = 8 ∨ n = 10)
    (hlength : n = (if extended then 10 else 8) + (utf8 rest).length) :
    rest = [] ∨ extended = false ∧ n = 10 ∧ (utf8 rest).length = 2 := by
  cases extended with
  | true =>
      rw [if_pos rfl] at hlength
      exact .inl (eq_nil_of_length_utf8 (by omega))
  | false =>
      rw [if_neg (by decide)] at hlength
      rcases hn with hn | hn | hn
      · omega
      · exact .inl (eq_nil_of_length_utf8 (by omega))
      · exact .inr ⟨rfl, hn, by omega⟩

/-- A text is read as a day if it is written in one of the forms of the day. Of ten bytes the last
two may follow a day without hyphens. -/
theorem date?_eq_some_iff : date? t = some d ↔
    ∃ extended s rest, t = s ++ rest ∧ d.IsSpelling extended s ∧
      (rest = [] ∨ extended = false ∧ (utf8 t).length = 10 ∧ (utf8 rest).length = 2) := by
  constructor
  · intro h
    obtain ⟨hlength, h⟩ := Option.ite_none_right_eq_some.mp h
    obtain ⟨y, hy, extended, ⟨w, hw, rest, rfl⟩ | ⟨m, hm, rest, rfl⟩⟩ := exists_of_datePart h
    · rw [datePart_week hy hw, length_utf8_week hy hw] at h
      simp only [Nat.lt_add_right_iff_pos] at h
      by_cases hrest : 0 < (utf8 rest).length
      · rw [if_pos hrest] at h
        obtain ⟨k, hk, rest, rfl, hd⟩ := (bind_digits_eq_some_iff (by decide)).mp h
        refine ⟨extended, _, rest, ?_, .week (Date.ofWeek?_eq_some_iff.mp hd),
          rest_of_length hlength ?_⟩
        · simp only [List.append_assoc, List.cons_append]
        · rw [length_utf8_week hy hw, length_utf8_day (by decide) hk]
          split <;> omega
      · rw [if_neg hrest] at h
        refine ⟨extended, _, rest, ?_, .monday (Date.ofWeek?_eq_some_iff.mp h), .inl ?_⟩
        · simp only [List.append_assoc, List.cons_append]
        · exact eq_nil_of_length_utf8 (Nat.eq_zero_of_not_pos hrest)
    · rw [datePart_month hy hm] at h
      obtain ⟨k, hk, rest, rfl, hd⟩ := (bind_digits_eq_some_iff (by decide)).mp h
      obtain ⟨rfl, rfl, rfl⟩ := Date.of?_eq_some_iff.mp hd
      refine ⟨extended, _, rest, ?_, .month, rest_of_length hlength ?_⟩
      · simp only [List.append_assoc]
      · rw [length_utf8_month hy hm, length_utf8_day (by decide) hk]
        split <;> omega
  · rintro ⟨extended, s, rest, rfl, hs, hrest⟩
    refine Option.ite_none_right_eq_some.mpr ⟨?_, datePart_spelling hs hrest⟩
    rcases hrest with rfl | ⟨-, hten, -⟩
    · have hempty : (utf8 []).length = 0 := rfl
      have hlength := length_utf8_spelling hs []
      cases extended <;> simp only [hempty, if_true, if_neg Bool.false_ne_true] at hlength <;> omega
    · exact .inr (.inr hten)

end Iso

end RecordQuery
