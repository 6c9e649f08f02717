import RecordQuery.Proofs.Calendar.Spelling

namespace RecordQuery

/-!
# Written moments

A moment is read as it is written, its microseconds and its offset
included, unless the offset is less than a second long: that is read as
none at all.
-/

open Text

theorem Date.text_eq (d : Date) : d.text = padded 4 d.year ++ (Iso.separator true ++
    (padded 2 d.month ++ (Iso.separator true ++ padded 2 d.day))) := by
  simp [text, Iso.separator]

/-- A day is written by month, with hyphens. -/
theorem Date.isSpelling_text (d : Date) : d.IsSpelling true d.text := by
  rw [text_eq]
  exact .month

/-! ## Times -/

namespace Iso

variable {colons : Bool} {n v us : Nat} {rest : Text}

theorem fractionPart_padded (hus : us < 10 ^ 6) :
    fractionPart (padded 6 us) = some (us, false) := by
  have hdigits := digits_padded (by decide : 0 < 6) hus []
  have hlength := length_padded (by decide) hus
  rw [List.append_nil] at hdigits
  rw [fractionPart, hlength]
  simp [hdigits, isLeftOver]

theorem timeNumbers_last (hv : v < 10 ^ 2) :
    timeNumbers colons (n + 1) (padded 2 v) = some ([v], 0, false) := by
  have hdigits := digits_padded (by decide) hv []
  rw [List.append_nil] at hdigits
  rw [timeNumbers, hdigits]

theorem timeNumbers_point (hv : v < 10 ^ 2) (hus : us < 10 ^ 6) :
    timeNumbers colons (n + 1) (padded 2 v ++ '.' :: padded 6 us) = some ([v], us, false) := by
  obtain ⟨d, -, t, ht⟩ := exists_padded_eq_cons 6 us
  have hfraction := fractionPart_padded hus
  rw [ht] at hfraction ⊢
  rw [timeNumbers, digits_padded (by decide) hv]
  simp [hfraction]

theorem timeNumbers_colon (hv : v < 10 ^ 2) (hrest : rest ≠ []) :
    timeNumbers true (n + 1) (padded 2 v ++ ':' :: rest) =
      (timeNumbers true n rest).map fun (vs, us, left) ↦ (v :: vs, us, left) := by
  obtain ⟨c, t, rfl⟩ := List.exists_cons_of_ne_nil hrest
  rw [timeNumbers, digits_padded (by decide) hv]
  rfl

theorem charAt_padded (hv : v < 10 ^ 2) (rest : Text) :
    charAt (padded 2 v ++ ':' :: rest) 2 = some ':' := by
  have hlength := length_padded (by decide : 0 < 2) hv
  rw [charAt, List.getElem?_append_right (Nat.le_of_eq hlength), hlength]
  rfl

section

variable {h m s us : Nat} (hh : h < 10 ^ 2) (hm : m < 10 ^ 2) (hs : s < 10 ^ 2) (hus : us < 10 ^ 6)

include hh hm

theorem timePart_minutes :
    timePart (padded 2 h ++ ':' :: padded 2 m) = some ⟨h, m, 0, 0, false⟩ := by
  rw [timePart, charAt_padded hh, decide_eq_true rfl, timeNumbers_colon hh (by simp [padded]),
    timeNumbers_last hm]
  rfl

include hs

theorem timePart_seconds :
    timePart (padded 2 h ++ ':' :: (padded 2 m ++ ':' :: padded 2 s)) =
      some ⟨h, m, s, 0, false⟩ := by
  rw [timePart, charAt_padded hh, decide_eq_true rfl, timeNumbers_colon hh (by simp),
    timeNumbers_colon hm (by simp [padded]), timeNumbers_last hs]
  rfl

include hus

theorem timePart_micros :
    timePart (padded 2 h ++ ':' :: (padded 2 m ++ ':' :: (padded 2 s ++ '.' :: padded 6 us))) =
      some ⟨h, m, s, us, false⟩ := by
  rw [timePart, charAt_padded hh, decide_eq_true rfl, timeNumbers_colon hh (by simp),
    timeNumbers_colon hm (by simp), timeNumbers_point hs hus]
  rfl

end

theorem timePart_clock (c : Clock) : timePart (c.text (c.micro ≠ 0)) =
    some ⟨c.hour, c.minute, c.second, c.micro, false⟩ := by
  obtain ⟨hh, hm, hs, hus⟩ := c.isClock
  rw [Clock.text]
  simp only [List.append_assoc, List.cons_append]
  by_cases hmicro : c.micro = 0
  · simp only [hmicro, ne_eq, not_true, decide_false, Bool.false_eq_true, if_false,
      List.append_nil]
    exact timePart_seconds (by omega) (by omega) (by omega)
  · simp only [hmicro, ne_eq, not_false_eq_true, decide_true, if_true]
    exact timePart_micros (by omega) (by omega) (by omega) hus

end Iso

/-! ## Offsets -/

namespace Offset

/-- A time span as an offset is written: seconds, and what is left of them, only where it is not a
whole minute. -/
def spanText (us : Nat) : Text :=
  padded 2 (us / 1000000 / 3600) ++ ':' :: (padded 2 (us / 1000000 / 60 % 60) ++
    ((if us % 60000000 = 0 then [] else ':' :: padded 2 (us / 1000000 % 60)) ++
      (if us % 1000000 = 0 then [] else '.' :: padded 6 (us % 1000000))))

theorem text_eq (o : Offset) :
    o.text = (if o.micros < 0 then '-' else '+') :: spanText o.micros.natAbs := by
  simp [text, spanText]

/-- What is read of a written offset: one of less than a second is lost. -/
def readBack (o : Offset) : Offset := if o.micros.natAbs < 1000000 then utc else o

end Offset

namespace Iso

theorem timePart_spanText {us : Nat} (h : us < microsPerDay) : timePart (Offset.spanText us) =
    some ⟨us / 1000000 / 3600, us / 1000000 / 60 % 60, us / 1000000 % 60, us % 1000000, false⟩ := by
  unfold microsPerDay at h
  rw [Offset.spanText]
  by_cases hminutes : us % 60000000 = 0
  · have hsecond : us / 1000000 % 60 = 0 := by omega
    have hmicro : us % 1000000 = 0 := by omega
    rw [if_pos hminutes, if_pos hmicro, List.append_nil, List.append_nil, hsecond, hmicro]
    exact timePart_minutes (by omega) (by omega)
  · rw [if_neg hminutes]
    by_cases hmicro : us % 1000000 = 0
    · rw [if_pos hmicro, List.append_nil, hmicro]
      exact timePart_seconds (by omega) (by omega) (by omega)
    · rw [if_neg hmicro]
      exact timePart_micros (by omega) (by omega) (by omega) (by omega)

theorem offset?_spanText (o : Offset) :
    offset? (o.micros < 0) (Offset.spanText o.micros.natAbs) = some o.readBack := by
  have hlt := o.lt_day
  have hseconds (us : Nat) : us / 1000000 / 3600 * 3600 + us / 1000000 / 60 % 60 * 60 +
      us / 1000000 % 60 = us / 1000000 := by omega
  have hmicros (us : Nat) : us / 1000000 * 1000000 + us % 1000000 = us := by omega
  rw [offset?, timePart_spanText hlt]
  simp only [hseconds, hmicros, Bool.false_eq_true, if_false]
  unfold Offset.readBack
  by_cases hsmall : o.micros.natAbs < 1000000
  · have hzero : o.micros.natAbs / 1000000 = 0 := Nat.div_eq_of_lt hsmall
    rw [if_pos hsmall, if_pos hzero]
  · have hpos : o.micros.natAbs / 1000000 ≠ 0 := by omega
    have hsigned : (if decide (o.micros < 0) = true then -(o.micros.natAbs : Int)
        else o.micros.natAbs) = o.micros := by
      by_cases hnegative : o.micros < 0
      · rw [if_pos (decide_eq_true hnegative)]
        omega
      · rw [if_neg (by simpa using hnegative)]
        omega
    rw [if_neg hsmall, if_neg hpos, hsigned]
    exact dif_pos hlt

/-! ## Moments -/

theorem isOffsetSign_of_mem_text {c : Clock} {fraction : Bool} :
    ∀ x ∈ c.text fraction, isOffsetSign x = false := by
  have hdigits : ∀ d < 10, isOffsetSign (Nat.digitChar d) = false := by decide
  have hpadded : ∀ width n, ∀ x ∈ padded width n, isOffsetSign x = false := by
    intro width n x hx
    obtain ⟨d, hd, rfl⟩ := mem_padded hx
    exact hdigits d hd
  have hsigns : isOffsetSign ':' = false ∧ isOffsetSign '.' = false := by decide
  cases fraction with
  | false =>
      simp only [Clock.text, List.forall_mem_append, List.forall_mem_cons, hsigns, true_and,
        Bool.false_eq_true, if_false, List.append_nil]
      exact ⟨⟨hpadded _ _, hpadded _ _⟩, hpadded _ _⟩
  | true =>
      simp only [Clock.text, List.forall_mem_append, List.forall_mem_cons, hsigns, true_and,
        if_true]
      exact ⟨⟨⟨hpadded _ _, hpadded _ _⟩, hpadded _ _⟩, hpadded _ _⟩

theorem timeAndOffset?_text (c : Clock) (o : Option Offset) :
    timeAndOffset? (c.text (c.micro ≠ 0) ++ (o.map Offset.text).getD []) =
      some (c, o.map Offset.readBack) := by
  have hclock : Clock.of? c.hour c.minute c.second c.micro = some c := dif_pos c.isClock
  have htime := timePart_clock c
  have hsigns : ∀ x ∈ c.text (c.micro ≠ 0), (!isOffsetSign x) = true := fun x hx ↦ by
    rw [isOffsetSign_of_mem_text x hx]
    rfl
  generalize c.text (c.micro ≠ 0) = time at htime hsigns ⊢
  rw [timeAndOffset?, List.takeWhile_append_of_pos hsigns, List.dropWhile_append_of_pos hsigns]
  cases o with
  | none => simp [htime, hclock]
  | some o =>
      have hminus : isOffsetSign '-' = true := rfl
      have hplus : isOffsetSign '+' = true := rfl
      have hoffset := offset?_spanText o
      rw [Option.map_some, Option.getD_some, Offset.text_eq]
      by_cases hnegative : o.micros < 0
      · rw [decide_eq_true hnegative] at hoffset
        simp [hnegative, hminus, htime, hclock, hoffset]
      · rw [decide_eq_false hnegative] at hoffset
        simp [hnegative, hplus, htime, hclock, hoffset]

theorem datePart_text (d : Date) (rest : Text) {length : Nat} :
    datePart length (d.text ++ rest) = some d := by
  rw [Date.text_eq]
  simp only [List.append_assoc]
  rw [datePart_month d.year_lt d.month_lt]
  exact (bind_digits_eq_some_iff (by decide)).mpr ⟨d.day, d.day_lt, rest, rfl, d.of?_self⟩

theorem length_text (d : Date) : d.text.length = 10 := by
  simp only [Date.text, List.length_append, List.length_cons, length_padded (by decide) d.year_lt,
    length_padded (by decide) d.month_lt, length_padded (by decide) d.day_lt]

theorem separatorPlace_text (d : Date) (rest : Text) : separatorPlace (d.text ++ rest) = 10 := by
  have hlength : (d.text ++ rest).length ≠ 7 := by
    rw [List.length_append, length_text]
    omega
  have hyear := length_padded (by decide : 0 < 4) d.year_lt
  have hhyphen : charAt (d.text ++ rest) 4 = some '-' := by
    rw [charAt, Date.text, List.append_assoc, List.append_assoc,
      List.getElem?_append_right (Nat.le_of_eq hyear), hyear]
    rfl
  have hmonth : charAt (d.text ++ rest) 5 ≠ some 'W' := by
    have hdigits : ∀ k < 10, Nat.digitChar k ≠ 'W' := by decide
    obtain ⟨k, hk, t, ht⟩ := exists_padded_eq_cons 2 d.month
    rw [charAt, Date.text, List.append_assoc, List.append_assoc,
      List.getElem?_append_right (by omega), hyear, ht]
    exact fun h ↦ hdigits k hk (Option.some.inj h)
  rw [separatorPlace, if_neg hlength, if_pos hhyphen, if_neg hmonth]

/-- A moment is read as it is written, but for an offset of less than a second. -/
theorem moment?_text (separator : Char) (t : Moment) : moment? (t.text separator) =
    some ⟨t.date, t.clock, t.offset.map Offset.readBack⟩ := by
  have htext : t.text separator = t.date.text ++ separator ::
      (t.clock.text (t.clock.micro ≠ 0) ++ (t.offset.map Offset.text).getD []) := by
    obtain ⟨d, c, _ | o⟩ := t <;> simp [Moment.text]
  have hdrop : ∀ rest, (t.date.text ++ separator :: rest).drop (10 + 1) = rest := by
    intro rest
    rw [List.append_cons]
    exact List.drop_left' (by rw [List.length_append, length_text]; rfl)
  have hlong : ∀ rest, ¬(t.date.text ++ separator :: rest).length ≤ 10 := by
    intro rest
    rw [List.length_append, length_text, List.length_cons]
    omega
  rw [htext, moment?]
  simp only [separatorPlace_text, datePart_text, hdrop, hlong, if_false, timeAndOffset?_text]
  rfl

end Iso

end RecordQuery
