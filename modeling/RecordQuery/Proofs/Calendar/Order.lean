import RecordQuery.Database.Cell
import RecordQuery.Proofs.Text.Order

namespace RecordQuery

/-!
# The order of written dates

Dates and moments are written from the most significant number to the
least, each in digits of one width, so that their texts are in their order.
-/

/-! ## Dates -/

theorem add_one_div (k b : Nat) : (k + 1) / b = k / b + if (k + 1) % b = 0 then 1 else 0 := by
  rw [Nat.succ_div]
  simp only [Nat.dvd_iff_mod_eq_zero]

theorem daysBeforeYear_succ {y : Nat} (h : 1 ≤ y) :
    daysBeforeYear (y + 1) = daysBeforeYear y + daysInYear y := by
  obtain ⟨k, rfl⟩ : ∃ k, y = k + 1 := ⟨y - 1, by omega⟩
  have hle : k / 100 ≤ k / 4 := Nat.div_le_div_left (by decide) (by decide)
  have hcentury : (k + 1) % 100 = 0 → (k + 1) % 4 = 0 := by omega
  have hera : (k + 1) % 400 = 0 → (k + 1) % 100 = 0 := by omega
  simp only [daysBeforeYear, Nat.add_sub_cancel, daysInYear, isLeapYear, add_one_div]
  generalize k / 4 = a, k / 100 = b, k / 400 = c at *
  by_cases h₄₀₀ : (k + 1) % 400 = 0
  · have h₁₀₀ := hera h₄₀₀
    simp [h₄₀₀, h₁₀₀, hcentury h₁₀₀]
    omega
  · by_cases h₁₀₀ : (k + 1) % 100 = 0
    · simp [h₄₀₀, h₁₀₀, hcentury h₁₀₀]
      omega
    · by_cases h₄ : (k + 1) % 4 = 0
      · simp [h₄₀₀, h₁₀₀, h₄]
        omega
      · simp [h₄₀₀, h₁₀₀, h₄]
        omega

theorem daysBeforeYear_mono {y z : Nat} (hy : 1 ≤ y) (h : y < z) :
    daysBeforeYear y + daysInYear y ≤ daysBeforeYear z := by
  induction z, h using Nat.le_induction with
  | base => exact Nat.le_of_eq (daysBeforeYear_succ hy).symm
  | succ z hz ih =>
      have hstep := daysBeforeYear_succ (y := z) (by omega)
      omega

theorem daysBeforeMonth_succ {y m : Nat} (h : 1 ≤ m) :
    daysBeforeMonth y (m + 1) = daysBeforeMonth y m + daysInMonth y m := by
  obtain ⟨m, rfl⟩ : ∃ k, m = k + 1 := ⟨m - 1, by omega⟩
  rfl

theorem daysBeforeMonth_mono {y m n : Nat} (hm : 1 ≤ m) (h : m < n) :
    daysBeforeMonth y m + daysInMonth y m ≤ daysBeforeMonth y n := by
  induction n, h using Nat.le_induction with
  | base => exact Nat.le_of_eq (daysBeforeMonth_succ hm).symm
  | succ n hn ih =>
      have hstep := daysBeforeMonth_succ (y := y) (m := n) (by omega)
      omega

theorem daysBeforeMonth_thirteen (y : Nat) : daysBeforeMonth y 13 = daysInYear y := by
  simp only [daysBeforeMonth, daysInMonth, daysInYear]
  split <;> rfl

namespace Date

/-- The day of the year. -/
def yearDay (d : Date) : Nat := daysBeforeMonth d.year d.month + d.day

theorem dayNumber_eq (d : Date) : d.dayNumber = daysBeforeYear d.year + d.yearDay :=
  Nat.add_assoc _ _ _

theorem yearDay_pos (d : Date) : 0 < d.yearDay := by
  have h := d.isDate.2.2.1
  unfold yearDay
  omega

theorem yearDay_le (d : Date) : d.yearDay ≤ daysInYear d.year := by
  obtain ⟨-, ⟨hm, hm'⟩, -, hd⟩ := d.isDate
  have hmono := daysBeforeMonth_mono (y := d.year) hm (Nat.lt_succ_of_le hm')
  rw [daysBeforeMonth_thirteen] at hmono
  unfold yearDay
  omega

theorem compare_yearDay {a b : Date} (h : a.year = b.year) :
    compare a.yearDay b.yearDay = (compare a.month b.month).then (compare a.day b.day) := by
  obtain ⟨-, ⟨ha, -⟩, ha', ha''⟩ := a.isDate
  obtain ⟨-, ⟨hb, -⟩, hb', hb''⟩ := b.isDate
  unfold yearDay
  rw [h] at ha'' ⊢
  rcases Nat.lt_trichotomy a.month b.month with hlt | heq | hgt
  · have hmono := daysBeforeMonth_mono (y := b.year) ha hlt
    rw [Nat.compare_eq_lt.mpr hlt, Ordering.lt_then, Nat.compare_eq_lt]
    omega
  · rw [heq, Nat.compare_eq_eq.mpr rfl, Ordering.eq_then, compare_add_left]
  · have hmono := daysBeforeMonth_mono (y := b.year) hb hgt
    rw [Nat.compare_eq_gt.mpr hgt, Ordering.gt_then, Nat.compare_eq_gt]
    omega

theorem compare_dayNumber (a b : Date) :
    compare a.dayNumber b.dayNumber =
      (compare a.year b.year).then ((compare a.month b.month).then (compare a.day b.day)) := by
  have ha := yearDay_pos a
  have hb := yearDay_pos b
  have ha' := yearDay_le a
  have hb' := yearDay_le b
  rw [dayNumber_eq, dayNumber_eq]
  rcases Nat.lt_trichotomy a.year b.year with hlt | heq | hgt
  · have hmono := daysBeforeYear_mono a.isDate.1.1 hlt
    rw [Nat.compare_eq_lt.mpr hlt, Ordering.lt_then, Nat.compare_eq_lt]
    omega
  · rw [heq, Nat.compare_eq_eq.mpr rfl, Ordering.eq_then, compare_add_left, compare_yearDay heq]
  · have hmono := daysBeforeYear_mono b.isDate.1.1 hgt
    rw [Nat.compare_eq_gt.mpr hgt, Ordering.gt_then, Nat.compare_eq_gt]
    omega

theorem order_eq_eq_iff {a b : Date} : order a b = .eq ↔ a = b := by
  obtain ⟨y, m, d, _⟩ := a
  obtain ⟨y', m', d', _⟩ := b
  rw [order, compare_dayNumber]
  simp [Ordering.then_eq_eq]

theorem year_lt (d : Date) : d.year < 10 ^ 4 := Nat.lt_succ_of_le d.isDate.1.2

theorem month_lt (d : Date) : d.month < 10 ^ 2 := by
  have h := d.isDate.2.1.2
  omega

theorem day_lt (d : Date) : d.day < 10 ^ 2 := by
  have h := d.isDate.2.2.2
  have hmonth : daysInMonth d.year d.month ≤ 31 := by
    unfold daysInMonth
    split <;> (try split) <;> omega
  omega

theorem length_text (d : Date) : d.text.length = 10 := by
  have hyear := Text.length_padded (by decide) d.year_lt
  have hmonth := Text.length_padded (by decide) d.month_lt
  have hday := Text.length_padded (by decide) d.day_lt
  simp [text, hyear, hmonth, hday]

/-- Dates are in the order of their texts. -/
theorem order_text (a b : Date) : Text.order a.text b.text = order a b := by
  simp only [text, List.append_assoc, List.cons_append]
  rw [Text.order_padded_append (by decide) a.year_lt b.year_lt, Text.order_cons_self,
    Text.order_padded_append (by decide) a.month_lt b.month_lt, Text.order_cons_self,
    Text.order_padded (by decide) a.day_lt b.day_lt, order, compare_dayNumber]

end Date

/-! ## Moments -/

namespace Clock

theorem compare_micros (a b : Clock) :
    compare a.micros b.micros =
      (compare a.hour b.hour).then ((compare a.minute b.minute).then
        ((compare a.second b.second).then (compare a.micro b.micro))) := by
  obtain ⟨-, ha₁, ha₂, ha₃⟩ := a.isClock
  obtain ⟨-, hb₁, hb₂, hb₃⟩ := b.isClock
  rw [micros, micros, compare_mul_add ha₃ hb₃, compare_mul_add ha₂ hb₂, compare_mul_add ha₁ hb₁,
    Ordering.then_assoc, Ordering.then_assoc]

/-- Times of day with a fraction are in the order of their texts. -/
theorem order_text (a b : Clock) :
    Text.order (a.text true) (b.text true) = compare a.micros b.micros := by
  obtain ⟨ha, ha₁, ha₂, ha₃⟩ := a.isClock
  obtain ⟨hb, hb₁, hb₂, hb₃⟩ := b.isClock
  have hlt : ∀ {n : Nat}, n < 60 → n < 10 ^ 2 := by omega
  simp only [text, List.append_assoc, List.cons_append, if_true]
  rw [Text.order_padded_append (by decide) (by omega) (by omega), Text.order_cons_self,
    Text.order_padded_append (by decide) (hlt ha₁) (hlt hb₁), Text.order_cons_self,
    Text.order_padded_append (by decide) (hlt ha₂) (hlt hb₂), Text.order_cons_self,
    Text.order_padded (by decide) ha₃ hb₃, compare_micros]

end Clock

theorem Moment.compare_wallMicros (a b : Moment) :
    compare a.wallMicros b.wallMicros =
      (Date.order a.date b.date).then (compare a.clock.micros b.clock.micros) := by
  rw [wallMicros, wallMicros, compare_natCast]
  exact compare_mul_add a.clock.micros_lt b.clock.micros_lt _ _

/-- Moments are in the order of their wall clocks where these are written with a fraction. -/
theorem Cell.order_momentText (a b : Moment) :
    Text.order (momentText a) (momentText b) = compare a.wallMicros b.wallMicros := by
  rw [momentText, momentText, Text.order_append (by rw [Date.length_text, Date.length_text]),
    Text.order_cons_self, Date.order_text, Clock.order_text, Moment.compare_wallMicros]

end RecordQuery
