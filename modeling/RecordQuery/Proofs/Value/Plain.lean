import RecordQuery.Literal
import RecordQuery.Proofs.Text.BasicAlphabet
import RecordQuery.Proofs.Text.Pieces
import RecordQuery.Value.Text

namespace RecordQuery

/-!
# The signs in the texts of values

Numbers, days, moments and identifiers are written with digits and a few
signs of the basic alphabet, none of which has a meaning in a query string.
-/

namespace Text

def IsPlain (t : Text) : Prop := ∀ c ∈ t, (c ≠ '&' ∧ c ≠ '|') ∧ c ≠ '\x00' ∧ c.toNat < 128

@[simp] theorem isPlain_nil : IsPlain [] := nofun

@[simp] theorem isPlain_cons {c : Char} {t : Text} :
    IsPlain (c :: t) ↔ ((c ≠ '&' ∧ c ≠ '|') ∧ c ≠ '\x00' ∧ c.toNat < 128) ∧ IsPlain t :=
  List.forall_mem_cons

@[simp] theorem isPlain_append {s t : Text} : IsPlain (s ++ t) ↔ IsPlain s ∧ IsPlain t :=
  List.forall_mem_append

namespace IsPlain

variable {s t : Text}

theorem isUndivided (h : IsPlain t) : IsUndivided t := fun c hc ↦ (h c hc).1

theorem isBasic (h : IsPlain t) : IsBasic t := fun c hc ↦ (h c hc).2

theorem of_subset (ht : IsPlain t) (h : s ⊆ t) : IsPlain s := fun c hc ↦ ht c (h hc)

end IsPlain

/-- A number is written with digits of which it is the value. -/
theorem exists_toDigits_eq_map {b : Nat} (hb : 1 < b) (n : Nat) : ∃ ds : List Nat,
    (∀ d ∈ ds, d < b) ∧ Nat.toDigits b n = ds.map Nat.digitChar ∧
      ds.foldl (fun n d ↦ b * n + d) 0 = n := by
  induction n using Nat.strongRecOn with
  | _ n ih =>
      rw [Nat.toDigits_eq_if hb]
      split
      · next hn => exact ⟨[n], List.forall_mem_singleton.mpr hn, rfl, by simp⟩
      · next hn =>
          obtain ⟨ds, hlt, hds, hvalue⟩ := ih (n / b) (Nat.div_lt_self (by omega) hb)
          refine ⟨ds ++ [n % b], List.forall_mem_append.mpr ⟨hlt, ?_⟩, ?_, ?_⟩
          · exact List.forall_mem_singleton.mpr (Nat.mod_lt n (by omega))
          · rw [hds, List.map_append]
            rfl
          · rw [List.foldl_append, hvalue]
            exact Nat.div_add_mod n b

theorem foldl_zeros (b n : Nat) : (List.replicate n 0).foldl (fun n d ↦ b * n + d) 0 = 0 := by
  induction n with
  | zero => rfl
  | succ n ih => exact ih

theorem exists_digitChar_of_mem_toDigits {b n : Nat} (hb : 1 < b) {c : Char}
    (h : c ∈ Nat.toDigits b n) : ∃ d < b, c = d.digitChar := by
  obtain ⟨ds, hlt, hds, -⟩ := exists_toDigits_eq_map hb n
  rw [hds] at h
  obtain ⟨d, hd, rfl⟩ := List.mem_map.mp h
  exact ⟨d, hlt d hd, rfl⟩

/-- The characters of numbers, days, moments and identifiers. -/
def figures : Text := "0123456789abcdef-+.:ET".toList

@[simp] theorem signs_mem_figures : ('0' ∈ figures ∧ '-' ∈ figures ∧ '+' ∈ figures) ∧
    '.' ∈ figures ∧ ':' ∈ figures ∧ 'E' ∈ figures ∧ 'T' ∈ figures := by decide

theorem toDigits_subset_figures {b : Nat} (hb : 1 < b) (hb' : b ≤ 16) (n : Nat) :
    Nat.toDigits b n ⊆ figures := by
  have hdigits : ∀ d < 16, Nat.digitChar d ∈ figures := by decide
  intro c hc
  obtain ⟨d, hd, rfl⟩ := exists_digitChar_of_mem_toDigits hb hc
  exact hdigits d (by omega)

@[simp] theorem replicate_subset_figures (n : Nat) : List.replicate n '0' ⊆ figures := by
  intro c hc
  rw [List.eq_of_mem_replicate hc]
  exact signs_mem_figures.1.1

@[simp] theorem ofNat_subset_figures (n : Nat) : ofNat n ⊆ figures :=
  toDigits_subset_figures (by decide) (by decide) n

@[simp] theorem ofInt_subset_figures (n : Int) : ofInt n ⊆ figures := by
  cases n <;> simp [ofInt]

@[simp] theorem padded_subset_figures (width n : Nat) : padded width n ⊆ figures := by
  simp [padded]

/-- What holds of all figures holds of the characters of a text that consists of figures. -/
theorem forall_mem_of_subset_figures {P : Char → Prop} [DecidablePred P] {t : Text}
    (h : figures.all (fun c ↦ decide (P c)) = true) (ht : t ⊆ figures) : ∀ c ∈ t, P c :=
  fun c hc ↦ of_decide_eq_true (List.all_eq_true.mp h c (ht hc))

theorem isPlain_figures : IsPlain figures :=
  forall_mem_of_subset_figures (by decide) (List.Subset.refl figures)

@[simp] theorem isPlain_ofNat (n : Nat) : IsPlain (ofNat n) :=
  isPlain_figures.of_subset (ofNat_subset_figures n)

@[simp] theorem isPlain_ofInt (n : Int) : IsPlain (ofInt n) :=
  isPlain_figures.of_subset (ofInt_subset_figures n)

@[simp] theorem ofNat_ne_nil (n : Nat) : ofNat n ≠ [] := Nat.toDigits_ne_nil

@[simp] theorem ofInt_ne_nil (n : Int) : ofInt n ≠ [] := by
  cases n <;> simp [ofInt]

end Text

open Text

@[simp] theorem Date.text_subset_figures (d : Date) : d.text ⊆ figures := by
  simp [Date.text]

@[simp] theorem Clock.text_subset_figures (c : Clock) (fraction : Bool) :
    c.text fraction ⊆ figures := by
  cases fraction <;> simp [Clock.text]

@[simp] theorem Offset.text_subset_figures (o : Offset) : o.text ⊆ figures := by
  unfold Offset.text
  dsimp only
  split <;> split <;> split <;> simp

theorem Moment.text_subset (separator : Char) (t : Moment) :
    t.text separator ⊆ separator :: figures := by
  have hcons : ∀ {s : Text}, s ⊆ figures → s ⊆ separator :: figures :=
    fun h ↦ List.subset_cons_of_subset separator h
  obtain ⟨d, c, _ | o⟩ := t <;> simp [Moment.text, hcons]

@[simp] theorem Date.isPlain_text (d : Date) : IsPlain d.text :=
  isPlain_figures.of_subset d.text_subset_figures

@[simp] theorem Clock.isPlain_text (c : Clock) (fraction : Bool) : IsPlain (c.text fraction) :=
  isPlain_figures.of_subset (c.text_subset_figures fraction)

@[simp] theorem Moment.isPlain_text (t : Moment) : IsPlain (t.text ' ') :=
  (isPlain_cons.mpr ⟨by decide, isPlain_figures⟩).of_subset (t.text_subset ' ')

namespace Decimal

@[simp] theorem signText_subset_figures (negative : Bool) : signText negative ⊆ figures := by
  cases negative <;> simp [signText]

@[simp] theorem isPlain_signText (negative : Bool) : IsPlain (signText negative) :=
  isPlain_figures.of_subset (signText_subset_figures negative)

theorem text_subset_figures (d : Decimal) : d.text ⊆ figures := by
  have hdigits := ofNat_subset_figures d.coefficient
  have htake : ∀ n, (Text.ofNat d.coefficient).take n ⊆ figures :=
    fun n ↦ List.Subset.trans (List.take_subset n _) hdigits
  have hdrop : ∀ n, (Text.ofNat d.coefficient).drop n ⊆ figures :=
    fun n ↦ List.Subset.trans (List.drop_subset n _) hdigits
  have hzeros : ∀ n, zeros n ⊆ figures := replicate_subset_figures
  have hpower : ∀ e, exponentText e ⊆ figures := by
    intro e
    unfold exponentText
    split <;> simp
  unfold Decimal.text
  dsimp only
  generalize (if d.exponent ≤ 0 ∧ -6 < d.exponent + ((Text.ofNat d.coefficient).length : Int) then
    d.exponent + ((Text.ofNat d.coefficient).length : Int) else 1) = place
  rw [List.append_subset, List.append_subset]
  refine ⟨⟨signText_subset_figures _, ?_⟩, ?_⟩
  · split
    · simp [hzeros]
    · split
      · simp [hzeros]
      · simp [htake, hdrop]
  · split
    · exact List.nil_subset _
    · simp [hpower]

theorem isPlain_text (d : Decimal) : IsPlain d.text :=
  isPlain_figures.of_subset d.text_subset_figures

theorem text_ne_nil (d : Decimal) : d.text ≠ [] := by
  have hdigits := ofNat_ne_nil d.coefficient
  unfold Decimal.text
  dsimp only
  generalize Text.ofNat d.coefficient = ds at hdigits ⊢
  generalize (if d.exponent ≤ 0 ∧ -6 < d.exponent + (ds.length : Int) then
    d.exponent + (ds.length : Int) else 1) = place
  intro h
  have hmantissa := (List.append_eq_nil_iff.mp (List.append_eq_nil_iff.mp h).1).2
  split at hmantissa
  · cases hmantissa
  · split at hmantissa
    · exact hdigits (List.append_eq_nil_iff.mp hmantissa).1
    · cases (List.append_eq_nil_iff.mp hmantissa).2

end Decimal

theorem Uuid.hex_subset_figures (u : Uuid) : u.hex ⊆ figures := by
  simp [Uuid.hex, paddedHex, lowerHex, toDigits_subset_figures (b := 16)]

theorem Uuid.text_subset_figures (u : Uuid) : u.text ⊆ figures := by
  have hhex := u.hex_subset_figures
  have hgroup : ∀ m n, (u.hex.drop m).take n ⊆ figures :=
    fun m n ↦ List.Subset.trans (List.take_subset n _)
      (List.Subset.trans (List.drop_subset m _) hhex)
  have hfirst := List.Subset.trans (List.take_subset 8 _) hhex
  have hlast := List.Subset.trans (List.drop_subset 20 _) hhex
  simp [Uuid.text, hfirst, hgroup, hlast]

theorem Uuid.isPlain_text (u : Uuid) : IsPlain u.text :=
  isPlain_figures.of_subset u.text_subset_figures

namespace Value

/-- Truth values, whole and decimal numbers, days, moments and identifiers. -/
def isScalar : Value → Bool
  | bool _ | int _ | decimal _ | infinite _ | undefined | date _ | moment _ | zoned _
  | uuid _ => true
  | _ => false

/-- A whole number with more digits than can be written. -/
def isOverlong : Value → Bool
  | int n => intBound ≤ n.natAbs
  | _ => false

theorem lt_intBound {n k : Nat} (h : n < 10 ^ k) (hk : k ≤ digitLimit) : n < intBound := by
  unfold intBound
  exact Nat.lt_of_lt_of_le h (Nat.pow_le_pow_right (by decide) hk)

/-- A number of 64 bits can be written. -/
theorem natAbs_lt_intBound {n : Int} (h : fitsInt64 n = true) : n.natAbs < intBound := by
  obtain ⟨hmin, hmax⟩ := fitsInt64_iff.mp h
  rw [int64Min] at hmin
  rw [int64Max] at hmax
  have hlt : n.natAbs < 10 ^ 20 := by omega
  exact lt_intBound hlt (by decide)

theorem plain_int {n : Int} (h : n.natAbs < intBound) : plain (int n) = .ok (Text.ofInt n) :=
  if_pos h

theorem plain_of_isOverlong {v : Value} (h : v.isOverlong = true) :
    v.plain = .error .tooManyDigits := by
  cases v with
  | int n =>
      exact if_neg (Nat.not_lt.mpr (of_decide_eq_true h))
  | _ => cases h

theorem exists_plain_eq {v : Value} (h : v.isScalar = true) (hlong : v.isOverlong = false) :
    ∃ t, v.plain = .ok t ∧ IsPlain t ∧ t ≠ [] := by
  cases v with
  | bool b =>
      refine ⟨_, rfl, ?_, ?_⟩
      · cases b <;> simp [boolText]
      · cases b <;> simp [boolText]
  | int n =>
      have hlt : n.natAbs < intBound := Nat.lt_of_not_le (of_decide_eq_false hlong)
      exact ⟨_, plain_int hlt, isPlain_ofInt n, ofInt_ne_nil n⟩
  | decimal d => exact ⟨_, rfl, d.isPlain_text, d.text_ne_nil⟩
  | infinite negative => exact ⟨_, rfl, by simp [infiniteText], by simp [infiniteText]⟩
  | undefined => exact ⟨_, rfl, by simp [undefinedText], by simp [undefinedText]⟩
  | date d => exact ⟨_, rfl, d.isPlain_text, by simp [Date.text]⟩
  | moment t => exact ⟨_, rfl, t.isPlain_text, by simp [Moment.text]⟩
  | zoned t => exact ⟨_, rfl, t.moment.isPlain_text, by simp [Moment.text]⟩
  | uuid u => exact ⟨_, rfl, u.isPlain_text, by simp [Uuid.text]⟩
  | null | float _ | text _ | list _ | tuple _ | dict _ => cases h

end Value

end RecordQuery
