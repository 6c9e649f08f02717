import Mathlib.Data.List.TakeWhile
import RecordQuery.Proofs.Text.PercentCode
import RecordQuery.Proofs.Text.Pieces
import RecordQuery.Schema
import RecordQuery.Text.Alphanumeric

namespace RecordQuery.Text

/-!
# Words

Word characters are neither blank nor one of the signs that divide a query
string, so that a word is left as it is by trimming and by decoding.
-/

namespace Ranges

/-- Every code point of some ranges. -/
def points (rs : Ranges) : List Nat := rs.flatMap fun (a, b) ↦ List.range' a (b + 1 - a)

theorem mem_points_of_within {rs : Ranges} {n : Nat} (h : rs.within n = true) : n ∈ rs.points := by
  induction rs with
  | nil => exact absurd h (by simp)
  | cons r rs ih =>
      obtain ⟨a, b⟩ := r
      rw [within] at h
      split at h
      · cases h
      · split at h
        · refine List.mem_append_left _ ?_
          rw [List.mem_range'_1]
          omega
        · exact List.mem_append_right _ (ih h)

end Ranges

theorem isWordChar_of_isBlank {c : Char} (h : isBlank c = true) : isWordChar c = false := by
  have hpoints : ∀ n ∈ blankRanges.points, alphanumericRanges.within n = false ∧ n ≠ '_'.toNat := by
    decide +kernel
  obtain ⟨hrange, hne⟩ := hpoints c.toNat (Ranges.mem_points_of_within h)
  have hc : c ≠ '_' := by
    rintro rfl
    exact hne rfl
  simp [isWordChar, isAlphanumeric, Ranges.holds, hrange, hc]

theorem stripLeft_of_head?_ne {c : Char} {t : Text} (h : t.head? ≠ some c) :
    stripLeft (· = c) t = t := by
  cases t with
  | nil => rfl
  | cons d t => exact stripLeft_of_head (by simpa using h)

/-- A text of word characters, with at least one of them. -/
structure IsWord (t : Text) : Prop where
  ne_nil : t ≠ []
  isWordChar : ∀ c ∈ t, isWordChar c = true

instance (t : Text) : Decidable (IsWord t) :=
  have : Decidable (∀ c ∈ t, Text.isWordChar c = true) := List.decidableBAll _ t
  decidable_of_iff (t ≠ [] ∧ ∀ c ∈ t, Text.isWordChar c = true)
    ⟨fun h ↦ ⟨h.1, h.2⟩, fun h ↦ ⟨h.ne_nil, h.isWordChar⟩⟩

namespace IsWord

variable {t : Text}

theorem notMem (h : IsWord t) {c : Char} (hc : Text.isWordChar c = false) : c ∉ t := by
  intro hmem
  rw [h.isWordChar c hmem] at hc
  cases hc

theorem isLiteral (h : IsWord t) : IsLiteral t := by
  intro c hc
  constructor
  · rintro rfl
    exact h.notMem (by decide +kernel) hc
  · rintro rfl
    exact h.notMem (by decide +kernel) hc

theorem isUndivided (h : IsWord t) : IsUndivided t := by
  intro c hc
  constructor
  · rintro rfl
    exact h.notMem (by decide +kernel) hc
  · rintro rfl
    exact h.notMem (by decide +kernel) hc

theorem trim_eq (h : IsWord t) : trim t = t := by
  apply trim_of_forall
  intro c hc
  cases hblank : isBlank c with
  | false => rfl
  | true => exact absurd hc (h.notMem (isWordChar_of_isBlank hblank))

/-- A word does not begin with a question mark. -/
theorem head?_append_ne (h : IsWord t) (s : Text) : (t ++ s).head? ≠ some '?' := by
  have hquestion : '?' ∉ t := h.notMem (by decide +kernel)
  cases t with
  | nil => exact absurd rfl h.ne_nil
  | cons c t =>
      rintro ⟨⟩
      exact hquestion List.mem_cons_self

theorem stripLeft_append (h : IsWord t) (s : Text) : stripLeft (· = '?') (t ++ s) = t ++ s :=
  stripLeft_of_head?_ne (h.head?_append_ne s)

theorem normalName_eq (h : IsWord t) : normalName t = lower t := by
  rw [normalName, h.trim_eq]

end IsWord

theorem lowerAfter_ne_nil {cased : Bool} {t : Text} (h : t ≠ []) : lowerAfter cased t ≠ [] := by
  cases t with
  | nil => exact absurd rfl h
  | cons c t =>
      rw [lowerAfter]
      split
      · simp
      · split <;> simp

theorem IsWord.normalName_ne_nil {t : Text} (h : IsWord t) : normalName t ≠ [] := by
  rw [h.normalName_eq]
  exact lowerAfter_ne_nil h.ne_nil

/-! ## Bars in names -/

theorem mem_trim {c : Char} (hc : isBlank c = false) {t : Text} (h : c ∈ t) : c ∈ trim t := by
  have hdrop : ∀ {s : Text}, c ∈ s → c ∈ s.dropWhile isBlank := by
    intro s hs
    rw [← List.takeWhile_append_dropWhile (p := isBlank) (l := s), List.mem_append] at hs
    refine hs.resolve_left fun htake ↦ ?_
    rw [List.mem_takeWhile_imp htake] at hc
    cases hc
  rw [trim, stripBoth, stripRight, List.mem_reverse]
  exact hdrop (List.mem_reverse.mpr (hdrop h))

theorem bar_mem_lowerAfter {t : Text} (h : '|' ∈ t) (cased : Bool) :
    '|' ∈ lowerAfter cased t := by
  have hbar : lowerChar '|' = '|' := by decide
  induction t generalizing cased with
  | nil => cases h
  | cons c t ih =>
      rw [lowerAfter, List.mem_append]
      rcases List.mem_cons.mp h with rfl | h
      · left
        rw [if_neg (by decide), if_neg (by decide), hbar]
        exact List.mem_singleton.mpr rfl
      · exact Or.inr (ih h _)

theorem bar_mem_normalName {t : Text} (h : '|' ∈ t) : '|' ∈ normalName t :=
  bar_mem_lowerAfter (mem_trim (by decide) h) false

end RecordQuery.Text
