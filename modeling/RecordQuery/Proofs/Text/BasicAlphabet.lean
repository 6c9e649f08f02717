import Mathlib.Data.List.Basic
import RecordQuery.Text.LetterCase

namespace RecordQuery.Text

/-!
# The basic alphabet

On the characters of the basic alphabet the two ways to fold letters are
one, and what has been folded stays as it is.
-/

/-- Characters of the basic alphabet, the NUL character excepted. -/
def IsBasic (t : Text) : Prop := ∀ c ∈ t, c ≠ '\x00' ∧ c.toNat < 128

@[simp] theorem isBasic_cons {c : Char} {t : Text} :
    IsBasic (c :: t) ↔ (c ≠ '\x00' ∧ c.toNat < 128) ∧ IsBasic t := List.forall_mem_cons

theorem IsBasic.nul_notMem {t : Text} (h : IsBasic t) : '\x00' ∉ t := fun hnul ↦ (h _ hnul).1 rfl

instance (t : Text) : Decidable (IsBasic t) := List.decidableBAll _ t

/-- What holds of the first 128 code points holds of every basic character. -/
theorem forall_basic {P : Char → Prop} (h : ∀ n < 128, P (Char.ofNat n)) {c : Char}
    (hc : c.toNat < 128) : P c := by
  have hn := h c.toNat hc
  rwa [Char.ofNat_toNat] at hn

/-- One character in lower case. -/
def basicLowerChar (c : Char) : Char :=
  if 'A' ≤ c && c ≤ 'Z' then Char.ofNat (c.toNat + 32) else c

@[simp] theorem basicLower_cons (c : Char) (t : Text) :
    basicLower (c :: t) = basicLowerChar c :: basicLower t := rfl

theorem lowerChar_eq {c : Char} (h : c.toNat < 128) : lowerChar c = basicLowerChar c :=
  forall_basic (P := fun c ↦ lowerChar c = basicLowerChar c) (by decide +kernel) h

/-- Characters beyond the basic alphabet are not folded. -/
theorem basicLowerChar_eq_self {c : Char} (h : ¬ c.toNat < 128) : basicLowerChar c = c := by
  have hupper : ¬ c ≤ 'Z' := fun hc ↦
    h (Nat.lt_of_le_of_lt (UInt32.le_iff_toNat_le.mp (Char.le_def.mp hc)) (by decide))
  simp [basicLowerChar, hupper]

theorem basicLowerChar_basicLowerChar (c : Char) :
    basicLowerChar (basicLowerChar c) = basicLowerChar c := by
  by_cases h : c.toNat < 128
  · exact forall_basic
      (P := fun c ↦ basicLowerChar (basicLowerChar c) = basicLowerChar c) (by decide) h
  · rw [basicLowerChar_eq_self h, basicLowerChar_eq_self h]

theorem basicLowerChar_eq_nul_iff {c : Char} : basicLowerChar c = '\x00' ↔ c = '\x00' := by
  by_cases h : c.toNat < 128
  · exact forall_basic (P := fun c ↦ basicLowerChar c = '\x00' ↔ c = '\x00') (by decide) h
  · rw [basicLowerChar_eq_self h]

theorem nul_mem_basicLower_iff {t : Text} : '\x00' ∈ basicLower t ↔ '\x00' ∈ t := by
  induction t with
  | nil => rfl
  | cons c t ih =>
      rw [basicLower_cons, List.mem_cons, List.mem_cons, ih, eq_comm, basicLowerChar_eq_nul_iff,
        eq_comm]

theorem lowerAfter_eq {t : Text} (h : ∀ c ∈ t, c.toNat < 128) (cased : Bool) :
    lowerAfter cased t = basicLower t := by
  have hne : ∀ {c : Char}, c.toNat < 128 → c ≠ capitalSigma ∧ c ≠ dottedCapitalI :=
    forall_basic (P := fun c ↦ c ≠ capitalSigma ∧ c ≠ dottedCapitalI) (by decide)
  induction t generalizing cased with
  | nil => rfl
  | cons c t ih =>
      obtain ⟨hc, ht⟩ := List.forall_mem_cons.mp h
      rw [lowerAfter, if_neg (hne hc).1, if_neg (hne hc).2, lowerChar_eq hc, ih ht,
        basicLower_cons, List.singleton_append]

/-- The letters of the basic alphabet have their lower case there. -/
theorem lower_eq_basicLower {t : Text} (h : IsBasic t) : lower t = basicLower t :=
  lowerAfter_eq (fun c hc ↦ (h c hc).2) false

theorem isBasic_basicLower {t : Text} (h : IsBasic t) : IsBasic (basicLower t) := by
  have hchars : ∀ n < 128, n ≠ 0 → basicLowerChar (Char.ofNat n) ≠ '\x00' ∧
      (basicLowerChar (Char.ofNat n)).toNat < 128 := by
    decide
  intro c hc
  obtain ⟨d, hd, rfl⟩ := List.mem_map.mp hc
  obtain ⟨hne, hlt⟩ := h d hd
  have hpos : d.toNat ≠ 0 := by
    intro hzero
    exact hne (by rw [← Char.ofNat_toNat d, hzero])
  have hchar := hchars d.toNat hlt hpos
  rwa [Char.ofNat_toNat] at hchar

end RecordQuery.Text
