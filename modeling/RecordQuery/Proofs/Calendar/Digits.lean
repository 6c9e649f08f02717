import RecordQuery.Calendar.Iso
import RecordQuery.Proofs.Text.Order

namespace RecordQuery

/-!
# Digits of one width

A number in a given count of digits takes as many bytes, and is read as
that number whatever comes after it.
-/

namespace Text

theorem mem_padded {width n : Nat} {c : Char} (h : c ∈ padded width n) :
    ∃ d < 10, c = Nat.digitChar d := by
  rw [padded, List.mem_append] at h
  rcases h with h | h
  · exact ⟨0, by decide, List.eq_of_mem_replicate h⟩
  · exact exists_digitChar_of_mem_ofNat h

theorem exists_padded_eq_cons (width n : Nat) :
    ∃ d < 10, ∃ t, padded width n = Nat.digitChar d :: t := by
  cases ht : padded width n with
  | nil => exact absurd (List.append_eq_nil_iff.mp ht).2 (ofNat_ne_nil n)
  | cons c t =>
      obtain ⟨d, hd, rfl⟩ := mem_padded (ht ▸ List.mem_cons_self : c ∈ padded width n)
      exact ⟨d, hd, t, rfl⟩

theorem length_utf8_cons {c : Char} (hc : c.toNat < 128) (t : Text) :
    (utf8 (c :: t)).length = 1 + (utf8 t).length := by
  have hbyte : utf8Char c = [c.toNat] := if_pos hc
  rw [utf8, List.flatMap_cons, hbyte, List.length_append]
  rfl

theorem length_utf8_append {s : Text} (h : ∀ c ∈ s, c.toNat < 128) (t : Text) :
    (utf8 (s ++ t)).length = s.length + (utf8 t).length := by
  induction s with
  | nil => exact (Nat.zero_add _).symm
  | cons c s ih =>
      obtain ⟨hc, hs⟩ := List.forall_mem_cons.mp h
      rw [List.cons_append, length_utf8_cons hc, ih hs, List.length_cons]
      omega

theorem eq_nil_of_length_utf8 {t : Text} (h : (utf8 t).length = 0) : t = [] := by
  cases t with
  | nil => rfl
  | cons c t =>
      have hpos : 0 < (utf8Char c).length := by
        unfold utf8Char
        dsimp only
        split <;> (try split) <;> (try split) <;> exact Nat.succ_pos _
      rw [utf8, List.flatMap_cons, List.length_append] at h
      omega

theorem length_utf8_padded_append {width n : Nat} (hwidth : 0 < width) (hn : n < 10 ^ width)
    (t : Text) : (utf8 (padded width n ++ t)).length = width + (utf8 t).length := by
  have hdigits : ∀ d < 10, (Nat.digitChar d).toNat < 128 := by decide
  rw [length_utf8_append, length_padded hwidth hn]
  intro c hc
  obtain ⟨d, hd, rfl⟩ := mem_padded hc
  exact hdigits d hd

end Text

namespace Iso

open Text

variable {acc n v : Nat} {t rest : Text}

theorem basicDigit?_eq_some_iff {c : Char} {d : Nat} :
    basicDigit? c = some d ↔ d < 10 ∧ c = d.digitChar := by
  have hdigits : ∀ d < 10, basicDigit? d.digitChar = some d := by decide
  constructor
  · intro h
    obtain ⟨⟨hlow, hhigh⟩, hd⟩ := Option.ite_none_right_eq_some.mp h
    have hlow' : 48 ≤ c.toNat := UInt32.le_iff_toNat_le.mp (Char.le_def.mp hlow)
    have hhigh' : c.toNat ≤ 57 := UInt32.le_iff_toNat_le.mp (Char.le_def.mp hhigh)
    obtain rfl : c.toNat - 48 = d := Option.some.inj hd
    have hlt : c.toNat - 48 < 10 := by omega
    refine ⟨hlt, Char.toNat_inj.mp ?_⟩
    rw [Nat.toNat_digitChar_of_lt_ten hlt, Nat.add_sub_cancel' hlow']
  · rintro ⟨hd, rfl⟩
    exact hdigits d hd

theorem go_succ (acc n : Nat) (t : Text) :
    digits.go acc (n + 1) t = (digits.go acc n t).bind fun (v, rest) ↦ digits.go v 1 rest := by
  induction n generalizing acc t with
  | zero => rfl
  | succ n ih =>
      cases t with
      | nil => rfl
      | cons c t =>
          rw [digits.go, digits.go]
          cases basicDigit? c with
          | none => rfl
          | some d => exact ih _ _

theorem go_one_eq_some_iff :
    digits.go acc 1 t = some (v, rest) ↔ ∃ d < 10, v = 10 * acc + d ∧ t = d.digitChar :: rest := by
  cases t with
  | nil => simp [digits.go]
  | cons c t =>
      rw [digits.go]
      constructor
      · intro h
        cases hd : basicDigit? c with
        | none =>
            rw [hd] at h
            cases h
        | some d =>
            rw [hd] at h
            obtain ⟨hlt, rfl⟩ := basicDigit?_eq_some_iff.mp hd
            cases h
            exact ⟨d, hlt, rfl, rfl⟩
      · rintro ⟨d, hd, rfl, ht⟩
        obtain ⟨rfl, rfl⟩ := List.cons.inj ht
        rw [basicDigit?_eq_some_iff.mpr ⟨hd, rfl⟩]
        rfl

/-- Digits are read as the number that they write. -/
theorem digits_eq_some_iff (hn : 0 < n) :
    digits n t = some (v, rest) ↔ v < 10 ^ n ∧ t = padded n v ++ rest := by
  induction n, hn using Nat.le_induction generalizing v rest with
  | base =>
      have hpadded : ∀ d < 10, padded 1 d = [d.digitChar] := by decide
      rw [digits, go_one_eq_some_iff]
      constructor
      · rintro ⟨d, hd, rfl, rfl⟩
        rw [Nat.mul_zero, Nat.zero_add, hpadded d hd]
        exact ⟨hd, rfl⟩
      · rintro ⟨hv, rfl⟩
        exact ⟨v, hv, by omega, by rw [hpadded v hv]; rfl⟩
  | succ n hn ih =>
      rw [digits, go_succ, Option.bind_eq_some_iff, Nat.pow_succ]
      constructor
      · rintro ⟨⟨u, rest'⟩, hu, hlast⟩
        obtain ⟨d, hd, rfl, rfl⟩ := go_one_eq_some_iff.mp hlast
        obtain ⟨hlt, rfl⟩ := ih.mp hu
        have hdiv : (10 * u + d) / 10 = u := by omega
        have hmod : (10 * u + d) % 10 = d := by omega
        refine ⟨by omega, ?_⟩
        rw [padded_succ hn, hdiv, hmod, List.append_assoc, List.singleton_append]
      · rintro ⟨hv, rfl⟩
        refine ⟨(v / 10, (v % 10).digitChar :: rest), ih.mpr ⟨by omega, ?_⟩, ?_⟩
        · rw [padded_succ hn, List.append_assoc, List.singleton_append]
        · exact go_one_eq_some_iff.mpr ⟨v % 10, by omega, by omega, rfl⟩

theorem digits_padded (hn : 0 < n) (hv : v < 10 ^ n) (rest : Text) :
    digits n (padded n v ++ rest) = some (v, rest) := (digits_eq_some_iff hn).mpr ⟨hv, rfl⟩

end Iso

end RecordQuery
