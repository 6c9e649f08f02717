import Mathlib.Data.List.Basic
import RecordQuery.Number.Numeral
import RecordQuery.Proofs.Value.Plain

namespace RecordQuery

/-!
# Reading the digits of a number

The digits in which a number is written are read as that number again.
-/

namespace Text

theorem exists_digitChar_of_mem_ofNat {n : Nat} {c : Char} (h : c ∈ ofNat n) :
    ∃ d < 10, c = d.digitChar := exists_digitChar_of_mem_toDigits (by decide) h

theorem digitValues?_cons_eq_some_iff {c : Char} {t : Text} {ds : List Nat} :
    digitValues? (c :: t) = some ds ↔
      ∃ d ds', digitValue? c = some d ∧ digitValues? t = some ds' ∧ ds = d :: ds' := by
  rw [digitValues?]
  constructor
  · intro h
    split at h
    · next d ds' hd hds =>
        cases h
        exact ⟨d, ds', hd, hds, rfl⟩
    · cases h
  · rintro ⟨d, ds', hd, hds, rfl⟩
    rw [hd, hds]

theorem digitValues?_append_eq_some_iff {s t : Text} {ds : List Nat} :
    digitValues? (s ++ t) = some ds ↔
      ∃ ss ts, digitValues? s = some ss ∧ digitValues? t = some ts ∧ ds = ss ++ ts := by
  induction s generalizing ds with
  | nil =>
      constructor
      · exact fun h ↦ ⟨[], ds, rfl, h, rfl⟩
      · rintro ⟨_, ts, ⟨⟩, ht, rfl⟩
        exact ht
  | cons c s ih =>
      rw [List.cons_append, digitValues?_cons_eq_some_iff]
      constructor
      · rintro ⟨d, ds', hd, hds', rfl⟩
        obtain ⟨ss, ts, hs, ht, rfl⟩ := ih.mp hds'
        exact ⟨d :: ss, ts, digitValues?_cons_eq_some_iff.mpr ⟨d, ss, hd, hs, rfl⟩, ht, rfl⟩
      · rintro ⟨_, ts, hcons, ht, rfl⟩
        obtain ⟨d, ss, hd, hs, rfl⟩ := digitValues?_cons_eq_some_iff.mp hcons
        exact ⟨d, ss ++ ts, hd, ih.mpr ⟨ss, ts, hs, ht, rfl⟩, rfl⟩

theorem length_of_digitValues?_eq {t : Text} {ds : List Nat} (h : digitValues? t = some ds) :
    ds.length = t.length := by
  induction t generalizing ds with
  | nil =>
      cases h
      rfl
  | cons c t ih =>
      obtain ⟨d, ds, -, hds, rfl⟩ := digitValues?_cons_eq_some_iff.mp h
      rw [List.length_cons, List.length_cons, ih hds]

theorem digitValues?_map_digitChar {ds : List Nat} (h : ∀ d ∈ ds, d < 10) :
    digitValues? (ds.map Nat.digitChar) = some ds := by
  have hdigits : ∀ d < 10, digitValue? (Nat.digitChar d) = some d := by decide
  induction ds with
  | nil => rfl
  | cons d ds ih =>
      obtain ⟨hd, hds⟩ := List.forall_mem_cons.mp h
      rw [List.map_cons, digitValues?, hdigits d hd, ih hds]

theorem digitValues?_replicate_zero (n : Nat) :
    digitValues? (List.replicate n '0') = some (List.replicate n 0) := by
  have hzeros : ∀ d ∈ List.replicate n 0, d < 10 := by
    intro d hd
    rw [List.eq_of_mem_replicate hd]
    decide
  have hdigits := digitValues?_map_digitChar hzeros
  rwa [List.map_replicate] at hdigits

theorem exists_digitValues?_ofNat (n : Nat) :
    ∃ ds, digitValues? (ofNat n) = some ds ∧ ofDigits ds = n := by
  obtain ⟨ds, hlt, hds, hn⟩ := exists_toDigits_eq_map (by decide : 1 < 10) n
  exact ⟨ds, by rw [ofNat, hds, digitValues?_map_digitChar hlt], hn⟩

theorem length_ofNat_le {n k : Nat} (hk : 0 < k) (h : n < 10 ^ k) : (ofNat n).length ≤ k :=
  (Nat.length_toDigits_le_iff (by decide) hk).mpr h

end Text

namespace Numeral

theorem takeSign_of_ne {c : Char} {t : Text} (hminus : c ≠ '-') (hplus : c ≠ '+') :
    takeSign (c :: t) = (false, c :: t) := by
  unfold takeSign
  split
  · next h => exact absurd (List.cons.inj h).1 hminus
  · next h => exact absurd (List.cons.inj h).1 hplus
  · rfl

end Numeral

end RecordQuery
