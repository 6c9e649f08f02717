import Mathlib.Data.List.Basic
import Mathlib.Data.Nat.Init
import RecordQuery.Proofs.Text.Digit

namespace RecordQuery

/-!
# The order of texts

Texts are in the order of their code points, and numbers in digits of one
width are in the order of their texts.
-/

namespace Text

/-- The code points of a text. -/
def points (t : Text) : List Nat := t.map Char.toNat

theorem points_injective {s t : Text} (h : s.points = t.points) : s = t :=
  List.map_injective_iff.mpr (fun _ _ ↦ Char.toNat_inj.mp) h

/-- Texts are in the order of the lists of their code points. -/
theorem order_eq_compare (s t : Text) : order s t = compare s.points t.points := by
  induction s generalizing t with
  | nil => cases t <;> rfl
  | cons c s ih =>
      cases t with
      | nil => rfl
      | cons d t =>
          rw [order, ih]
          exact List.compareLex_cons_cons.symm

theorem order_eq_eq_iff {s t : Text} : order s t = .eq ↔ s = t := by
  rw [order_eq_compare, Std.LawfulEqOrd.compare_eq_iff_eq]
  exact ⟨points_injective, congrArg points⟩

theorem order_append {s t : Text} (h : s.length = t.length) (u v : Text) :
    order (s ++ u) (t ++ v) = (order s t).then (order u v) := by
  induction s generalizing t with
  | nil => rw [List.length_eq_zero_iff.mp h.symm]; rfl
  | cons c s ih =>
      cases t with
      | nil => cases h
      | cons d t =>
          rw [List.cons_append, List.cons_append, order, order, ih (Nat.succ.inj h),
            Ordering.then_assoc]

theorem order_cons_self (c : Char) (s t : Text) : order (c :: s) (c :: t) = order s t := by
  simp [order]

end Text

/-! ## Numbers -/

theorem compare_add_left (k m n : Nat) : compare (k + m) (k + n) = compare m n := by
  rcases Nat.lt_trichotomy m n with h | rfl | h
  · rw [Nat.compare_eq_lt.mpr h, Nat.compare_eq_lt.mpr (by omega)]
  · rw [Nat.compare_eq_eq.mpr rfl, Nat.compare_eq_eq.mpr rfl]
  · rw [Nat.compare_eq_gt.mpr h, Nat.compare_eq_gt.mpr (by omega)]

theorem compare_natCast (m n : Nat) : compare (m : Int) (n : Int) = compare m n := by
  simp only [compare, compareOfLessAndEq, Int.ofNat_lt, Int.ofNat_inj]

/-- Of two numbers in two parts, the one with the greater first part is the greater one. -/
theorem compare_mul_add {b r r' : Nat} (hr : r < b) (hr' : r' < b) (q q' : Nat) :
    compare (q * b + r) (q' * b + r') = (compare q q').then (compare r r') := by
  rcases Nat.lt_trichotomy q q' with h | rfl | h
  · have hle : (q + 1) * b ≤ q' * b := Nat.mul_le_mul_right b h
    rw [Nat.succ_mul] at hle
    rw [Nat.compare_eq_lt.mpr h, Nat.compare_eq_lt.mpr (by omega), Ordering.lt_then]
  · rw [Nat.compare_eq_eq.mpr rfl, Ordering.eq_then, compare_add_left]
  · have hle : (q' + 1) * b ≤ q * b := Nat.mul_le_mul_right b h
    rw [Nat.succ_mul] at hle
    rw [Nat.compare_eq_gt.mpr h, Nat.compare_eq_gt.mpr (by omega), Ordering.gt_then]

namespace Text

theorem padded_succ {w : Nat} (hw : 0 < w) (n : Nat) :
    padded (w + 1) n = padded w (n / 10) ++ [Nat.digitChar (n % 10)] := by
  unfold padded ofNat
  by_cases hn : n < 10
  · have hdiv : n / 10 = 0 := by omega
    have hmod : n % 10 = n := by omega
    obtain ⟨w, rfl⟩ : ∃ v, w = v + 1 := ⟨w - 1, by omega⟩
    rw [Nat.toDigits_of_lt_base hn, hdiv, hmod, Nat.toDigits_zero]
    simp [List.replicate_succ']
  · rw [Nat.toDigits_eq_if (by decide), if_neg hn]
    simp

theorem length_padded {w n : Nat} (hw : 0 < w) (hn : n < 10 ^ w) : (padded w n).length = w := by
  have hle := length_ofNat_le hw hn
  rw [padded, List.length_append, List.length_replicate]
  omega

theorem order_padded {w m n : Nat} (hw : 0 < w) (hm : m < 10 ^ w) (hn : n < 10 ^ w) :
    order (padded w m) (padded w n) = compare m n := by
  have hdigits : ∀ d < 10, ∀ e < 10, order [Nat.digitChar d] [Nat.digitChar e] = compare d e := by
    decide
  induction w, hw using Nat.le_induction generalizing m n with
  | base =>
      have hpadded : ∀ k < 10, padded 1 k = [Nat.digitChar k] := by decide
      rw [hpadded m (by omega), hpadded n (by omega), hdigits m (by omega) n (by omega)]
  | succ w hw ih =>
      rw [Nat.pow_succ] at hm hn
      have hm' : m / 10 < 10 ^ w := by omega
      have hn' : n / 10 < 10 ^ w := by omega
      have hsplit := compare_mul_add (Nat.mod_lt m (by decide : 0 < 10))
        (Nat.mod_lt n (by decide : 0 < 10)) (m / 10) (n / 10)
      rw [Nat.div_add_mod', Nat.div_add_mod'] at hsplit
      rw [padded_succ hw, padded_succ hw,
        order_append (by rw [length_padded hw hm', length_padded hw hn']), ih hm' hn',
        hdigits _ (Nat.mod_lt m (by decide)) _ (Nat.mod_lt n (by decide)), hsplit]

theorem order_padded_append {w m n : Nat} (hw : 0 < w) (hm : m < 10 ^ w) (hn : n < 10 ^ w)
    (s t : Text) : order (padded w m ++ s) (padded w n ++ t) = (compare m n).then (order s t) := by
  rw [order_append (by rw [length_padded hw hm, length_padded hw hn]), order_padded hw hm hn]

end Text

end RecordQuery
