import RecordQuery.Proofs.PageArgument

namespace RecordQuery

/-!
# Page arguments in digits

A page is served if its number, its size and its offset have 64 bits,
whatever zeros stand before the number and the size. Otherwise the number,
the size or the offset is to blame, in this order.
-/

/-- The number that an argument asks for, be it given or left out. -/
def Arguments.Asks (args : Arguments) (key : Text) (standard n : Int) : Prop :=
  match args.get? key with
  | none => n = standard
  | some t => t.IsPageNumeral n

namespace Pagination

variable {args : Arguments} {n s : Int}

theorem numberOf_of_asks (h : args.Asks pageNumberKey 1 n) :
    numberOf args = if 0 ≤ n ∧ n ≤ int64Max then .ok n.toNat else reject .invalidPageNumber := by
  unfold Arguments.Asks at h
  unfold numberOf
  cases hget : args.get? pageNumberKey with
  | none =>
      rw [hget] at h
      cases h
      rfl
  | some t =>
      rw [hget] at h
      dsimp only at h ⊢
      rw [readPageInt_of_isPageNumeral h]
      by_cases hfits : fitsInt64 n = true
      · have hle := (fitsInt64_iff.mp hfits).2
        simp only [if_pos hfits, hle, and_true]
        rfl
      · have hout : ¬(0 ≤ n ∧ n ≤ int64Max) := fun ⟨hn, hle⟩ ↦
          hfits (fitsInt64_iff.mpr ⟨Int.le_trans (by decide) hn, hle⟩)
        rw [if_neg hfits, if_neg hout]
        rfl

theorem sizeOf_of_asks (h : args.Asks pageSizeKey 25 s) :
    sizeOf args = if h : 1 ≤ s ∧ s ≤ int64Max then .ok ⟨s.toNat, by omega⟩
      else reject .invalidPageSize := by
  unfold Arguments.Asks at h
  unfold sizeOf
  cases hget : args.get? pageSizeKey with
  | none =>
      rw [hget] at h
      cases h
      rfl
  | some t =>
      rw [hget] at h
      dsimp only at h ⊢
      rw [readPageInt_of_isPageNumeral h]
      by_cases hfits : fitsInt64 s = true
      · have hle := (fitsInt64_iff.mp hfits).2
        rw [if_pos hfits]
        by_cases hpos : 0 < s
        · rw [dif_pos ⟨hpos, hle⟩]
          exact dif_pos hpos
        · rw [dif_neg fun h ↦ hpos h.1]
          exact dif_neg hpos
      · have hout : ¬(1 ≤ s ∧ s ≤ int64Max) := fun ⟨hpos, hle⟩ ↦
          hfits (fitsInt64_iff.mpr ⟨Int.le_trans (by decide) hpos, hle⟩)
        rw [if_neg hfits, dif_neg hout]
        rfl

theorem offset_eq (p : Pagination) : (p.offset : Int) = max ((p.number : Int) - 1) 0 * p.size := by
  have hsteps : ((p.number - 1 : Nat) : Int) = max ((p.number : Int) - 1) 0 := by omega
  rw [offset, Int.natCast_mul, hsteps]

theorem ofArguments_of_number_out (hnumber : args.Asks pageNumberKey 1 n)
    (hout : ¬(0 ≤ n ∧ n ≤ int64Max)) : ofArguments args = reject .invalidPageNumber := by
  rw [ofArguments, numberOf_of_asks hnumber, if_neg hout]
  rfl

theorem ofArguments_of_size_out (hnumber : args.Asks pageNumberKey 1 n)
    (hsize : args.Asks pageSizeKey 25 s) (hn : 0 ≤ n ∧ n ≤ int64Max)
    (hout : ¬(1 ≤ s ∧ s ≤ int64Max)) : ofArguments args = reject .invalidPageSize := by
  rw [ofArguments, numberOf_of_asks hnumber, if_pos hn, sizeOf_of_asks hsize, dif_neg hout]
  rfl

theorem ofArguments_of_fits (hnumber : args.Asks pageNumberKey 1 n)
    (hsize : args.Asks pageSizeKey 25 s) (hn : 0 ≤ n ∧ n ≤ int64Max) (hs : 1 ≤ s ∧ s ≤ int64Max) :
    ofArguments args = if int64Max < max (n - 1) 0 * s then reject .pageOutOfRange
      else .ok ⟨n.toNat, s.toNat, by omega⟩ := by
  let p : Pagination := ⟨n.toNat, s.toNat, by omega⟩
  have hoffset : (p.offset : Int) = max (n - 1) 0 * s := by
    rw [offset_eq, Int.toNat_of_nonneg hn.1, Int.toNat_of_nonneg (Int.le_trans (by decide) hs.1)]
  rw [ofArguments, numberOf_of_asks hnumber, if_pos hn, sizeOf_of_asks hsize, dif_pos hs, ← hoffset]
  rfl

/-- Page arguments are accepted if and only if the number, the size and the offset of the page have
64 bits. Else the number is to blame, if it is in its range the size, and if that is in its range
the number again. -/
theorem ofArguments_of_asks (hnumber : args.Asks pageNumberKey 1 n)
    (hsize : args.Asks pageSizeKey 25 s) :
    (∀ p, ofArguments args = .ok p ↔ (p.number = n ∧ p.size = s) ∧
      (0 ≤ n ∧ n ≤ int64Max) ∧ (1 ≤ s ∧ s ≤ int64Max) ∧ max (n - 1) 0 * s ≤ int64Max) ∧
    (¬(0 ≤ n ∧ n ≤ int64Max) → ofArguments args = reject .invalidPageNumber) ∧
    ((0 ≤ n ∧ n ≤ int64Max) → ¬(1 ≤ s ∧ s ≤ int64Max) →
      ofArguments args = reject .invalidPageSize) ∧
    ((0 ≤ n ∧ n ≤ int64Max) → (1 ≤ s ∧ s ≤ int64Max) → int64Max < max (n - 1) 0 * s →
      ofArguments args = reject .pageOutOfRange ∧
        QueryError.pageOutOfRange.code = .invalidPageNumber) := by
  refine ⟨fun p ↦ ⟨fun hp ↦ ?_, ?_⟩, ofArguments_of_number_out hnumber,
    ofArguments_of_size_out hnumber hsize, fun hn hs hlarge ↦ ⟨?_, rfl⟩⟩
  · by_cases hn : 0 ≤ n ∧ n ≤ int64Max
    · by_cases hs : 1 ≤ s ∧ s ≤ int64Max
      · rw [ofArguments_of_fits hnumber hsize hn hs] at hp
        split at hp
        · cases hp
        · next hoffset =>
            cases hp
            exact ⟨⟨Int.toNat_of_nonneg hn.1, Int.toNat_of_nonneg (by omega)⟩, hn, hs,
              Int.not_lt.mp hoffset⟩
      · rw [ofArguments_of_size_out hnumber hsize hn hs] at hp
        cases hp
    · rw [ofArguments_of_number_out hnumber hn] at hp
      cases hp
  · rintro ⟨⟨rfl, rfl⟩, hn, hs, hoffset⟩
    rw [ofArguments_of_fits hnumber hsize hn hs, if_neg (Int.not_lt.mpr hoffset)]
    rfl
  · rw [ofArguments_of_fits hnumber hsize hn hs, if_pos hlarge]

/-- The third page of the largest size of which there is one, with zeros before its number. -/
theorem ofArguments_third_page :
    let number : Text := " +0000003\t".toList
    let size : Text := "4611686018427387903".toList
    let args : Arguments := [(pageNumberKey, number), (pageSizeKey, size)]
    args.Asks pageNumberKey 1 3 ∧ args.Asks pageSizeKey 25 4611686018427387903 ∧
      ofArguments args = .ok ⟨3, 4611686018427387903, by decide⟩ := by
  intro number size args
  have hnumber : args.Asks pageNumberKey 1 3 :=
    ⟨[' '], ['+'], false, [0, 0, 0, 0, 0, 0, 3], ['\t'],
      List.forall_mem_singleton.mpr (by decide), List.forall_mem_singleton.mpr (by decide), .plus,
      by decide, by decide, by decide, by decide, by decide⟩
  have hsize : args.Asks pageSizeKey 25 4611686018427387903 :=
    ⟨[], [], false, [4, 6, 1, 1, 6, 8, 6, 0, 1, 8, 4, 2, 7, 3, 8, 7, 9, 0, 3], [], nofun,
      nofun, .none, by decide, by decide, by decide, by decide, by decide⟩
  have haccepted := (ofArguments_of_asks hnumber hsize).1 ⟨3, 4611686018427387903, by decide⟩
  exact ⟨hnumber, hsize, haccepted.mpr ⟨⟨rfl, rfl⟩, by decide, by decide, by decide⟩⟩

end Pagination

end RecordQuery
