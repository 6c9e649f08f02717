import Mathlib.Data.List.Basic

namespace RecordQuery

/-!
# Stable sorting

A list in the order of a tie break that is sorted by a key is in the order
of the key and the tie break, and there is one list only that is.
-/

namespace Sorted

variable {α : Type}

section

variable (cmp : α → α → Ordering) [Std.TransCmp cmp]

theorem isLE_trans (a b c : α) (hab : (cmp a b).isLE = true) (hbc : (cmp b c).isLE = true) :
    (cmp a c).isLE = true := Std.TransCmp.isLE_trans hab hbc

theorem isLE_total (a b : α) : ((cmp a b).isLE || (cmp b a).isLE) = true := by
  have hswap : cmp b a = (cmp a b).swap := Std.OrientedCmp.eq_swap
  rw [hswap]
  cases cmp a b <;> rfl

theorem transCmp_comap {β : Type} (f : β → α) : Std.TransCmp fun a b ↦ cmp (f a) (f b) where
  eq_swap := Std.OrientedCmp.eq_swap
  isLE_trans := Std.TransCmp.isLE_trans

theorem transCmp_swap : Std.TransCmp fun a b ↦ (cmp a b).swap := by
  have hswap : (fun a b ↦ (cmp a b).swap) = fun a b ↦ cmp b a :=
    funext fun a ↦ funext fun b ↦ Std.OrientedCmp.eq_swap.symm
  rw [hswap]
  exact Std.TransCmp.opposite

theorem pairwise_mergeSort (l : List α) :
    (l.mergeSort fun a b ↦ (cmp a b).isLE).Pairwise fun a b ↦ (cmp a b).isLE = true :=
  List.pairwise_mergeSort (isLE_trans cmp) (isLE_total cmp) l

end

theorem mergeSort_congr {le le' : α → α → Bool} {l : List α}
    (h : ∀ a ∈ l, ∀ b ∈ l, le a b = le' a b) : l.mergeSort le = l.mergeSort le' := by
  have hmap := List.map_mergeSort (f := id) h
  rwa [List.map_id, List.map_id] at hmap

theorem mergeSort_pair (le : α → α → Bool) (a b : α) :
    [a, b].mergeSort le = if le a b then [a, b] else [b, a] := by
  simp [List.mergeSort, List.MergeSort.Internal.splitInTwo, List.merge]

variable {cmp tie : α → α → Ordering}

/-- In a strict order items of one rank are one item. -/
theorem eq_of_pairwise_lt [Std.TransCmp cmp] {l : List α}
    (hl : l.Pairwise fun a b ↦ cmp a b = .lt) {a b : α} (ha : a ∈ l) (hb : b ∈ l)
    (heq : cmp a b = .eq) : a = b := by
  have hunique : ∀ ⦃a⦄, a ∈ l → ∀ ⦃b⦄, b ∈ l → cmp a b = .eq → a = b := by
    refine List.Pairwise.forall_of_forall_of_flip (fun _ _ _ ↦ rfl) (hl.imp ?_) (hl.imp ?_)
    · intro a b hlt heq
      rw [hlt] at heq
      cases heq
    · intro a b hlt heq
      rw [Std.OrientedCmp.eq_symm heq] at hlt
      cases hlt
  exact hunique ha hb heq

/-- A list without ties is what every permutation of it is sorted to. -/
theorem mergeSort_eq_of_perm [Std.TransCmp cmp] {l m : List α} (hperm : l.Perm m)
    (hm : m.Pairwise fun a b ↦ cmp a b = .lt) : (l.mergeSort fun a b ↦ (cmp a b).isLE) = m := by
  refine List.Perm.eq_of_pairwise ?_ (pairwise_mergeSort cmp l)
    (hm.imp fun h ↦ Ordering.isLE_of_eq_lt h) ((List.mergeSort_perm l _).trans hperm)
  intro a b ha hb hab hba
  have ha' : a ∈ m := hperm.mem_iff.mp (List.mem_mergeSort.mp ha)
  exact eq_of_pairwise_lt hm ha' hb (Std.OrientedCmp.isLE_antisymm hab hba)

/-- Items can be put in a strict order in one way only. -/
theorem eq_of_perm_of_pairwise_lt [Std.TransCmp cmp] {l m : List α} (hperm : l.Perm m)
    (hl : l.Pairwise fun a b ↦ cmp a b = .lt) (hm : m.Pairwise fun a b ↦ cmp a b = .lt) :
    l = m := by
  rw [← mergeSort_eq_of_perm hperm hm]
  exact (List.mergeSort_of_pairwise (hl.imp fun h ↦ Ordering.isLE_of_eq_lt h)).symm

/-- Items of which no two are of one rank are put in a strict order. -/
theorem pairwise_mergeSort_lt [Std.TransCmp cmp] {l : List α}
    (hl : l.Pairwise fun a b ↦ cmp a b ≠ .eq) :
    (l.mergeSort fun a b ↦ (cmp a b).isLE).Pairwise fun a b ↦ cmp a b = .lt := by
  have hne : (l.mergeSort fun a b ↦ (cmp a b).isLE).Pairwise fun a b ↦ cmp a b ≠ .eq :=
    (List.mergeSort_perm l _).symm.pairwise hl fun h heq ↦ h (Std.OrientedCmp.eq_symm heq)
  apply (hne.and (pairwise_mergeSort cmp l)).imp
  intro a b h
  cases hab : cmp a b with
  | lt => rfl
  | eq => exact absurd hab h.1
  | gt =>
      have hle := h.2
      rw [hab] at hle
      cases hle

/-- Items of which no two are of one rank are sorted alike, in whatever order they come. -/
theorem mergeSort_perm_eq [Std.TransCmp cmp] {l m : List α} (hperm : l.Perm m)
    (hm : m.Pairwise fun a b ↦ cmp a b ≠ .eq) :
    (l.mergeSort fun a b ↦ (cmp a b).isLE) = m.mergeSort fun a b ↦ (cmp a b).isLE :=
  mergeSort_eq_of_perm (hperm.trans (List.mergeSort_perm m _).symm) (pairwise_mergeSort_lt hm)

/-- Sorting by a key keeps the order of a tie break. -/
theorem pairwise_mergeSort_then [Std.TransCmp cmp] {l : List α}
    (hl : l.Pairwise fun a b ↦ tie a b = .lt) :
    (l.mergeSort fun a b ↦ (cmp a b).isLE).Pairwise
      fun a b ↦ (cmp a b).then (tie a b) = .lt := by
  induction l with
  | nil => simp
  | cons a l ih =>
      obtain ⟨hfirst, hl⟩ := List.pairwise_cons.mp hl
      -- the first item is put somewhere into what the others are sorted to
      obtain ⟨l₁, l₂, hcons, hrest, hbefore⟩ :=
        List.mergeSort_cons (isLE_trans cmp) (isLE_total cmp) a l
      have hsorted := pairwise_mergeSort cmp (a :: l)
      have hpairwise := ih hl
      rw [hrest, List.pairwise_append] at hpairwise
      obtain ⟨h₁, h₂, h₁₂⟩ := hpairwise
      rw [hcons, List.pairwise_append, List.pairwise_cons] at hsorted
      rw [hcons, List.pairwise_append, List.pairwise_cons]
      refine ⟨h₁, ⟨?_, h₂⟩, ?_⟩
      · intro b hb
        have hmem : b ∈ l := by
          rw [← List.mem_mergeSort, hrest]
          exact List.mem_append_right _ hb
        have hle : (cmp a b).isLE = true := hsorted.2.1.1 b hb
        rw [hfirst b hmem]
        cases hab : cmp a b with
        | lt => rfl
        | eq => rfl
        | gt =>
            rw [hab] at hle
            cases hle
      · intro b hb c hc
        rcases List.mem_cons.mp hc with rfl | hc
        · have hgt : cmp c b = .gt := by simpa using hbefore b hb
          rw [Std.OrientedCmp.lt_of_gt hgt]
          rfl
        · exact h₁₂ b hb c hc

/-- A key and a tie break together sort as the key does alone. -/
theorem mergeSort_then_eq [Std.TransCmp cmp] [Std.TransCmp tie] {l : List α}
    (hl : l.Pairwise fun a b ↦ tie a b = .lt) :
    (l.mergeSort fun a b ↦ ((cmp a b).then (tie a b)).isLE) =
      l.mergeSort fun a b ↦ (cmp a b).isLE := by
  have hlex : Std.TransCmp fun a b ↦ (cmp a b).then (tie a b) :=
    inferInstanceAs (Std.TransCmp (compareLex cmp tie))
  exact mergeSort_eq_of_perm (List.mergeSort_perm l _).symm (pairwise_mergeSort_then hl)

/-! ## Ties -/

/-- Items none of which goes after another stay in the order in which they came. -/
theorem filter_mergeSort [Std.TransCmp cmp] {l : List α} {p : α → Bool}
    (h : ∀ a ∈ l, ∀ b ∈ l, p a = true → p b = true → (cmp a b).isLE = true) :
    (l.mergeSort fun a b ↦ (cmp a b).isLE).filter p = l.filter p := by
  have hties : (l.filter p).Pairwise fun a b ↦ (cmp a b).isLE = true := by
    apply List.pairwise_of_forall_mem_list
    intro a ha b hb
    obtain ⟨ha, hpa⟩ := List.mem_filter.mp ha
    obtain ⟨hb, hpb⟩ := List.mem_filter.mp hb
    exact h a ha b hb hpa hpb
  have hkept := (List.sublist_mergeSort (isLE_trans cmp) (isLE_total cmp) hties
    List.filter_sublist).filter p
  have hlength := ((List.mergeSort_perm l fun a b ↦ (cmp a b).isLE).filter p).length_eq
  rw [List.filter_filter] at hkept
  simpa using (hkept.eq_of_length (by simpa using hlength.symm)).symm

/-- A list in some order is known from its items and from how those of one rank follow one
another. -/
theorem eq_of_perm_of_filter_eq [Std.TransCmp cmp] {l m : List α} (hperm : l.Perm m)
    (hl : l.Pairwise fun a b ↦ (cmp a b).isLE = true)
    (hm : m.Pairwise fun a b ↦ (cmp a b).isLE = true)
    (hties : ∀ a ∈ m, l.filter (fun b ↦ cmp a b = .eq) = m.filter fun b ↦ cmp a b = .eq) :
    l = m := by
  induction m generalizing l with
  | nil => exact hperm.eq_nil
  | cons b m ih =>
      cases l with
      | nil => exact hperm.nil_eq
      | cons a l =>
          obtain ⟨hfirst, hl⟩ := List.pairwise_cons.mp hl
          obtain ⟨hfirst', hm'⟩ := List.pairwise_cons.mp hm
          -- each of the first items is somewhere in the other list, and so they are of one rank
          have hself : ∀ c, (cmp c c).isLE = true := fun c ↦
            Ordering.isLE_of_eq_eq Std.ReflCmp.compare_self
          have hba : (cmp b a).isLE = true := by
            rcases List.mem_cons.mp (hperm.mem_iff.mp List.mem_cons_self) with rfl | ha
            · exact hself a
            · exact hfirst' a ha
          have hab : (cmp a b).isLE = true := by
            rcases List.mem_cons.mp (hperm.mem_iff.mpr List.mem_cons_self) with rfl | hb
            · exact hself b
            · exact hfirst b hb
          have hrank : cmp b a = .eq := Std.OrientedCmp.isLE_antisymm hba hab
          have hheads := hties b List.mem_cons_self
          rw [List.filter_cons_of_pos (by simpa using hrank),
            List.filter_cons_of_pos (by simpa using Std.ReflCmp.compare_self)] at hheads
          obtain ⟨rfl, -⟩ := List.cons_eq_cons.mp hheads
          rw [ih hperm.cons_inv hl hm']
          intro c hc
          have hcons := hties c (List.mem_cons_of_mem a hc)
          by_cases hca : cmp c a = .eq
          · simpa [hca] using hcons
          · simpa [hca] using hcons

/-- A stable sort gives the one permutation in order that keeps the order of ties. -/
theorem eq_mergeSort_iff [Std.TransCmp cmp] {l items : List α} :
    (l = items.mergeSort fun a b ↦ (cmp a b).isLE) ↔ l.Perm items ∧
      l.Pairwise (fun a b ↦ cmp a b ≠ .gt) ∧
      ∀ a ∈ items, l.filter (fun b ↦ cmp a b = .eq) = items.filter fun b ↦ cmp a b = .eq := by
  have hperm := List.mergeSort_perm items fun a b ↦ (cmp a b).isLE
  have hsorted := pairwise_mergeSort cmp items
  have hties : ∀ a, (items.mergeSort fun a b ↦ (cmp a b).isLE).filter (fun b ↦ cmp a b = .eq) =
      items.filter fun b ↦ cmp a b = .eq := by
    intro a
    apply filter_mergeSort
    intro b _ c _ hb hc
    exact Ordering.isLE_of_eq_eq (Std.TransCmp.eq_trans
      (Std.OrientedCmp.eq_symm (by simpa using hb)) (by simpa using hc))
  constructor
  · rintro rfl
    exact ⟨hperm, hsorted.imp Ordering.isLE_iff_ne_gt.mp, fun a _ ↦ hties a⟩
  · rintro ⟨hl, hpairwise, hkept⟩
    refine eq_of_perm_of_filter_eq (hl.trans hperm.symm)
      (hpairwise.imp Ordering.isLE_iff_ne_gt.mpr) hsorted fun a ha ↦ ?_
    rw [hties, hkept a (hperm.mem_iff.mp ha)]

/-- What is left out before sorting or after it is left out alike. -/
theorem mergeSort_filter [Std.TransCmp cmp] (p : α → Bool) (l : List α) :
    (l.filter p).mergeSort (fun a b ↦ (cmp a b).isLE) =
      (l.mergeSort fun a b ↦ (cmp a b).isLE).filter p := by
  obtain ⟨hperm, hpairwise, hties⟩ := eq_mergeSort_iff.mp
    (rfl : l.mergeSort (fun a b ↦ (cmp a b).isLE) = l.mergeSort fun a b ↦ (cmp a b).isLE)
  refine (eq_mergeSort_iff.mpr ⟨hperm.filter p, hpairwise.filter p, fun a ha ↦ ?_⟩).symm
  rw [List.filter_comm, hties a (List.mem_of_mem_filter ha), List.filter_comm]

theorem mergeSort_mergeSort [Std.TransCmp cmp] (l : List α) :
    ((l.mergeSort fun a b ↦ (cmp a b).isLE).mergeSort fun a b ↦ (cmp a b).isLE) =
      l.mergeSort fun a b ↦ (cmp a b).isLE :=
  List.mergeSort_of_pairwise (pairwise_mergeSort cmp l)

/-- Items that may not stand behind others are in front. -/
theorem filter_append_filter_not {l : List α} {p : α → Bool}
    (h : l.Pairwise fun a b ↦ p b = true → p a = true) :
    l.filter p ++ l.filter (fun a ↦ !p a) = l := by
  induction l with
  | nil => rfl
  | cons a l ih =>
      obtain ⟨hfirst, hl⟩ := List.pairwise_cons.mp h
      cases ha : p a with
      | true => simpa [ha] using ih hl
      | false =>
          have hnone : ∀ b ∈ l, p b = false := by
            intro b hb
            cases hpb : p b with
            | false => rfl
            | true => exact absurd (hfirst b hb hpb) (by simp [ha])
          have hleft : l.filter p = [] := List.filter_eq_nil_iff.mpr fun b hb ↦ by simp [hnone b hb]
          have hright : l.filter (fun b ↦ !p b) = l :=
            List.filter_eq_self.mpr fun b hb ↦ by simp [hnone b hb]
          simp [ha, hleft, hright]

end Sorted

end RecordQuery
