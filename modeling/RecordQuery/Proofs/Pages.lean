import Mathlib.Algebra.Order.Floor.Div
import RecordQuery.Source

namespace RecordQuery

/-!
# Pages of a list

The pages of one size, read one after another, show every item of a list
at one place. There are as many of them as the list is long, divided by
the size and rounded up, and there is nothing on the pages behind them.
-/

namespace Pagination

/-- What a page shows of a list. -/
def cut {α : Type} (p : Pagination) (items : List α) : List α :=
  (items.drop p.offset).take p.limit

variable {α : Type}

theorem length_cut (p : Pagination) (items : List α) :
    (p.cut items).length = min p.size (items.length - (p.number - 1) * p.size) := by
  rw [cut, List.length_take, List.length_drop]
  rfl

/-- The first page is served under two numbers. -/
theorem cut_zero {size : Nat} (h : 0 < size) (items : List α) :
    cut ⟨0, size, h⟩ items = cut ⟨1, size, h⟩ items := by
  rw [cut, cut, offset_zero, offset_one]
  rfl

theorem cut_eq_nil {p : Pagination} {items : List α}
    (h : items.length ⌈/⌉ p.size < p.number) : p.cut items = [] := by
  have hpages : items.length ⌈/⌉ p.size ≤ p.number - 1 := Nat.le_sub_one_of_lt h
  have hlength : items.length ≤ p.offset := by
    rw [offset, Nat.mul_comm]
    exact (ceilDiv_le_iff_le_mul p.size_pos).mp hpages
  rw [cut, List.drop_eq_nil_of_le hlength, List.take_nil]

/-- The first pages together show the beginning of a list. -/
theorem flatMap_cut {size : Nat} (h : 0 < size) (items : List α) (count : Nat) :
    ((List.range' 1 count).flatMap fun n ↦ cut ⟨n, size, h⟩ items) = items.take (count * size) := by
  induction count with
  | zero => simp
  | succ count ih =>
      have hlast : cut ⟨1 + count, size, h⟩ items = (items.drop (count * size)).take size := by
        rw [cut, offset, limit, Nat.add_sub_cancel_left]
      rw [List.range'_1_concat, List.flatMap_append, ih, List.flatMap_singleton, hlast,
        Nat.succ_mul, List.take_add]

theorem flatMap_cut_all {size : Nat} (h : 0 < size) (items : List α) :
    ((List.range' 1 (items.length ⌈/⌉ size)).flatMap fun n ↦ cut ⟨n, size, h⟩ items) = items := by
  have hlength : items.length ≤ (items.length ⌈/⌉ size) * size := by
    rw [Nat.mul_comm]
    exact (ceilDiv_le_iff_le_mul h).mp (Nat.le_refl _)
  rw [flatMap_cut, List.take_of_length_le hlength]

end Pagination

/-- The number of pages is the number of items by the size of a page, rounded up. -/
theorem pageCount_eq (total : Nat) {size : Nat} (h : 0 < size) :
    pageCount total size = .ok ((total ⌈/⌉ size : Nat) : Int) := by
  rw [Nat.ceilDiv_eq_add_pred_div, pageCount]
  rcases Nat.eq_zero_or_pos total with rfl | hpos
  · rw [if_pos (by omega), Nat.div_eq_of_lt (by omega)]
    rfl
  · have hsub : (total : Int) + size - 1 = ((total + size - 1 : Nat) : Int) := by omega
    rw [if_neg (by omega), if_neg (by omega), Int.fdiv_eq_ediv_of_nonneg _ (by omega), hsub,
      Int.natCast_ediv]

namespace Specification

/-- The same request for another page of the same size. -/
def atPage (s : Specification) (n : Nat) : Specification :=
  { s with pagination := { s.pagination with number := n } }

end Specification

end RecordQuery
