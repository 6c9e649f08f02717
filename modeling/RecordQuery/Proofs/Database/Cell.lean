import RecordQuery.Proofs.Calendar.Order
import RecordQuery.Proofs.Value.Order

namespace RecordQuery

/-!
# Values and their cells

Values of one type stand to each other as their cells do, and cells that
are no floating-point numbers have a linear order.
-/

/-- A decimal is seen as a whole number of 64 bits or as a binary number. -/
theorem Cell.ofDecimal_eq (d : Decimal) :
    (∃ n, ofDecimal d = integer n ∧ n.natAbs < 2 ^ 63) ∨
      ofDecimal d = real (Binary64.ofDecimal d) := by
  unfold ofDecimal
  dsimp only
  split
  · next n _ =>
      split
      · exact Or.inl ⟨n, rfl, by omega⟩
      · exact Or.inr rfl
  · exact Or.inr rfl

namespace Value

/-- A value of a type that can be put in order. Moments are those on the wall clock of UTC. -/
inductive IsOf : FieldType → Value → Prop
  | text (t : Text) : IsOf .text (text t)
  | int (n : Int) : IsOf .int (int n)
  | bool (b : Bool) : IsOf .bool (bool b)
  | date (d : Date) : IsOf .date (date d)
  | moment {t : Moment} (h : t.offsetMicros = 0) : IsOf .datetime (moment t)

variable {type : FieldType} {v w : Value}

theorem IsOf.ofValue_ne_null (h : IsOf type v) : Cell.ofValue v ≠ .null := by
  cases h <;> exact nofun

section

variable {s t : Moment}

theorem instant_eq (h : t.offsetMicros = 0) : t.instant = t.wallMicros := by
  rw [Moment.instant, h, Int.sub_zero]

theorem order_moment (hs : s.offsetMicros = 0) (ht : t.offsetMicros = 0) :
    Moment.order s t = Text.order (Cell.momentText s) (Cell.momentText t) := by
  rw [Moment.order, instant_eq hs, instant_eq ht, Cell.order_momentText]

end

/-- Values of one type are in the order of their cells. -/
theorem compareTo_eq (hv : IsOf type v) (hw : IsOf type w) :
    compareTo v w = .ok (.ofOrdering ((Cell.ofValue v).order (Cell.ofValue w))) := by
  cases hv with
  | text s =>
      cases hw
      rfl
  | int m =>
      cases hw
      rfl
  | bool a =>
      cases hw with
      | bool b => cases a <;> cases b <;> rfl
  | date d =>
      cases hw with
      | date e =>
          have horder : (Cell.ofValue (date d)).order (Cell.ofValue (date e)) = Date.order d e :=
            Date.order_text d e
          rw [horder]
          rfl
  | moment hs =>
      cases hw with
      | moment ht =>
          rw [compareTo_moment, order_moment hs ht]
          rfl

/-- Values of one type are equal if their cells are. -/
theorem equals_iff (hv : IsOf type v) (hw : IsOf type w) :
    equals v w = true ↔ (Cell.ofValue v).order (Cell.ofValue w) = .eq := by
  cases hv with
  | text s =>
      cases hw with
      | text t => simp [equals, aligned, same, Cell.ofValue, Cell.order, Text.order_eq_eq_iff]
  | int m =>
      cases hw with
      | int n => simp [equals, aligned, same, Cell.ofValue, Cell.order]
  | bool a =>
      cases hw with
      | bool b => cases a <;> cases b <;> decide
  | date d =>
      cases hw with
      | date e =>
          simp [equals, aligned, same, Cell.ofValue, Cell.order, Date.order_text,
            Date.order_eq_eq_iff]
  | moment hs =>
      cases hw with
      | moment ht =>
          rw [equals_moment, instant_eq hs, instant_eq ht]
          simp [Cell.ofValue, Cell.order, Cell.order_momentText]

theorem order_null_left (h : IsOf type v) : Cell.order .null (Cell.ofValue v) = .lt := by
  cases h <;> rfl

theorem order_null_right (h : IsOf type v) : (Cell.ofValue v).order .null = .gt := by
  cases h <;> rfl

/-- Missing values, too, are in the order of their cells. -/
theorem naturalRelation_eq (hv : v = null ∨ IsOf type v) (hw : w = null ∨ IsOf type w) :
    naturalRelation v w = .ok (.ofOrdering ((Cell.ofValue v).order (Cell.ofValue w))) := by
  rcases hv with rfl | hv
  · rcases hw with rfl | hw
    · rfl
    · have horder : (Cell.ofValue null).order (Cell.ofValue w) = .lt := order_null_left hw
      rw [horder]
      cases hw <;> rfl
  · rcases hw with rfl | hw
    · have horder : (Cell.ofValue v).order (Cell.ofValue null) = .gt := order_null_right hv
      rw [horder]
      cases hv <;> rfl
    · rw [← compareTo_eq hv hw]
      cases hv <;> cases hw <;> rfl

theorem keepOrder_of_isOf (hv : v = null ∨ IsOf type v) (w : Value) : keepOrder v w = true := by
  rcases hv with rfl | hv
  · rfl
  · cases hv <;> rfl

end Value

/-! ## The order of cells -/

namespace Cell

/-- Missing values, numbers and texts, in this order. -/
def rank : Cell → Nat
  | null => 0
  | integer _ | real _ => 1
  | text _ => 2

def whole : Cell → Int
  | integer n => n
  | _ => 0

def points : Cell → List Nat
  | text t => t.points
  | _ => []

/-- The order of cells without floating-point numbers, by rank, number and text. -/
def linearOrder : Cell → Cell → Ordering :=
  compareLex (compareOn rank) (compareLex (compareOn whole) (compareOn points))

instance : Std.TransCmp linearOrder :=
  inferInstanceAs (Std.TransCmp (compareLex _ (compareLex _ _)))

def isReal : Cell → Bool
  | real _ => true
  | _ => false

theorem order_eq_linearOrder {a b : Cell} (ha : a.isReal = false) (hb : b.isReal = false) :
    order a b = linearOrder a b := by
  cases a with
  | null =>
      cases b with
      | real x => cases hb
      | null | integer n | text t => rfl
  | integer m =>
      cases b with
      | real x => cases hb
      | integer n => simp [order, linearOrder, compareLex, compareOn, rank, whole, points]
      | null | text t => rfl
  | real x => cases ha
  | text s =>
      cases b with
      | real x => cases hb
      | text t => exact Text.order_eq_compare s t
      | null | integer n => rfl

end Cell

theorem Value.isReal_ofValue {type : FieldType} {v : Value} (h : v = null ∨ IsOf type v) :
    (Cell.ofValue v).isReal = false := by
  rcases h with rfl | h
  · rfl
  · cases h <;> rfl

end RecordQuery
