import Mathlib.Data.Rat.Cast.Order
import RecordQuery.Proofs.Number.Decimal
import RecordQuery.Proofs.StableSort
import RecordQuery.Proofs.Text.Order
import RecordQuery.Record

namespace RecordQuery

/-!
# The order of values of one type

Values of one type, and missing values among them, have a linear order:
numbers by what they are worth, dates and moments by their place in time,
texts by their code points. Two values stand to each other as in this order
unless they are moments of one zone whose clocks were put back between
them. A sort by values that all do follows it and nothing else.
-/

namespace Value

/-! ## Values of a type -/

/-- A value of the type that a field is declared with. Moments may have any offset or none, or be
in a zone, and floating-point numbers are finite. -/
inductive HasType : FieldType → Value → Prop
  | text (t : Text) : HasType .text (text t)
  | int (n : Int) : HasType .int (int n)
  | float {x : Binary64} (h : x.isFinite = true) : HasType .float (float x)
  | decimal (d : Decimal) : HasType .decimal (decimal d)
  | bool (b : Bool) : HasType .bool (bool b)
  | date (d : Date) : HasType .date (date d)
  | moment (t : Moment) : HasType .datetime (moment t)
  | zoned (t : ZonedMoment) : HasType .datetime (zoned t)
  | uuid (u : Uuid) : HasType .uuid (uuid u)

variable {type : FieldType} {v w : Value}

def hasType : FieldType → Value → Bool
  | .text, text _ | .int, int _ | .decimal, decimal _ | .bool, bool _ | .date, date _
  | .datetime, moment _ | .datetime, zoned _ | .uuid, uuid _ => true
  | .float, float x => x.isFinite
  | _, _ => false

theorem hasType_eq_true_iff : hasType type v = true ↔ HasType type v := by
  constructor
  · intro h
    unfold hasType at h
    split at h
    · exact .text _
    · exact .int _
    · exact .decimal _
    · exact .bool _
    · exact .date _
    · exact .moment _
    · exact .zoned _
    · exact .uuid _
    · exact .float h
    · cases h
  · intro h
    cases h with
    | float h => exact h
    | text | int | decimal | bool | date | moment | zoned | uuid => rfl

instance : Decidable (HasType type v) := decidable_of_iff _ hasType_eq_true_iff

instance : Decidable (v = null) :=
  decidable_of_iff (v.isNull = true) (by cases v <;> simp [isNull])

/-! ## Moments with and without an offset -/

theorem sameAwareness_inUtc (s t : Moment) : sameAwareness s.inUtc t.inUtc = true := by
  obtain ⟨_, _, _ | _⟩ := s <;> obtain ⟨_, _, _ | _⟩ := t <;> rfl

theorem relateMoments_inUtc (s t : Moment) :
    relateMoments s.inUtc t.inUtc = .ok (.ofOrdering (Moment.order s t)) := by
  rw [relateMoments, if_pos (sameAwareness_inUtc s t), Moment.order_inUtc]

theorem compareTo_moment (s t : Moment) :
    compareTo (moment s) (moment t) = .ok (.ofOrdering (Moment.order s t)) := by
  cases haware : sameAwareness s t with
  | true => simp [compareTo, aligned, haware, relate, relateMoments]
  | false => simp [compareTo, aligned, haware, relate, relateMoments_inUtc]

/-- A moment in a zone stands to others, but those of its zone, as one with its offset does. -/
theorem compareTo_of_moment? {v w : Value} {s t : Moment} (hv : v.moment? = some s)
    (hw : w.moment? = some t) (hkeep : keepOrder v w = true) :
    compareTo v w = .ok (.ofOrdering (Moment.order s t)) := by
  cases v with
  | moment x =>
      obtain rfl : x = s := Option.some.inj hv
      cases w with
      | moment y =>
          obtain rfl : y = t := Option.some.inj hw
          exact compareTo_moment x y
      | zoned y =>
          obtain rfl : y.moment = t := Option.some.inj hw
          exact relateMoments_inUtc x y.moment
      | _ => cases hw
  | zoned x =>
      obtain rfl : x.moment = s := Option.some.inj hv
      cases w with
      | moment y =>
          obtain rfl : y = t := Option.some.inj hw
          exact relateMoments_inUtc x.moment y
      | zoned y =>
          obtain rfl : y.moment = t := Option.some.inj hw
          have horder : x.order y = Moment.order x.moment y.moment := of_decide_eq_true hkeep
          rw [← horder]
          rfl
      | _ => cases hw
  | _ => cases hv

theorem isNull_of_moment? {v : Value} {s : Moment} (hv : v.moment? = some s) :
    v.isNull = false := by
  cases v with
  | null => cases hv
  | _ => rfl

theorem keepOrder_moment {v : Value} {s : Moment} (hv : v.moment? = some s) (t : Moment) :
    keepOrder v (moment t) = true := by
  cases v with
  | list | tuple => cases hv
  | _ => rfl

theorem equals_moment (s t : Moment) :
    equals (moment s) (moment t) = true ↔ s.instant = t.instant := by
  cases haware : sameAwareness s t with
  | true => simp [equals, aligned, haware, same]
  | false => simp [equals, aligned, haware, same, sameAwareness_inUtc]

theorem isAware_inUtc (t : Moment) : t.inUtc.isAware = true := by
  obtain ⟨_, _, _ | _⟩ := t <;> rfl

/-- A moment in a zone is equal to one with its offset unless its clocks show it twice or never. -/
theorem equals_of_moment? {v : Value} {s : Moment} (hv : v.moment? = some s) (t : Moment) :
    equals v (moment t) = (!v.isAmbiguous && decide (s.instant = t.instant)) := by
  cases v with
  | moment x =>
      obtain rfl : x = s := Option.some.inj hv
      rw [Bool.eq_iff_iff, equals_moment]
      simp [isAmbiguous]
  | zoned x =>
      obtain rfl : x.moment = s := Option.some.inj hv
      simp [equals, aligned, same, sameInstant, isAware_inUtc, isAmbiguous, ZonedMoment.instant]
  | _ => cases hv

/-! ## The linear order -/

def rank (v : Value) : Nat := if v.isNull then 0 else 1

/-- What a number is worth, and the place of a date, a moment or an identifier among others. -/
def position : Value → ℚ
  | bool b => if b then 1 else 0
  | int n => n
  | float x => (x.toDecimal?.map Decimal.toRat).getD 0
  | decimal d => d.toRat
  | date d => d.dayNumber
  | moment t => t.instant
  | zoned t => t.instant
  | uuid u => u.number
  | _ => 0

def points : Value → List Nat
  | text t => t.points
  | _ => []

def linearOrder : Value → Value → Ordering :=
  compareLex (compareOn rank) (compareLex (compareOn position) (compareOn points))

instance : Std.TransCmp linearOrder :=
  inferInstanceAs (Std.TransCmp (compareLex _ (compareLex _ _)))

theorem linearOrder_eq (v w : Value) : linearOrder v w =
    (compare v.rank w.rank).then
      ((compare v.position w.position).then (compare v.points w.points)) := rfl

theorem compare_intCast (m n : Int) : compare (m : ℚ) n = compare m n := by
  rw [← cmp_eq_compare, ← cmp_eq_compare]
  exact Int.cast_strictMono.cmp_map_eq m n

theorem compare_natCast_rat (m n : Nat) : compare (m : ℚ) n = compare m n := by
  rw [← cmp_eq_compare, ← cmp_eq_compare]
  exact Nat.strictMono_cast.cmp_map_eq m n

theorem relateNumbers_finite {x y : Decimal} (hv : v.number? = some (.finite x))
    (hw : w.number? = some (.finite y)) :
    relateNumbers v w = .ok (.ofOrdering (Decimal.order x y)) := by
  rw [relateNumbers, hv, hw]
  dsimp only [Number.relate]
  cases Decimal.order x y <;> rfl

theorem exists_number?_float {x : Binary64} (h : x.isFinite = true) :
    ∃ d, x.toDecimal? = some d ∧ (float x).number? = some (.finite d) := by
  cases x with
  | finite negative m q =>
      obtain ⟨d, hd⟩ := Option.isSome_iff_exists.mp h
      exact ⟨d, hd, by simp [number?, Number.ofBinary64, hd]⟩
  | infinite negative => cases h
  | nan => cases h

theorem HasType.exists_moment?_eq (h : HasType .datetime v) : ∃ t, v.moment? = some t := by
  cases h with
  | moment t => exact ⟨t, rfl⟩
  | zoned t => exact ⟨t.moment, rfl⟩

theorem linearOrder_of_moment? {s t : Moment} (hv : v.moment? = some s) (hw : w.moment? = some t) :
    linearOrder v w = Moment.order s t := by
  have hplace : ∀ {u : Value} {m : Moment}, u.moment? = some m →
      u.rank = 1 ∧ u.position = m.instant ∧ u.points = [] := by
    intro u m hu
    cases u with
    | moment t | zoned t =>
        cases hu
        exact ⟨rfl, rfl, rfl⟩
    | _ => cases hu
  obtain ⟨hrank, hposition, hpoints⟩ := hplace hv
  obtain ⟨hrank', hposition', hpoints'⟩ := hplace hw
  rw [linearOrder_eq, hrank, hposition, hpoints, hrank', hposition', hpoints', compare_intCast]
  simp [Moment.order]

/-- Values of one type stand to each other as in the linear order, if they are no moments of a
zone whose clocks were put back between them. -/
theorem compareTo_eq_linearOrder (hv : HasType type v) (hw : HasType type w)
    (hkeep : keepOrder v w = true) : compareTo v w = .ok (.ofOrdering (linearOrder v w)) := by
  have hmoments (htype : type = .datetime) :
      compareTo v w = .ok (.ofOrdering (linearOrder v w)) := by
    subst htype
    obtain ⟨s, hs⟩ := hv.exists_moment?_eq
    obtain ⟨t, ht⟩ := hw.exists_moment?_eq
    rw [compareTo_of_moment? hs ht hkeep, linearOrder_of_moment? hs ht]
  cases hv with
  | text s =>
      cases hw with
      | text t =>
          have horder : linearOrder (text s) (text t) = Text.order s t := by
            simp [linearOrder_eq, rank, isNull, position, points, Text.order_eq_compare]
          rw [horder]
          rfl
  | int m =>
      cases hw with
      | int n =>
          have horder : linearOrder (int m) (int n) = compare m n := by
            simp [linearOrder_eq, rank, isNull, position, points, compare_intCast]
          rw [horder]
          rfl
  | @float x hx =>
      cases hw with
      | @float y hy =>
          obtain ⟨d, hd, hnumber⟩ := exists_number?_float hx
          obtain ⟨e, he, hnumber'⟩ := exists_number?_float hy
          have horder : linearOrder (float x) (float y) = Decimal.order d e := by
            simp [linearOrder_eq, rank, isNull, position, points, hd, he, Decimal.order_eq_compare]
          rw [horder]
          exact relateNumbers_finite hnumber hnumber'
  | decimal d =>
      cases hw with
      | decimal e =>
          have horder : linearOrder (decimal d) (decimal e) = Decimal.order d e := by
            simp [linearOrder_eq, rank, isNull, position, points, Decimal.order_eq_compare]
          rw [horder]
          exact relateNumbers_finite (v := decimal d) (w := decimal e) rfl rfl
  | bool a =>
      cases hw with
      | bool b => cases a <;> cases b <;> rfl
  | date d =>
      cases hw with
      | date e =>
          have horder : linearOrder (date d) (date e) = Date.order d e := by
            simp [linearOrder_eq, rank, isNull, position, points, compare_natCast_rat, Date.order]
          rw [horder]
          rfl
  | moment | zoned => exact hmoments rfl
  | uuid u =>
      cases hw with
      | uuid x =>
          have horder : linearOrder (uuid u) (uuid x) = Uuid.order u x := by
            simp [linearOrder_eq, rank, isNull, position, points, compare_natCast_rat, Uuid.order]
          rw [horder]
          rfl

theorem HasType.isNull_eq (h : HasType type v) : v.isNull = false := by cases h <;> rfl

theorem HasType.rank_eq (h : HasType type v) : v.rank = 1 := by cases h <;> rfl

theorem HasType.linearOrder_null_left (h : HasType type v) : linearOrder null v = .lt := by
  rw [linearOrder_eq, h.rank_eq]
  rfl

theorem HasType.linearOrder_null_right (h : HasType type v) : linearOrder v null = .gt := by
  rw [linearOrder_eq, h.rank_eq]
  rfl

theorem HasType.naturalRelation_eq (hv : HasType type v) (hw : HasType type w) :
    naturalRelation v w = compareTo v w := by
  cases hv <;> cases hw <;> rfl

/-- Missing values, too, stand to others as in the linear order. -/
theorem naturalRelation_eq_linearOrder (hv : v = null ∨ HasType type v)
    (hw : w = null ∨ HasType type w) (hkeep : keepOrder v w = true) :
    naturalRelation v w = .ok (.ofOrdering (linearOrder v w)) := by
  rcases hv with rfl | hv
  · rcases hw with rfl | hw
    · rfl
    · rw [hw.linearOrder_null_left]
      cases hw <;> rfl
  · rcases hw with rfl | hw
    · rw [hv.linearOrder_null_right]
      cases hv <;> rfl
    · rw [hv.naturalRelation_eq hw, compareTo_eq_linearOrder hv hw hkeep]

/-- How values of one type stand to each other: as in the linear order, except for moments of one
zone, which stand as its clocks show them. -/
def clockOrder : Value → Value → Ordering
  | zoned s, zoned t => s.order t
  | v, w => linearOrder v w

theorem clockOrder_cases (v w : Value) : (∃ s t, v = zoned s ∧ w = zoned t) ∨
    clockOrder v w = linearOrder v w ∧ clockOrder w v = linearOrder w v := by
  cases v with
  | zoned s =>
      cases w with
      | zoned t => exact .inl ⟨s, t, rfl, rfl⟩
      | _ => exact .inr ⟨rfl, rfl⟩
  | _ =>
      refine .inr ⟨rfl, ?_⟩
      cases w <;> rfl

theorem clockOrder_swap (v w : Value) : clockOrder w v = (clockOrder v w).swap := by
  obtain ⟨s, t, rfl, rfl⟩ | ⟨hvw, hwv⟩ := clockOrder_cases v w
  · exact ZonedMoment.order_swap s t
  · rw [hvw, hwv]
    exact Std.OrientedCmp.eq_swap

theorem clockOrder_of_keepOrder (h : keepOrder v w = true) : clockOrder v w = linearOrder v w := by
  obtain ⟨s, t, rfl, rfl⟩ | ⟨hvw, -⟩ := clockOrder_cases v w
  · exact (of_decide_eq_true h).trans (linearOrder_of_moment? rfl rfl).symm
  · exact hvw

theorem naturalRelation_eq_clockOrder (hv : v = null ∨ HasType type v)
    (hw : w = null ∨ HasType type w) :
    naturalRelation v w = .ok (.ofOrdering (clockOrder v w)) := by
  cases hkeep : keepOrder v w with
  | true => rw [clockOrder_of_keepOrder hkeep, naturalRelation_eq_linearOrder hv hw hkeep]
  | false =>
      -- only moments in zones can stand to each other as their clocks alone show them
      rcases hv with rfl | hv
      · cases hkeep
      · cases hv with
        | zoned s =>
            rcases hw with rfl | hw
            · cases hkeep
            · cases hw with
              | zoned t => rfl
              | _ => cases hkeep
        | _ => cases hkeep

/-! ## Sorting -/

theorem naturalOrder_of_naturalRelation {o : Ordering}
    (h : naturalRelation v w = .ok (.ofOrdering o)) : naturalOrder v w = .ok o := by
  rw [naturalOrder, h]
  cases o <;> rfl

theorem areOrdered_of_naturalRelation {o : Ordering}
    (h : naturalRelation v w = .ok (.ofOrdering o)) : areOrdered v w = keepOrder v w := by
  rw [areOrdered, h]
  cases o <;> rfl

theorem allOrdered_of_forall {vs : List Value}
    (h : ∀ v ∈ vs, ∀ w ∈ vs, areOrdered v w = true) : allOrdered vs = true := by
  induction vs with
  | nil => rfl
  | cons v vs ih =>
      rw [allOrdered, Bool.and_eq_true, List.all_eq_true]
      constructor
      · intro w hw
        exact h v List.mem_cons_self w (List.mem_cons_of_mem v hw)
      · exact ih fun a ha b hb ↦ h a (List.mem_cons_of_mem v ha) b (List.mem_cons_of_mem v hb)

end Value

/-- A sort by keys that stand to each other as some order has it is a sort by that order. -/
theorem sortOn_eq_mergeSort {α : Type} {key : α → Value} {items : List α}
    {cmp : α → α → Ordering} (h : ∀ a ∈ items, ∀ b ∈ items,
      Value.naturalRelation (key a) (key b) = .ok (.ofOrdering (cmp a b)))
    (hkeep : ∀ a ∈ items, ∀ b ∈ items, Value.keepOrder (key a) (key b) = true) (d : Direction) :
    sortOn key d items = .ok (items.mergeSort fun a b ↦ (d.apply (cmp a b)).isLE) := by
  have hordered : Value.allOrdered (items.map key) = true := by
    apply Value.allOrdered_of_forall
    intro v hv w hw
    obtain ⟨a, ha, rfl⟩ := List.mem_map.mp hv
    obtain ⟨b, hb, rfl⟩ := List.mem_map.mp hw
    rw [Value.areOrdered_of_naturalRelation (h a ha b hb)]
    exact hkeep a ha b hb
  rw [sortOn_of_allOrdered hordered, Sorted.mergeSort_congr]
  intro a ha b hb
  rw [Direction.inPlace, Direction.order, Value.naturalOrder_of_naturalRelation (h a ha b hb)]
  rfl

end RecordQuery
