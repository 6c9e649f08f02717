import RecordQuery.Value.Wire

namespace RecordQuery

/-!
# Wire values at every depth

A value and its wire value are built alike: the same positions lead into
them, and where they lead in the wire value stands the wire value of what
stands there in the value. No date, moment, identifier, decimal or tuple is
left at any depth, and this is all that keeps a value from being its own
wire value.
-/

namespace Value

/-- The values in a list, a tuple or a dictionary, where the keys do not count. -/
def children : Value → List Value
  | list items | tuple items => items
  | dict entries => entries.map Prod.snd
  | _ => []

/-- The value to which positions lead, one inside the other. -/
def at? : Value → List Nat → Option Value
  | v, [] => some v
  | v, i :: path => v.children[i]?.bind fun u ↦ at? u path

/-- What can be seen of a value without looking into what is in it. -/
inductive Frame where
  | scalar
  | sequence (length : Nat)
  | dictionary (keys : List Value)

def frame : Value → Frame
  | list items | tuple items => .sequence items.length
  | dict entries => .dictionary (entries.map Prod.fst)
  | _ => .scalar

/-- Numbers, truth values, texts, lists and dictionaries, whatever is in them. -/
def isOnWire : Value → Bool
  | null | bool _ | int _ | float _ | text _ | list _ | dict _ => true
  | _ => false

variable {u v : Value}

@[simp] theorem at?_nil (v : Value) : v.at? [] = some v := rfl

@[simp] theorem at?_cons (v : Value) (i : Nat) (path : List Nat) :
    v.at? (i :: path) = v.children[i]?.bind fun u ↦ u.at? path := rfl

/-! ## Induction into a value -/

theorem sizeOf_lt_of_mem_children (h : u ∈ v.children) : sizeOf u < sizeOf v := by
  cases v with
  | list items | tuple items =>
      have hlt := List.sizeOf_lt_of_mem (show u ∈ items from h)
      simp only [list.sizeOf_spec, tuple.sizeOf_spec]
      omega
  | dict entries =>
      obtain ⟨⟨key, w⟩, hmem, rfl⟩ := List.mem_map.mp h
      have hlt := List.sizeOf_lt_of_mem hmem
      simp only [Prod.mk.sizeOf_spec] at hlt
      simp only [dict.sizeOf_spec]
      omega
  | null | bool b | int n | float x | decimal d | infinite negative | undefined | text t | date d
  | moment t | zoned t | uuid u => cases h

/-- What holds of a value if it holds of all that is in it holds of every value. -/
@[elab_as_elim]
theorem induction_children {P : Value → Prop} (h : ∀ v, (∀ u ∈ v.children, P u) → P v)
    (v : Value) : P v :=
  h v fun u _ ↦ induction_children h u
termination_by sizeOf v
decreasing_by exact sizeOf_lt_of_mem_children ‹_›

/-! ## One level -/

theorem isOnWire_toWire (v : Value) : v.toWire.isOnWire = true := by
  cases v <;> simp [toWire, isOnWire]

theorem children_toWire (v : Value) : v.toWire.children = v.children.map toWire := by
  cases v <;> simp [toWire, children, wireItems_eq_map, wireEntries_eq_map]

theorem frame_toWire (v : Value) : v.toWire.frame = v.frame := by
  cases v <;> simp [toWire, frame, wireItems_eq_map, wireEntries_eq_map]

theorem toWire_eq_self_of_children (hv : v.isOnWire = true)
    (hchildren : ∀ u ∈ v.children, u.toWire = u) : v.toWire = v := by
  cases v with
  | list items =>
      have hitems : ∀ u ∈ items, u.toWire = u := hchildren
      rw [toWire, wireItems_eq_map, List.map_congr_left hitems, List.map_id']
  | dict entries =>
      have hentries : ∀ e ∈ entries, (e.1, e.2.toWire) = e :=
        fun e he ↦ Prod.ext rfl (hchildren e.2 (List.mem_map_of_mem he))
      rw [toWire, wireEntries_eq_map, List.map_congr_left hentries, List.map_id']
  | null | bool b | int n | float x | text t => rfl
  | decimal d | infinite negative | undefined | date d | moment t | zoned t | uuid u
  | tuple items => cases hv

/-! ## Every level -/

theorem at?_toWire (v : Value) (path : List Nat) : v.toWire.at? path = (v.at? path).map toWire := by
  induction path generalizing v with
  | nil => rfl
  | cons i path ih =>
      rw [at?_cons, at?_cons, children_toWire, List.getElem?_map]
      cases v.children[i]? with
      | none => rfl
      | some u => exact ih u

theorem all_isOnWire_toWire (v : Value) (path : List Nat) :
    (v.toWire.at? path).all isOnWire = true := by
  rw [at?_toWire]
  cases v.at? path with
  | none => rfl
  | some u => exact isOnWire_toWire u

theorem toWire_eq_self_iff : v.toWire = v ↔ ∀ path, (v.at? path).all isOnWire = true := by
  constructor
  · intro h path
    rw [← h]
    exact all_isOnWire_toWire v path
  · induction v using induction_children with
    | h v ih =>
      intro hpaths
      -- a path into what is in the value is the rest of a path into the value
      refine toWire_eq_self_of_children (hpaths []) fun u hu ↦ ih u hu fun path ↦ ?_
      obtain ⟨i, hi⟩ := List.mem_iff_getElem?.mp hu
      have hpath := hpaths (i :: path)
      rwa [at?_cons, hi] at hpath

/-- The wire value of a wire value is that wire value. At every depth there are in the wire value of
a value only numbers, truth values, texts, lists and dictionaries, and they are the wire values of
what stands there in the value, with the same keys and lengths. -/
theorem toWire_at_every_depth (v : Value) :
    v.toWire.toWire = v.toWire ∧ (v.toWire = v ↔ ∀ path, (v.at? path).all isOnWire = true) ∧
      ∀ path, (v.toWire.at? path).all isOnWire = true ∧
        v.toWire.at? path = (v.at? path).map toWire ∧
        (v.toWire.at? path).map frame = (v.at? path).map frame := by
  refine ⟨toWire_eq_self_iff.mpr (all_isOnWire_toWire v), toWire_eq_self_iff, fun path ↦
    ⟨all_isOnWire_toWire v path, at?_toWire v path, ?_⟩⟩
  rw [at?_toWire, Option.map_map]
  congr 1
  funext u
  exact frame_toWire u

example : (dict [(tuple [], tuple [undefined, list [tuple [undefined]]])]).toWire.at? [0, 1, 0] =
    some (list [float .nan]) := rfl

end Value

end RecordQuery
