import RecordQuery.Record
import RecordQuery.Value.Basic

namespace RecordQuery

/-!
# Wire values

Values in the form in which they leave the program: numbers, truth values,
texts, lists and dictionaries only. Dates, moments and identifiers become
texts, decimals floating-point numbers, and tuples lists.
-/

namespace Value

mutual

def toWire : Value → Value
  | date d => text d.text
  | moment t => text (t.text 'T')
  | zoned t => text (t.moment.text 'T')
  | uuid u => text u.text
  | decimal d => float (Binary64.ofDecimal d)
  | infinite negative => float (.infinite negative)
  | undefined => float .nan
  | list items => list (wireItems items)
  | tuple items => list (wireItems items)
  | dict entries => dict (wireEntries entries)
  | v => v

def wireItems : List Value → List Value
  | [] => []
  | v :: vs => toWire v :: wireItems vs

def wireEntries : List (Value × Value) → List (Value × Value)
  | [] => []
  | (k, v) :: rest => (k, toWire v) :: wireEntries rest

end

theorem wireItems_eq_map (items : List Value) : wireItems items = items.map toWire := by
  induction items with
  | nil => simp [wireItems]
  | cons v vs ih => simp [wireItems, ih]

theorem wireEntries_eq_map (entries : List (Value × Value)) :
    wireEntries entries = entries.map fun e ↦ (e.1, toWire e.2) := by
  induction entries with
  | nil => simp [wireEntries]
  | cons e rest ih => simp [wireEntries, ih]

/-- A floating-point number that is not finite has no form in a message. -/
def hasForm : Value → Bool
  | float x => x.isFinite
  | _ => true

def orNull (v : Value) : Value := if v.hasForm then v else null

def object (entries : List (String × Value)) : Value :=
  dict (entries.map fun (k, v) ↦ (text k.toList, v))

end Value

namespace Record

/-- The names of the fields and the wire values under them. -/
def wireEntries (s : Schema) (r : Record) : List (Value × Value) :=
  s.fields.map fun f ↦ (.text f.name, (r.value f.name).toWire)

def toWire (s : Schema) (r : Record) : Value := .dict (r.wireEntries s)

def hasForm (s : Schema) (r : Record) : Bool := (r.wireEntries s).all fun e ↦ e.2.hasForm

def toForm (s : Schema) (r : Record) : Value :=
  .dict ((r.wireEntries s).map fun e ↦ (e.1, e.2.orNull))

theorem toForm_eq_toWire {s : Schema} {r : Record} (h : r.hasForm s = true) :
    r.toForm s = r.toWire s := by
  have hall : ∀ e ∈ r.wireEntries s, e.2.hasForm = true := by simpa [hasForm] using h
  have hid : (r.wireEntries s).map (fun e ↦ (e.1, e.2.orNull)) = (r.wireEntries s).map id := by
    apply List.map_congr_left
    intro e he
    simp [Value.orNull, hall e he]
  simp [toForm, toWire, hid]

end Record

end RecordQuery
