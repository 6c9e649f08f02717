import RecordQuery.Text.Basic

namespace RecordQuery

/-!
# Keyed lists

Entries under text keys in the order in which the keys were first put. A
key that is put again keeps its place and takes the new entry.
-/

abbrev Keyed (α : Type) := List (Text × α)

namespace Keyed

variable {α : Type}

def put (key : Text) (a : α) : Keyed α → Keyed α
  | [] => [(key, a)]
  | (k, b) :: rest => if k = key then (k, a) :: rest else (k, b) :: put key a rest

def get? (key : Text) : Keyed α → Option α
  | [] => none
  | (k, a) :: rest => if k = key then some a else get? key rest

def keys (l : Keyed α) : List Text := l.map Prod.fst

def putAll (l : Keyed α) (entries : List (Text × α)) : Keyed α :=
  entries.foldl (fun acc (k, a) ↦ put k a acc) l

@[simp] theorem get?_nil (key : Text) : get? (α := α) key [] = none := rfl

@[simp] theorem putAll_nil (l : Keyed α) : putAll l [] = l := rfl

@[simp] theorem putAll_cons (l : Keyed α) (k : Text) (a : α) (entries : List (Text × α)) :
    putAll l ((k, a) :: entries) = putAll (put k a l) entries := rfl

theorem putAll_append (l : Keyed α) (xs ys : List (Text × α)) :
    putAll l (xs ++ ys) = putAll (putAll l xs) ys := by simp [putAll]

@[simp] theorem get?_put_self (key : Text) (a : α) (l : Keyed α) :
    get? key (put key a l) = some a := by
  induction l with
  | nil => simp [put, get?]
  | cons p rest ih =>
      by_cases h : p.1 = key
      · simp [put, get?, h]
      · simp [put, get?, h, ih]

theorem get?_put_ne {key other : Text} (h : other ≠ key) (a : α) (l : Keyed α) :
    get? other (put key a l) = get? other l := by
  induction l with
  | nil => simp [put, get?, Ne.symm h]
  | cons p rest ih =>
      by_cases hk : p.1 = key
      · simp [put, get?, hk, Ne.symm h]
      · by_cases ho : p.1 = other
        · simp [put, get?, ho, h]
        · simp [put, get?, hk, ho, ih]

theorem get?_put (key other : Text) (a : α) (l : Keyed α) :
    get? other (put key a l) = if other = key then some a else get? other l := by
  by_cases h : other = key
  · simp [h]
  · simp [h, get?_put_ne h]

theorem keys_put (key : Text) (a : α) (l : Keyed α) :
    keys (put key a l) = if key ∈ keys l then keys l else keys l ++ [key] := by
  induction l with
  | nil => simp [put, keys]
  | cons p rest ih =>
      by_cases h : p.1 = key
      · simp [put, keys, h]
      · have h' : ¬key = p.1 := Ne.symm h
        simp only [keys] at ih
        by_cases hm : key ∈ rest.map Prod.fst
        · simp [put, keys, h, ih, hm]
        · simp [put, keys, h, h', ih, hm]

theorem nodup_keys_put {l : Keyed α} (h : (keys l).Nodup) (key : Text) (a : α) :
    (keys (put key a l)).Nodup := by
  rw [keys_put]
  split
  · exact h
  · next hm =>
      rw [List.nodup_append]
      refine ⟨h, by simp, ?_⟩
      intro x hx y hy hxy
      have hkey : x = key := by simpa [← hxy] using hy
      exact hm (hkey ▸ hx)

theorem nodup_keys_putAll {l : Keyed α} (h : (keys l).Nodup) (entries : List (Text × α)) :
    (keys (putAll l entries)).Nodup := by
  induction entries generalizing l with
  | nil => exact h
  | cons e rest ih => exact ih (nodup_keys_put h e.1 e.2)

end Keyed

end RecordQuery
