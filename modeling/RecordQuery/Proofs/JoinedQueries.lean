import Mathlib.Data.List.Induction
import RecordQuery.Proofs.Arguments

namespace RecordQuery

/-!
# Queries joined by an ampersand

What two joined queries say is what the first says, with what the second
says put over it. The ampersand keeps them apart whatever stands next to it,
also escapes that break off and bytes that are no character.
-/

namespace Keyed

variable {α : Type}

/-- The entries of a keyed list are known from its keys and from what is found under them. -/
theorem eq_of_keys_eq {l m : Keyed α} (hnodup : l.keys.Nodup) (hkeys : l.keys = m.keys)
    (hget : ∀ key, get? key l = get? key m) : l = m := by
  induction l generalizing m with
  | nil => exact (List.map_eq_nil_iff.mp hkeys.symm).symm
  | cons e l ih =>
      obtain ⟨k, a⟩ := e
      cases m with
      | nil => cases hkeys
      | cons e m =>
          obtain ⟨k', b⟩ := e
          obtain ⟨rfl, htail⟩ : k = k' ∧ keys l = keys m := by simpa [keys] using hkeys
          obtain ⟨hnotMem, hnodup⟩ := List.nodup_cons.mp hnodup
          obtain rfl : a = b := by simpa [get?] using hget k
          refine congrArg _ (ih hnodup htail fun key ↦ ?_)
          by_cases hkey : k = key
          · rw [← hkey, get?_eq_none_of_notMem hnotMem, get?_eq_none_of_notMem (htail ▸ hnotMem)]
          · simpa [get?, hkey] using hget key

/-- Keys that are new follow behind those that are there, in the order in which they were put. -/
theorem keys_putAll (l : Keyed α) (entries : List (Text × α)) :
    keys (putAll l entries) =
      keys l ++ (keys (putAll [] entries)).filter fun key ↦ key ∉ keys l := by
  induction entries using List.reverseRecOn with
  | nil => simp [keys]
  | append_singleton entries e ih =>
      obtain ⟨k, a⟩ := e
      rw [putAll_append, putAll_append]
      simp only [putAll_cons, putAll_nil, keys_put, ih]
      by_cases hput : k ∈ keys (putAll [] entries)
      · by_cases hk : k ∈ keys l <;> simp [hput, hk]
      · by_cases hk : k ∈ keys l <;> simp [hput, hk]

/-- What was put is found before what was there. -/
theorem get?_putAll (l : Keyed α) (entries : List (Text × α)) (key : Text) :
    get? key (putAll l entries) = (get? key (putAll [] entries)).or (get? key l) := by
  induction entries using List.reverseRecOn with
  | nil => simp
  | append_singleton entries e ih =>
      obtain ⟨k, a⟩ := e
      rw [putAll_append, putAll_append]
      simp only [putAll_cons, putAll_nil, get?_put, ih]
      split <;> rfl

/-- To put the entries of a keyed list is to put the entries of which it was made. -/
theorem putAll_putAll_nil {l : Keyed α} (hnodup : l.keys.Nodup) (entries : List (Text × α)) :
    putAll l (putAll [] entries) = putAll l entries := by
  have hmade : putAll [] (putAll [] entries) = putAll [] entries :=
    putAll_of_nodup (l := []) (nodup_keys_putAll (l := []) List.nodup_nil entries)
  apply eq_of_keys_eq (nodup_keys_putAll hnodup _)
  · rw [keys_putAll, hmade, ← keys_putAll]
  · intro key
    rw [get?_putAll, hmade, ← get?_putAll]

end Keyed

namespace Arguments

theorem plainText_append_ampersand {a b : Text} (hb : (Text.percentDecode b).head? ≠ some '?') :
    plainText (a ++ '&' :: b) = plainText a ++ '&' :: plainText b := by
  rw [plainText, Text.percentDecode_append_ampersand, Text.stripLeft_append_cons (by decide),
    plainText, plainText, Text.stripLeft_of_head?_ne hb]

/-- Two queries that are joined by an ampersand say what the first says, with what the second says
put over it: the keys of the first keep their places, the new ones follow in their order, and under
a key that both have stands what the second says. Only the second query may not begin with a
question mark, which would be left out of it by itself. -/
theorem ofQuery_append_ampersand {a b : Text} (hb : (Text.percentDecode b).head? ≠ some '?') :
    ofQuery (a ++ '&' :: b) = Keyed.putAll (ofQuery a) (ofQuery b) ∧
      (ofQuery (a ++ '&' :: b)).keys =
        (ofQuery a).keys ++ (ofQuery b).keys.filter (fun key ↦ key ∉ (ofQuery a).keys) ∧
      ∀ key, (ofQuery (a ++ '&' :: b)).get? key =
        ((ofQuery b).get? key).or ((ofQuery a).get? key) := by
  have hjoined : ofQuery (a ++ '&' :: b) =
      Keyed.putAll (ofQuery a) (entries (plainText b)) := by
    rw [ofQuery, plainText_append_ampersand hb, entries_append_cons, Keyed.putAll_append, ofQuery]
  rw [hjoined]
  exact ⟨(Keyed.putAll_putAll_nil (nodup_keys_ofQuery a) _).symm, Keyed.keys_putAll _ _,
    Keyed.get?_putAll _ _⟩

/-- An escape breaks off before the ampersand, one behind it does not begin a character, and both
queries say something of the status. -/
theorem ofQuery_append_ampersand_broken :
    let a := "??status=New&name=A%E2%82".toList
    let b := "%4Eame=%AC%zz&status=%C3%".toList
    (Text.percentDecode b).head? ≠ some '?' ∧
      ofQuery (a ++ '&' :: b) = [("status".toList, "\uFFFD%".toList),
        ("name".toList, "A\uFFFD".toList), ("Name".toList, "\uFFFD%zz".toList)] := by
  intro a b
  have hb : (Text.percentDecode b).head? ≠ some '?' := by decide +kernel
  refine ⟨hb, (ofQuery_append_ampersand hb).1.trans ?_⟩
  decide +kernel

end Arguments

end RecordQuery
