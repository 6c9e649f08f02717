import RecordQuery.Proofs.Arguments

namespace RecordQuery

/-!
# Arguments written as a query

Arguments are written with the percent code of their values. What a query
can say at all is read back as it was written, entry by entry, whatever
signs and letters are in the values.
-/

namespace Keyed

variable {α : Type} {e : Text × α}

theorem eq_or_mem_of_mem_put {key : Text} {a : α} {l : Keyed α} (h : e ∈ put key a l) :
    e = (key, a) ∨ e ∈ l := by
  induction l with
  | nil => exact Or.inl (List.mem_singleton.mp h)
  | cons p rest ih =>
      obtain ⟨k, b⟩ := p
      rw [put] at h
      split at h
      · next hk =>
          rcases List.mem_cons.mp h with rfl | h
          · exact Or.inl (by rw [hk])
          · exact Or.inr (List.mem_cons_of_mem _ h)
      · rcases List.mem_cons.mp h with rfl | h
        · exact Or.inr List.mem_cons_self
        · exact (ih h).imp_right (List.mem_cons_of_mem _)

theorem mem_or_mem_of_mem_putAll {entries : List (Text × α)} {l : Keyed α}
    (h : e ∈ putAll l entries) : e ∈ entries ∨ e ∈ l := by
  induction entries generalizing l with
  | nil => exact Or.inr h
  | cons p entries ih =>
      rcases ih (putAll_cons l p.1 p.2 entries ▸ h) with hmem | hmem
      · exact Or.inl (List.mem_cons_of_mem p hmem)
      · rcases eq_or_mem_of_mem_put hmem with rfl | hmem
        · exact Or.inl List.mem_cons_self
        · exact Or.inr hmem

end Keyed

namespace Arguments

/-- The query for some arguments: words as they are, and the code of every value. -/
def toQuery (args : Arguments) : Text :=
  Text.joinWith ['&'] (args.map fun a ↦ a.1 ++ '=' :: Text.percentEncode a.2)

/-- Arguments that a query can say: under words, no two of them the same, stand values that are
not empty and that no ampersand divides. -/
structure IsExpressible (args : Arguments) : Prop where
  nodup : args.keys.Nodup
  isWord : ∀ a ∈ args, a.1.IsWord
  value_ne_nil : ∀ a ∈ args, a.2 ≠ []
  ampersand_notMem : ∀ a ∈ args, '&' ∉ a.2

theorem value_ne_nil_of_segment?_eq {t key value : Text} (h : segment? t = some (key, value)) :
    value ≠ [] := by
  unfold segment? at h
  split at h
  · cases h
  · cases h
    exact List.cons_ne_nil _ _
  · cases h

/-- Every query says expressible arguments, however it is written. -/
theorem isExpressible_ofQuery (query : Text) : (ofQuery query).IsExpressible := by
  have hsegment : ∀ a ∈ ofQuery query, ∃ t, '&' ∉ t ∧ segment? t = some a := by
    intro a ha
    have hentry := (Keyed.mem_or_mem_of_mem_putAll ha).resolve_right List.not_mem_nil
    obtain ⟨t, ht, hsegment⟩ := List.mem_filterMap.mp hentry
    exact ⟨t, Text.not_mem_of_mem_splitOn ht, hsegment⟩
  refine ⟨nodup_keys_ofQuery query, ?_, ?_, ?_⟩
  · intro a ha
    obtain ⟨t, -, ht⟩ := hsegment a ha
    exact (isWord_of_segment?_eq ht).1
  · intro a ha
    obtain ⟨t, -, ht⟩ := hsegment a ha
    exact value_ne_nil_of_segment?_eq ht
  · intro a ha
    obtain ⟨t, hampersand, ht⟩ := hsegment a ha
    rw [(isWord_of_segment?_eq ht).2, List.mem_append, List.mem_cons, not_or, not_or] at hampersand
    exact hampersand.2.2

theorem percentDecode_argument {key : Text} (hkey : key.IsWord) (value : Text) :
    Text.percentDecode (key ++ '=' :: Text.percentEncode value) = key ++ '=' :: value := by
  rw [Text.percentDecode_append_of_isLiteral hkey.isLiteral, Text.percentDecode_cons (by decide),
    Text.percentDecode_percentEncode]

theorem IsExpressible.ofQuery_toQuery_eq {args : Arguments} (h : args.IsExpressible) :
    ofQuery args.toQuery = args := by
  refine ofQuery_joinWith_words h.isWord
    (fun a ha ↦ ⟨h.value_ne_nil a ha, h.ampersand_notMem a ha⟩) h.nodup ?_
  rw [List.map_map]
  exact List.map_congr_left fun a ha ↦ percentDecode_argument (h.isWord a ha) a.2

/-- The query for some arguments says them, in their order and nothing besides, if and only if
a query can say them. -/
theorem ofQuery_toQuery_eq_self_iff (args : Arguments) :
    ofQuery args.toQuery = args ↔ args.IsExpressible := by
  constructor
  · intro h
    exact h ▸ isExpressible_ofQuery args.toQuery
  · exact IsExpressible.ofQuery_toQuery_eq

example : ofQuery (toQuery [("größe".toList, "?+%26=|ü 😀\n".toList), ("a_1".toList, "%".toList)]) =
    [("größe".toList, "?+%26=|ü 😀\n".toList), ("a_1".toList, "%".toList)] := by
  decide +kernel

end Arguments

end RecordQuery
