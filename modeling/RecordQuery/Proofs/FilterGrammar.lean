import RecordQuery.Proofs.Rejection
import RecordQuery.Proofs.Text.Pieces
import RecordQuery.Proofs.WellFormed

namespace RecordQuery

/-!
# How filters are written

A filter is written as its values with single bars between them, a double
bar, and the code of its operator. No text is written so in two ways. It is
read as a filter if it is written so, if there are an operator of that code
and a field of that name, and if the field can have the values.
-/

open Outcome

namespace Filter

variable {schema : Schema} {registry : Registry} {name t code : Text} {values : List Text}

/-- Values between single bars, and a code behind a double bar. Of the values only the first may be
empty, and this only if it is not the last. The code may have bars in it. -/
structure IsWritten (t : Text) (values : List Text) (code : Text) : Prop where
  eq_append : t = Text.joinWith ['|'] values ++ '|' :: '|' :: code
  bar_notMem : ∀ v ∈ values, '|' ∉ v
  tail_ne_nil : ∀ v ∈ values.tail, v ≠ []
  last_ne_nil : ∃ v, values.getLast? = some v ∧ v ≠ []

namespace IsWritten

theorem values_ne_nil (h : IsWritten t values code) : values ≠ [] := by
  rintro rfl
  obtain ⟨v, hv, -⟩ := h.last_ne_nil
  cases hv

theorem joinWith_ne_nil (h : IsWritten t values code) : Text.joinWith ['|'] values ≠ [] := by
  obtain ⟨v, hv, hne⟩ := h.last_ne_nil
  obtain ⟨c, hc⟩ := List.exists_mem_of_ne_nil v hne
  exact List.ne_nil_of_mem (Text.subset_joinWith (List.mem_of_getLast? hv) hc)

theorem cutAtBars_eq (h : IsWritten t values code) :
    Text.cutAtBars t = some (Text.joinWith ['|'] values, code) :=
  h.eq_append ▸ Text.cutAtBars_joinWith h.values_ne_nil h.tail_ne_nil h.bar_notMem code

theorem splitOn_joinWith (h : IsWritten t values code) :
    Text.splitOn '|' (Text.joinWith ['|'] values) = values :=
  Text.splitOn_joinWith h.values_ne_nil h.bar_notMem

theorem unique {values' : List Text} {code' : Text} (h : IsWritten t values code)
    (h' : IsWritten t values' code') : values = values' ∧ code = code' := by
  have hcut := h.cutAtBars_eq.symm.trans h'.cutAtBars_eq
  simp only [Option.some.injEq, Prod.mk.injEq] at hcut
  refine ⟨?_, hcut.2⟩
  rw [← h.splitOn_joinWith, ← h'.splitOn_joinWith, hcut.1]

end IsWritten

theorem isWritten_of_cutAtBars {segment : Text} (h : Text.cutAtBars t = some (segment, code))
    (hsegment : segment ≠ []) : IsWritten t (Text.splitOn '|' segment) code := by
  obtain ⟨ht, hbars⟩ := Text.cutAtBars_eq_some_iff.mp h
  have hjoin := Text.joinWith_splitOn '|' segment
  have htail := Text.ne_nil_of_mem_tail_splitOn hbars
  refine ⟨by rw [hjoin, ht], fun _ hv ↦ Text.not_mem_of_mem_splitOn hv, htail, ?_⟩
  cases hvalues : Text.splitOn '|' segment with
  | nil => exact absurd hvalues (Text.splitOn_ne_nil '|' segment)
  | cons v vs =>
      rw [hvalues] at hjoin htail
      refine ⟨_, List.getLast?_eq_some_getLast (List.cons_ne_nil v vs), ?_⟩
      cases vs with
      | nil =>
          rintro rfl
          exact hsegment hjoin.symm
      | cons w vs => exact htail _ (List.getLast_mem (List.cons_ne_nil w vs))

/-- The values stand before the first double bar, and the code behind it. -/
theorem isWritten_iff : IsWritten t values code ↔ ∃ segment,
    Text.cutAtBars t = some (segment, code) ∧ segment ≠ [] ∧ values = Text.splitOn '|' segment := by
  constructor
  · intro h
    exact ⟨_, h.cutAtBars_eq, h.joinWith_ne_nil, h.splitOn_joinWith.symm⟩
  · rintro ⟨segment, hcut, hsegment, rfl⟩
    exact isWritten_of_cutAtBars hcut hsegment

/-- A text is written as a filter with the code of an operator, but there is no field of the name
before it. -/
def LacksField (schema : Schema) (registry : Registry) (name t : Text) : Prop :=
  schema.resolve? name = none ∧
    ∃ values code operator, IsWritten t values code ∧ registry.resolve? code = some operator

theorem ofArgument_of_lacksField (h : LacksField schema registry name t) :
    ofArgument schema registry name t = reject (.unknownFilterField name) := by
  obtain ⟨hfield, values, code, operator, ht, hcode⟩ := h
  have hsegment : (Text.joinWith ['|'] values).isEmpty = false :=
    List.isEmpty_eq_false_iff.mpr ht.joinWith_ne_nil
  simp [ofArgument, ht.cutAtBars_eq, hcode, hsegment, hfield]

/-- Whatever else keeps a text from being read as a filter, the complaint is about its value. -/
theorem faultsIn_ofArgument_of_not_lacksField (h : ¬LacksField schema registry name t) :
    FaultsIn (fun e ↦ ∃ q, e = .rejected q ∧ q.code = .malformedFilterValue)
      (ofArgument schema registry name t) := by
  unfold ofArgument
  split
  · exact .of_error ⟨_, rfl, rfl⟩
  · next segment code hcut =>
      split
      · exact .of_error ⟨_, rfl, rfl⟩
      · next operator hcode =>
          split
          · exact .of_error ⟨_, rfl, rfl⟩
          · next hsegment =>
              rw [List.isEmpty_iff] at hsegment
              split
              · next hfield =>
                  exact absurd ⟨hfield, _, code, operator,
                    isWritten_of_cutAtBars hcut hsegment, hcode⟩ h
              · next field hfield =>
                  dsimp only
                  split
                  · exact .of_ok _
                  · refine ((faultsIn_readAll field _).mono ?_).map _
                    rintro _ ⟨kind, rfl⟩
                    exact ⟨_, rfl, rfl⟩

/-- A text is read as a filter if and only if it is written as one, with the code of an operator,
the name of a field, and values that the field can have, and it is read as what is written. It is
written in one way only. Otherwise it is rejected: for its field if nothing but the field is
missing, and else for its value. -/
theorem ofArgument_eq_ok_iff_isWritten (schema : Schema) (registry : Registry) (name t : Text) :
    (∀ f, ofArgument schema registry name t = .ok f ↔
      ∃ values code operator field, IsWritten t values code ∧
        registry.resolve? code = some operator ∧ schema.resolve? name = some field ∧
        (operator.isTextual = false → ∀ v ∈ values, ∃ w, field.read v = .ok w) ∧
        f = ⟨field.name, values, operator⟩) ∧
    (∀ values code values' code', IsWritten t values code → IsWritten t values' code' →
      values = values' ∧ code = code') ∧
    ((∀ f, ofArgument schema registry name t ≠ .ok f) →
      ∃ q, ofArgument schema registry name t = reject q ∧
        (LacksField schema registry name t → q.code = .unresolvedFilterField) ∧
        (¬LacksField schema registry name t → q.code = .malformedFilterValue)) := by
  refine ⟨fun f ↦ ?_, fun _ _ _ _ ↦ IsWritten.unique, fun hfails ↦ ?_⟩
  · rw [ofArgument_eq_ok_iff]
    constructor
    · rintro ⟨segment, code, operator, field, hcut, hcode, hsegment, hfield, hread, rfl⟩
      exact ⟨_, code, operator, field, isWritten_of_cutAtBars hcut hsegment, hcode, hfield, hread,
        rfl⟩
    · rintro ⟨values, code, operator, field, ht, hcode, hfield, hread, rfl⟩
      obtain ⟨segment, hcut, hsegment, rfl⟩ := isWritten_iff.mp ht
      exact ⟨segment, code, operator, field, hcut, hcode, hsegment, hfield, hread, rfl⟩
  · by_cases hlacks : LacksField schema registry name t
    · exact ⟨_, ofArgument_of_lacksField hlacks, fun _ ↦ rfl, fun h ↦ absurd hlacks h⟩
    · cases hresult : ofArgument schema registry name t with
      | ok f => exact absurd hresult (hfails f)
      | error e =>
          obtain ⟨q, rfl, hq⟩ := faultsIn_ofArgument_of_not_lacksField hlacks e hresult
          exact ⟨q, rfl, fun h ↦ absurd h hlacks, fun _ ↦ hq⟩

/-- Of five bars the last three belong to the code, if there is one with three bars. -/
example :
    let registry : Registry := ⟨[("|||eq".toList, .equals)]⟩
    ofArgument Catalog.customers.schema registry "status".toList "|New|||||eq".toList =
      .ok ⟨"status".toList, [[], "New".toList], .equals⟩ := by
  decide +kernel

end Filter

end RecordQuery
