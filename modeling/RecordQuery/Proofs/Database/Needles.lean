import RecordQuery.Proofs.Database.SearchedText

namespace RecordQuery

/-!
# Needles in stored texts

A filter by a needle selects the rows in whose text the needle stands, where
its operator looks for it, whatever percent signs, low lines and slashes
there are in the one and the other. Both are compared in lower case as far
as the basic alphabet goes, and as they are seen by the database.
-/

open Text Pattern

/-- A needle stands where a textual operator looks for it. -/
def Operator.Finds : Operator → Text → Text → Prop
  | startsWith, needle, t => needle <+: t
  | endsWith, needle, t => needle <:+ t
  | _, needle, t => needle <:+: t

theorem Operator.finds_iff {o : Operator} {needle t : Text} :
    o.finds needle t = true ↔ o.Finds needle t := by
  cases o with
  | startsWith => exact hasPrefix_iff
  | endsWith => exact hasSuffix_iff
  | equals | notEquals | greaterThan | greaterOrEqual | lessThan | lessOrEqual | contains =>
      exact hasInfix_iff

instance (o : Operator) (needle t : Text) : Decidable (o.Finds needle t) :=
  decidable_of_iff _ Operator.finds_iff

namespace Pattern

/-- Every character of a text is seen as it is. -/
def IsClear (t : Text) : Prop := ∀ c ∈ t, c ≠ '\x00' ∧ c ≠ '\uFFFE' ∧ c ≠ '\uFFFF'

instance (t : Text) : Decidable (IsClear t) := List.decidableBAll _ t

theorem IsClear.nul_notMem {t : Text} (h : IsClear t) : '\x00' ∉ t := fun hnul ↦ (h _ hnul).1 rfl

theorem IsClear.seen_eq {t : Text} (h : IsClear t) : seen t = t := by
  have hself : ∀ c ∈ t, seenChar c = c := by
    intro c hc
    obtain ⟨-, hfffe, hffff⟩ := h c hc
    rw [seenChar, if_neg (not_or.mpr ⟨hfffe, hffff⟩)]
  rw [seen_eq_map h.nul_notMem, List.map_congr_left hself, List.map_id']

theorem isClear_basicLower {t : Text} (h : IsClear t) : IsClear (basicLower t) := by
  intro d hd
  obtain ⟨c, hc, rfl⟩ := List.mem_map.mp hd
  change basicLowerChar c ≠ _ ∧ basicLowerChar c ≠ _ ∧ basicLowerChar c ≠ _
  by_cases hbasic : c.toNat < 128
  · have hlower : c ≠ '\x00' → basicLowerChar c ≠ '\x00' ∧ basicLowerChar c ≠ '\uFFFE' ∧
        basicLowerChar c ≠ '\uFFFF' :=
      forall_basic (P := fun c ↦ c ≠ '\x00' → basicLowerChar c ≠ '\x00' ∧
        basicLowerChar c ≠ '\uFFFE' ∧ basicLowerChar c ≠ '\uFFFF') (by decide) hbasic
    exact hlower (h c hc).1
  · rw [basicLowerChar_eq_self hbasic]
    exact h c hc

end Pattern

namespace Filter

variable {table : Table} {name : Text} {f : Field}

theorem selects_seen (hfield : table.schema.resolve? name = some f) {o : Operator}
    (ho : o.isTextual = true) {needle : Text} (hneedle : '\x00' ∉ needle) :
    ∃ group, Filter.group table ⟨name, [needle], o⟩ = .ok group ∧ ∀ r : Record,
      Clause.selects [group] r = (Cell.ofValue (r.value f.name)).toText?.any fun t ↦
        o.finds (seen (basicLower needle)) (seen (basicLower t)) := by
  obtain ⟨group, hgroup, hselects⟩ := selects_like hfield ho [needle]
    fun r v hv ↦ Atom.decide_like_seen (List.mem_singleton.mp hv ▸ hneedle) o (r.value f.name)
  exact ⟨group, hgroup, fun r ↦ (hselects r).trans (by simp)⟩

/-- A filter by a needle without NUL is compiled for every field of a table, and selects the rows in
whose text the needle stands, the case of basic letters apart, both as they are seen; as far as
every character is seen as it is, that is in the texts themselves. No row without a value is
selected. -/
theorem needle_selected (hfield : table.schema.resolve? name = some f) {o : Operator}
    (ho : o.isTextual = true) {needle : Text} (hneedle : '\x00' ∉ needle) :
    ∃ group, Filter.group table ⟨name, [needle], o⟩ = .ok group ∧ ∀ r : Record,
      (r.value f.name = .null → Clause.selects [group] r = false) ∧
      ∀ t, r.value f.name = .text t →
        (Clause.selects [group] r = true ↔
          o.Finds (seen (basicLower needle)) (seen (basicLower t))) ∧
        (IsClear needle → IsClear t →
          (Clause.selects [group] r = true ↔ o.Finds (basicLower needle) (basicLower t))) := by
  obtain ⟨group, hgroup, hselects⟩ := selects_seen hfield ho hneedle
  refine ⟨group, hgroup, fun r ↦ ⟨fun hnull ↦ ?_, fun t ht ↦ ?_⟩⟩
  · rw [hselects, hnull]
    rfl
  · have hfinds : Clause.selects [group] r = true ↔
        o.Finds (seen (basicLower needle)) (seen (basicLower t)) := by
      rw [hselects, ht, ← Operator.finds_iff]
      rfl
    refine ⟨hfinds, fun hn hclear ↦ ?_⟩
    rw [hfinds, (isClear_basicLower hn).seen_eq, (isClear_basicLower hclear).seen_eq]

/-- A needle made of the characters of patterns ends one text, and another one only nearly. -/
theorem needle_selected_percent :
    let needle := "0%_/A".toList
    let row (v : Value) : Record := [("name".toList, v)]
    Catalog.customers.schema.resolve? "name".toList = some (Catalog.field "name" .text) ∧
      Operator.endsWith.isTextual = true ∧ '\x00' ∉ needle ∧
      ∃ group, Filter.group Catalog.customers ⟨"name".toList, [needle], .endsWith⟩ = .ok group ∧
        Clause.selects [group] (row (.text "É10%_/a".toList)) = true ∧
        Clause.selects [group] (row (.text "10%__/a".toList)) = false ∧
        Clause.selects [group] (row .null) = false := by
  intro needle row
  have hfield : Catalog.customers.schema.resolve? "name".toList =
      some (Catalog.field "name" .text) := by decide +kernel
  have hneedle : '\x00' ∉ needle := by decide
  have hclear : IsClear needle := by decide
  refine ⟨hfield, rfl, hneedle, ?_⟩
  obtain ⟨group, hgroup, hselects⟩ := needle_selected hfield (o := .endsWith) rfl hneedle
  refine ⟨group, hgroup, ?_, ?_, (hselects _).1 rfl⟩
  · rw [((hselects _).2 "É10%_/a".toList rfl).2 hclear (by decide)]
    decide
  · rw [Bool.eq_false_iff, ne_eq, ((hselects _).2 "10%__/a".toList rfl).2 hclear (by decide)]
    decide

/-- A needle that stands behind a NUL character is not found, one that ends where the text ends for
the database is, and two code points that are no characters are taken for each other. -/
theorem needle_selected_unclear :
    let row (t : Text) : Record := [("name".toList, .text t)]
    let filter (needle : Text) (o : Operator) : Filter := ⟨"name".toList, [needle], o⟩
    let cut := "a\x00b".toList
    let last := "\uFFFE".toList
    (∃ group, (filter "b".toList .contains).group Catalog.customers = .ok group ∧
      Clause.selects [group] (row cut) = false ∧
      Operator.contains.Finds (basicLower "b".toList) (basicLower cut)) ∧
    (∃ group, (filter "a".toList .endsWith).group Catalog.customers = .ok group ∧
      Clause.selects [group] (row cut) = true ∧
      ¬ Operator.endsWith.Finds (basicLower "a".toList) (basicLower cut)) ∧
    ∃ group, (filter "\uFFFF".toList .contains).group Catalog.customers = .ok group ∧
      Clause.selects [group] (row last) = true ∧
      ¬ Operator.contains.Finds (basicLower "\uFFFF".toList) (basicLower last) := by
  intro row filter cut last
  have hfield : Catalog.customers.schema.resolve? "name".toList =
      some (Catalog.field "name" .text) := by decide +kernel
  refine ⟨?_, ?_, ?_⟩
  · obtain ⟨group, hgroup, hselects⟩ := selects_seen hfield (o := .contains) rfl
      (show '\x00' ∉ "b".toList by decide)
    exact ⟨group, hgroup, (hselects _).trans (by decide), by decide⟩
  · obtain ⟨group, hgroup, hselects⟩ := selects_seen hfield (o := .endsWith) rfl
      (show '\x00' ∉ "a".toList by decide)
    exact ⟨group, hgroup, (hselects _).trans (by decide), by decide⟩
  · obtain ⟨group, hgroup, hselects⟩ := selects_seen hfield (o := .contains) rfl
      (show '\x00' ∉ "\uFFFF".toList by decide)
    exact ⟨group, hgroup, (hselects _).trans (by decide), by decide⟩

end Filter

end RecordQuery
