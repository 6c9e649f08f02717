import Mathlib.Data.List.Nodup
import RecordQuery.Catalog
import RecordQuery.Record

namespace RecordQuery

/-!
# Names and fields

A name that was looked up is replaced by that of the field that was found.
Where no two names are the same but for letter case, looking up the new
name finds the same field again.
-/

namespace Schema

/-- Fields have names that are not blank, as attributes do, and these differ in more than letter
case and the blanks around them. -/
structure HasDistinctNames (s : Schema) : Prop where
  normalName_ne_nil : ∀ f ∈ s.fields, normalName f.name ≠ []
  nodup : (s.fields.map fun f ↦ normalName f.name).Nodup

/-- A field of a schema that is found under its own name, letter by letter. -/
structure Declares (s : Schema) (name : Text) (f : Field) : Prop where
  mem : f ∈ s.fields
  name_eq : f.name = name
  resolve?_eq : s.resolve? name = some f

variable {s : Schema}

theorem mem_of_resolve?_eq {name : Text} {f : Field} (h : s.resolve? name = some f) :
    f ∈ s.fields := by
  unfold resolve? at h
  dsimp only at h
  split at h
  · cases h
  · split at h
    · next g hg =>
        cases h
        exact List.mem_reverse.mp (List.mem_of_find?_eq_some hg)
    · exact List.mem_of_find?_eq_some h

theorem require_eq_ok_iff {code : ErrorCode} {name : Text} {f : Field} :
    s.require code name = .ok f ↔ s.resolve? name = some f := by
  unfold require
  cases s.resolve? name with
  | none => exact iff_of_false nofun nofun
  | some g => rw [Except.ok.injEq, Option.some.injEq]

theorem forall_declares_iff {name : Text} {P : Field → Prop} :
    (∀ f, s.Declares name f → P f) ↔ ∀ f ∈ s.resolve? name, f.name = name → P f := by
  constructor
  · intro h f hf hname
    exact h f ⟨mem_of_resolve?_eq hf, hname, hf⟩
  · intro h f hf
    exact h f hf.resolve?_eq hf.name_eq

theorem byNormalName?_eq_of_mem (hs : s.HasDistinctNames) {f : Field} (hf : f ∈ s.fields) :
    s.byNormalName? (normalName f.name) = some f := by
  cases hfound : s.byNormalName? (normalName f.name) with
  | none =>
      have h := List.find?_eq_none.mp hfound f (List.mem_reverse.mpr hf)
      simp at h
  | some g =>
      have hg : g ∈ s.fields := List.mem_reverse.mp (List.mem_of_find?_eq_some hfound)
      have hname : normalName g.name = normalName f.name := by
        simpa using List.find?_some hfound
      rw [List.inj_on_of_nodup_map hs.nodup hg hf hname]

theorem resolve?_name (hs : s.HasDistinctNames) {f : Field} (hf : f ∈ s.fields) :
    s.resolve? f.name = some f := by
  have hkey : (normalName f.name).isEmpty = false := by
    simpa using hs.normalName_ne_nil f hf
  simp [resolve?, hkey, byNormalName?_eq_of_mem hs hf]

theorem declares_of_mem (hs : s.HasDistinctNames) {f : Field} (hf : f ∈ s.fields) :
    s.Declares f.name f := ⟨hf, rfl, resolve?_name hs hf⟩

theorem declares_of_resolve?_eq (hs : s.HasDistinctNames) {name : Text} {f : Field}
    (h : s.resolve? name = some f) : s.Declares f.name f :=
  declares_of_mem hs (mem_of_resolve?_eq h)

theorem Declares.require_eq {name : Text} {f : Field} (h : s.Declares name f) (code : ErrorCode) :
    s.require code name = .ok f := require_eq_ok_iff.mpr h.resolve?_eq

theorem nodup_names (hs : s.HasDistinctNames) : (s.fields.map Field.name).Nodup := by
  have h : (s.fields.map fun f ↦ normalName f.name) = (s.fields.map Field.name).map normalName := by
    simp
  exact List.Nodup.of_map normalName (h ▸ hs.nodup)

theorem nodup_searchable (hs : s.HasDistinctNames) : s.searchable.Nodup :=
  (nodup_names hs).sublist (List.filter_sublist.map Field.name)

end Schema

theorem Catalog.hasDistinctNames_customers : customers.schema.HasDistinctNames where
  normalName_ne_nil := by decide +kernel
  nodup := by decide +kernel

end RecordQuery
