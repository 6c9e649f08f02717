import RecordQuery.Literal
import RecordQuery.Proofs.Outcome
import RecordQuery.Proofs.Value.Order

namespace RecordQuery

/-!
# What literals are read as

A literal is read as a value of the type of its field. Where the type has
no values of one kind, it stands for its own text.
-/

theorem Field.read_eq_ok_iff {f : Field} {t : Text} {v : Value} :
    f.read t = .ok v ↔ Literal.read f.type t = .ok v := by
  unfold read
  split
  · next w hw => rw [hw, Except.ok.injEq, Except.ok.injEq]
  · next kind hkind =>
      rw [hkind]
      constructor <;> exact nofun

theorem Field.succeeds_read_of_text {f : Field} (htype : f.type = .text) (t : Text) :
    Outcome.Succeeds (f.read t) := ⟨.text t, read_eq_ok_iff.mpr (by rw [htype]; rfl)⟩

namespace Literal

theorem ofOption_eq_ok_iff {α : Type} {kind : LiteralKind} {x : Option α} {a : α} :
    ofOption kind x = .ok a ↔ x = some a := by
  cases x <;> simp [ofOption]

theorem isFinite_of_readBinary64? {t : Text} {x : Binary64} (h : readBinary64? t = some x) :
    x.isFinite = true := by
  unfold readBinary64? at h
  split at h
  · cases h
  · split at h
    · cases h
    · next n _ =>
        obtain ⟨hfinite, hx⟩ := Option.ite_none_right_eq_some.mp h
        exact Option.some.inj hx ▸ hfinite

theorem hasType_of_read {type : FieldType} {t : Text} {v : Value} (h : read type t = .ok v) :
    v.HasType type ∨ v = .text t := by
  cases type with
  | text | bytes | any | other =>
      cases h
      exact Or.inr rfl
  | int =>
      obtain ⟨n, -, rfl⟩ := Outcome.map_eq_ok_iff.mp h
      exact Or.inl (.int n)
  | float =>
      obtain ⟨x, hx, rfl⟩ := Outcome.map_eq_ok_iff.mp h
      exact Or.inl (.float (isFinite_of_readBinary64? (ofOption_eq_ok_iff.mp hx)))
  | decimal =>
      obtain ⟨d, -, rfl⟩ := Outcome.map_eq_ok_iff.mp h
      exact Or.inl (.decimal d)
  | bool =>
      obtain ⟨b, -, rfl⟩ := Outcome.map_eq_ok_iff.mp h
      exact Or.inl (.bool b)
  | date =>
      obtain ⟨d, -, rfl⟩ := Outcome.map_eq_ok_iff.mp h
      exact Or.inl (.date d)
  | datetime =>
      obtain ⟨m, -, rfl⟩ := Outcome.map_eq_ok_iff.mp h
      exact Or.inl (.moment m)
  | uuid =>
      obtain ⟨u, -, rfl⟩ := Outcome.map_eq_ok_iff.mp h
      exact Or.inl (.uuid u)

end Literal

namespace Field

variable {f : Field} {t : Text} {v : Value}

theorem hasType_of_read (h : f.read t = .ok v) : v.HasType f.type ∨ v = .text t :=
  Literal.hasType_of_read (read_eq_ok_iff.mp h)

/-- A field of moments reads what is a moment. -/
theorem read_moment_iff (htype : f.type = .datetime) :
    f.read t = .ok v ↔ ∃ m, Literal.moment? t = some m ∧ v = .moment m := by
  rw [read_eq_ok_iff, htype, Literal.read, Outcome.map_eq_ok_iff]
  simp only [Literal.ofOption_eq_ok_iff]
  exact exists_congr fun m ↦ and_congr_right' eq_comm

end Field

end RecordQuery
