import RecordQuery.Catalog
import RecordQuery.Proofs.Literal
import RecordQuery.Proofs.Number.Whole
import RecordQuery.Proofs.Rejection
import RecordQuery.Proofs.WellFormed

namespace RecordQuery

/-!
# Whole numbers as literals

A literal of a whole number is read if it is a numeral of a number of 64
bits and short: at most 19 characters may follow its sign and the zeros at
its start. Numerals of digits alone are short enough, but separators and
zeros of other scripts count as characters, so that a numeral with many of
them is rejected whatever it is worth.
-/

/-- A number of 64 bits has few digits behind its zeros. -/
theorem IsWholeNumeral.length_significant_le {t : Text} {n : Int} (h : IsWholeNumeral t n)
    (hfits : fitsInt64 n = true) (hseparator : '_' ∉ t)
    (hzero : ∀ c ∈ t, Text.digitValue? c = some 0 → c = '0') :
    (significant t).length ≤ int64Digits := by
  obtain ⟨sign, negative, groups, ds, hsign, hne, hgroups, hds, rfl, rfl⟩ := h
  have hlt : Text.ofDigits ds < 10 ^ int64Digits := lt_of_fitsInt64 hfits
  obtain ⟨g, groups, rfl⟩ := List.exists_cons_of_ne_nil hne
  cases groups with
  | cons h groups =>
      -- there is a separator behind the first group
      refine absurd ?_ hseparator
      rw [Text.joinWith_cons (List.cons_ne_nil _ _)]
      simp
  | nil =>
      obtain ⟨c, g, rfl⟩ := List.exists_cons_of_ne_nil (hgroups g List.mem_cons_self)
      rw [List.flatten_singleton] at hds
      have hc := Text.isDigit_of_digitValues?_eq hds c List.mem_cons_self
      rw [Text.joinWith_singleton, Numeral.significant_append hsign hc]
      exact Text.length_dropZeros_le hds hlt fun d hd ↦ hzero d (List.mem_append_right sign hd)

namespace Literal

theorem int_eq_ok_iff {t : Text} {n : Int} : int t = .ok n ↔
    (IsWholeNumeral t n ∧ digitsIn t ≤ digitLimit ∧ fitsInt64 n = true) ∧
      (significant t).length ≤ int64Digits := by
  rw [← readInt?_eq_some_iff, int]
  by_cases hlong : int64Digits < (significant t).length
  · rw [if_pos hlong]
    exact ⟨nofun, fun h ↦ absurd hlong (Nat.not_lt.mpr h.2)⟩
  · rw [if_neg hlong, and_iff_left (Nat.not_lt.mp hlong)]
    cases readInt? t with
    | none => exact ⟨nofun, nofun⟩
    | some m =>
        dsimp only
        rw [Option.some.injEq]
        split
        · next hlimit => exact ⟨nofun, fun h ↦ absurd hlimit (Nat.not_lt.mpr h.2.1)⟩
        · next hlimit =>
            split
            · next hfits =>
                rw [Except.ok.injEq]
                refine ⟨?_, fun h ↦ h.1⟩
                rintro rfl
                exact ⟨rfl, Nat.not_lt.mp hlimit, hfits⟩
            · next hfits =>
                refine ⟨nofun, ?_⟩
                rintro ⟨rfl, -, h⟩
                exact absurd h hfits

end Literal

namespace Field

variable {f : Field}

/-- A field of whole numbers reads the number of which a literal is a numeral, blanks around it
apart and with points for commas, if the number has 64 bits, the numeral no more digits than are
read, and no more than 19 characters behind its sign and its zeros. A numeral of digits only, with
no zeros but those of the basic alphabet, has no more characters there. All else is rejected. -/
theorem read_int_iff (htype : f.type = .int) (t : Text) :
    let u := Literal.withPoints (Text.trim t)
    (∀ n, f.read t = .ok (.int n) ↔
      (IsWholeNumeral u n ∧ digitsIn u ≤ digitLimit ∧ fitsInt64 n = true) ∧
        (significant u).length ≤ int64Digits) ∧
    (∀ n, IsWholeNumeral u n → fitsInt64 n = true → '_' ∉ u →
      (∀ c ∈ u, Text.digitValue? c = some 0 → c = '0') →
      (significant u).length ≤ int64Digits) ∧
    ((∀ n, f.read t ≠ .ok (.int n)) → ∃ kind, f.read t = reject (.badLiteral f.name kind)) := by
  intro u
  have hread : ∀ v, f.read t = .ok v ↔ ∃ n, Literal.int u = .ok n ∧ Value.int n = v := by
    intro v
    rw [read_eq_ok_iff, htype, Literal.read, Outcome.map_eq_ok_iff]
  refine ⟨fun n ↦ ?_, fun n hn hfits ↦ hn.length_significant_le hfits, fun hfails ↦ ?_⟩
  · rw [hread, ← Literal.int_eq_ok_iff]
    simp
  · cases hresult : f.read t with
    | ok v =>
        obtain ⟨n, -, rfl⟩ := (hread v).mp hresult
        exact absurd hresult (hfails n)
    | error e =>
        obtain ⟨kind, rfl⟩ := f.faultsIn_read t e hresult
        exact ⟨kind, rfl⟩

/-- The least number of 64 bits, behind zeros and between blanks. -/
theorem read_int_iff_least :
    let employees : Field := Catalog.field "employees" .int
    let t := " -0000000000009223372036854775808\n".toList
    employees.type = .int ∧ employees.read t = .ok (.int (-2 ^ 63)) := by
  intro employees t
  have hnumeral : readInt? (Literal.withPoints (Text.trim t)) = some (-2 ^ 63) := by decide +kernel
  have hdigits : digitsIn (Literal.withPoints (Text.trim t)) ≤ digitLimit := by decide +kernel
  have hlength : (significant (Literal.withPoints (Text.trim t))).length ≤ int64Digits := by
    decide +kernel
  exact ⟨rfl, ((read_int_iff rfl t).1 (-2 ^ 63)).mpr
    ⟨⟨readInt?_eq_some_iff.mp hnumeral, hdigits, by decide⟩, hlength⟩⟩

theorem read_of_int_eq_error (htype : f.type = .int) {t : Text} {kind : LiteralKind}
    (h : Literal.int (Literal.withPoints (Text.trim t)) = .error kind) :
    f.read t = reject (.badLiteral f.name kind) := by
  simp [read, Literal.read, htype, h, Except.map]

/-- A number of 64 bits that is rejected as too large, because of the separators between its digits,
and a nine that is rejected because of zeros of another script before it. -/
theorem read_int_separated :
    let employees : Field := Catalog.field "employees" .int
    let lost (t : Text) (n : Int) : Prop :=
      Literal.withPoints (Text.trim t) = t ∧
        IsWholeNumeral t n ∧ digitsIn t ≤ digitLimit ∧ fitsInt64 n = true ∧
        employees.read t = reject (.badLiteral "employees".toList .integerOutOfRange)
    lost "1_000_000_000_000_000_000".toList (10 ^ 18) ∧
      lost (List.replicate 19 '٠' ++ ['٩']) 9 := by
  intro employees lost
  have hlost : ∀ t n, Literal.withPoints (Text.trim t) = t → readInt? t = some n →
      digitsIn t ≤ digitLimit → fitsInt64 n = true →
      Literal.int (Literal.withPoints (Text.trim t)) = .error .integerOutOfRange → lost t n :=
    fun t n htrim hnumeral hdigits hfits herror ↦ ⟨htrim, readInt?_eq_some_iff.mp hnumeral, hdigits,
      hfits, read_of_int_eq_error (f := employees) rfl herror⟩
  constructor
  · apply hlost <;> decide +kernel
  · apply hlost <;> decide +kernel

end Field

end RecordQuery
